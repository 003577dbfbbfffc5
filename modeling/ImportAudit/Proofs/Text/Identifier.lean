import ImportAudit.Proofs.Text.Blank
import ImportAudit.Text.Identifier

/-!
# Characters of identifiers and blanks

A character that starts an identifier may also stand inside one, and no
character of an identifier is a blank.
-/

namespace ImportAudit.Text

theorem isIdentifierPart_of_isIdentifierStart {c : Char} (h : isIdentifierStart c = true) :
    isIdentifierPart c = true := by
  rw [isIdentifierPart, h, Bool.true_or]

theorem inRanges_eq_false_of_isBlank {table : Array (Nat × Nat)} {c : Char}
    (htable : ∀ n ∈ blankCodes,
      (table.toList.any fun r => decide (r.1 ≤ n) && decide (n ≤ r.2)) = false)
    (hblank : isBlank c = true) : inRanges table c.toNat = false := by
  rw [inRanges, ← Array.any_toList]
  exact htable c.toNat (toNat_mem_blankCodes hblank)

theorem isBlank_of_isIdentifierPart {c : Char} (h : isIdentifierPart c = true) :
    isBlank c = false := by
  cases hblank : isBlank c with
  | false => rfl
  | true =>
      have hascii : ∀ n ∈ blankCodes, n < 0x80 → isIdentifierPart (Char.ofNat n) = false := by
        decide +kernel
      by_cases hlow : c.toNat < 0x80
      · have hnone := hascii c.toNat (toNat_mem_blankCodes hblank) hlow
        rw [Char.ofNat_toNat, h] at hnone
        cases hnone
      · have hstart : inRanges identifierStartRanges c.toNat = false :=
          inRanges_eq_false_of_isBlank (by decide +kernel) hblank
        have hmark : inRanges identifierMarkRanges c.toNat = false :=
          inRanges_eq_false_of_isBlank (by decide +kernel) hblank
        have hcent : (c == '\u00a2') = false := by
          rw [beq_eq_false_iff_ne]
          rintro rfl
          cases hblank
        rw [isIdentifierPart, isIdentifierStart, isIdentifierMark, if_neg hlow, if_neg hlow, hstart,
          hmark, hcent] at h
        cases h

end ImportAudit.Text
