import ImportAudit.Proofs.Text.Blank
import ImportAudit.Text.Lower

/-!
# Lower-casing is done once

What has been lower-cased has no capitals left, so lower-casing it again changes nothing; and no
character becomes a blank by it.
-/

namespace ImportAudit.Text

/-! ## Rows of capitals -/

namespace LowerRow

def covers (r : LowerRow) (n : Nat) : Bool :=
  decide (r.first ≤ n) && decide (n ≤ r.last) && (n - r.first) % r.step == 0

def lowered (r : LowerRow) (n : Nat) : Nat :=
  Int.toNat (n + r.shift)

def capitals (r : LowerRow) : List Nat :=
  (List.range ((r.last - r.first) / r.step + 1)).map fun i => r.first + r.step * i

theorem mem_capitals {r : LowerRow} {n : Nat} (h : r.covers n = true) : n ∈ r.capitals := by
  simp only [covers, Bool.and_eq_true, decide_eq_true_eq, beq_iff_eq] at h
  obtain ⟨⟨hfirst, hlast⟩, hstep⟩ := h
  refine List.mem_map.mpr ⟨(n - r.first) / r.step, List.mem_range.mpr ?_, ?_⟩
  · have hle : (n - r.first) / r.step ≤ (r.last - r.first) / r.step :=
      Nat.div_le_div_right (by omega)
    omega
  · rw [Nat.mul_div_cancel' (Nat.dvd_of_mod_eq_zero hstep)]
    omega

/-- Whether the lower-case forms of a row are not among the capitals of another one.
For most rows their ends tell. -/
def apart (r s : LowerRow) : Bool :=
  Nat.blt s.last (r.lowered r.first) || Nat.blt (r.lowered r.last) s.first ||
    r.capitals.all fun n => !s.covers (r.lowered n)

theorem covers_lowered {r s : LowerRow} (h : r.apart s = true) {n : Nat} (hn : r.covers n = true) :
    s.covers (r.lowered n) = false := by
  simp only [apart, Bool.or_eq_true, Nat.blt_eq] at h
  rcases h with (hbelow | habove) | hall
  · simp only [covers, lowered, Bool.and_eq_true, decide_eq_true_eq] at hbelow hn
    have hlast : ¬ r.lowered n ≤ s.last := by
      unfold lowered
      omega
    simp [covers, hlast]
  · simp only [covers, lowered, Bool.and_eq_true, decide_eq_true_eq] at habove hn
    have hfirst : ¬ s.first ≤ r.lowered n := by
      unfold lowered
      omega
    simp [covers, hfirst]
  · simpa using List.all_eq_true.mp hall n (mem_capitals hn)

end LowerRow

/-- The capitals of ASCII, the dotted capital I and the blanks, as rows. -/
def plainRows : List LowerRow :=
  ⟨0x41, 0x5a, 1, 32⟩ :: ⟨9, 13, 1, 0⟩ :: ⟨0x1c, 0x20, 1, 0⟩ :: ⟨0x2000, 0x200a, 1, 0⟩ ::
    [0x130, 0x85, 0xa0, 0x1680, 0x2028, 0x2029, 0x202f, 0x205f, 0x3000].map fun n => ⟨n, n, 1, 0⟩

def neverLowered : List LowerRow :=
  plainRows ++ lowerRows.toList

theorem lowerRows_apart : (lowerRows.toList.all fun r => neverLowered.all r.apart) = true := by
  decide +kernel

theorem covers_lowered_eq_false {r s : LowerRow} (hr : r ∈ lowerRows.toList)
    (hs : s ∈ neverLowered) {n : Nat} (hn : r.covers n = true) : s.covers (r.lowered n) = false :=
  LowerRow.covers_lowered (List.all_eq_true.mp (List.all_eq_true.mp lowerRows_apart r hr) s hs) hn

theorem isValidChar_lowered {r : LowerRow} (hr : r ∈ lowerRows.toList) {n : Nat}
    (hn : r.covers n = true) :
    (r.lowered n).isValidChar := by
  have hends : (lowerRows.toList.all fun r => Nat.blt (r.lowered r.last) 0xd800 ||
      Nat.blt 0xdfff (r.lowered r.first) && Nat.blt (r.lowered r.last) 0x110000) = true := by
        decide +kernel
  have hrow := List.all_eq_true.mp hends r hr
  simp only [LowerRow.covers, LowerRow.lowered, Bool.or_eq_true, Bool.and_eq_true, Nat.blt_eq,
    decide_eq_true_eq] at hrow hn
  unfold Nat.isValidChar LowerRow.lowered
  omega

/-! ## Characters -/

theorem lowerChar_cases {c : Char} (h : ¬ c.toNat < 0x80) :
    (lowerChar c = c ∧ ∀ r ∈ lowerRows.toList, r.covers c.toNat = false) ∨
      ∃ r ∈ lowerRows.toList, r.covers c.toNat = true ∧
        (lowerChar c).toNat = r.lowered c.toNat := by
  unfold lowerChar
  rw [if_neg h]
  split
  next r hfind =>
    have hr : r ∈ lowerRows.toList := Array.mem_toList_iff.mpr (Array.mem_of_find?_eq_some hfind)
    have hcovers := Array.find?_some hfind
    change r.covers c.toNat = true at hcovers
    refine .inr ⟨r, hr, hcovers, ?_⟩
    change (Char.ofNat (r.lowered c.toNat)).toNat = r.lowered c.toNat
    rw [Char.ofNat, dif_pos (isValidChar_lowered hr hcovers)]
    rfl
  next hfind =>
    refine .inl ⟨rfl, fun r hr => ?_⟩
    have hnone := Array.find?_eq_none.mp hfind r (Array.mem_toList_iff.mp hr)
    exact Bool.eq_false_iff.mpr hnone

/-- Whether the character is its own lower-case form, in every place of a text. -/
def IsLow (c : Char) : Prop :=
  lowerChar c = c ∧ c.toNat ≠ 0x130 ∧ c.toNat ≠ 0x3a3

instance (c : Char) : Decidable (IsLow c) :=
  inferInstanceAs (Decidable (_ ∧ _ ∧ _))

theorem isLow_ascii {c : Char} (h : c.toNat < 0x80) :
    IsLow (lowerChar c) ∧ (isBlank (lowerChar c) → isBlank c) := by
  have hall : ∀ n < 0x80, IsLow (lowerChar (Char.ofNat n)) ∧
      (isBlank (lowerChar (Char.ofNat n)) → isBlank (Char.ofNat n)) := by decide +kernel
  simpa using hall c.toNat h

theorem lowerChar_ascii {c : Char} (h : c.toNat < 0x80)
    (hcapital : c.toNat < 0x41 ∨ 0x5a < c.toNat) :
    lowerChar c = c := by
  have hall : ∀ n < 0x80, n < 0x41 ∨ 0x5a < n → lowerChar (Char.ofNat n) = Char.ofNat n := by
    decide +kernel
  simpa using hall c.toNat h hcapital

theorem isLow_of_rows {c : Char} (h : ¬ c.toNat < 0x80)
    (hc : ∀ r ∈ lowerRows.toList, r.covers c.toNat = false)
    (hdotted : c.toNat ≠ 0x130) : IsLow c := by
  refine ⟨?_, hdotted, ?_⟩
  · rcases lowerChar_cases h with ⟨hsame, -⟩ | ⟨r, hr, hcovers, -⟩
    · exact hsame
    · rw [hc r hr] at hcovers
      cases hcovers
  · intro hsigma
    have hrow : (lowerRows.toList.any fun r => r.covers 0x3a3) = true := by decide +kernel
    obtain ⟨r, hr, hcovers⟩ := List.any_eq_true.mp hrow
    rw [← hsigma, hc r hr] at hcovers
    cases hcovers

theorem lowered_row {c : Char} {r : LowerRow} (hr : r ∈ lowerRows.toList)
    (hcovers : r.covers c.toNat = true) (hcode : (lowerChar c).toNat = r.lowered c.toNat) :
    IsLow (lowerChar c) ∧ isBlank (lowerChar c) = false := by
  have hnever : ∀ s ∈ neverLowered, s.covers (lowerChar c).toNat = false := by
    intro s hs
    rw [hcode]
    exact covers_lowered_eq_false hr hs hcovers
  have hrows := fun s hs => hnever s (List.mem_append_right plainRows hs)
  have hplain := fun s hs => hnever s (List.mem_append_left lowerRows.toList hs)
  simp only [plainRows, List.map_cons, List.map_nil, List.forall_mem_cons,
    LowerRow.covers, Nat.mod_one, beq_self_eq_true, Bool.and_eq_false_iff, decide_eq_false_iff_not,
    Bool.true_eq_false, or_false] at hplain
  constructor
  · by_cases hascii : (lowerChar c).toNat < 0x80
    · refine ⟨?_, by omega, by omega⟩
      exact lowerChar_ascii hascii (by omega)
    · exact isLow_of_rows hascii hrows (by omega)
  · unfold isBlank
    simp only [Bool.or_eq_false_iff, Bool.and_eq_false_iff, decide_eq_false_iff_not,
      beq_eq_false_iff_ne]
    omega

/-- Lower-casing a character leaves nothing to be lower-cased, and no blank that was not there. -/
theorem isLow_lowerChar {c : Char} (h : c.toNat ≠ 0x130) :
    IsLow (lowerChar c) ∧ (isBlank (lowerChar c) → isBlank c) := by
  by_cases hascii : c.toNat < 0x80
  · exact isLow_ascii hascii
  · rcases lowerChar_cases hascii with ⟨hsame, hrows⟩ | ⟨r, hr, hcovers, hcode⟩
    · rw [hsame]
      exact ⟨isLow_of_rows hascii hrows h, id⟩
    · obtain ⟨hlow, hblank⟩ := lowered_row hr hcovers hcode
      exact ⟨hlow, fun hb => absurd hb (by simp [hblank])⟩

/-! ## Texts -/

def lowerAt (before : List Char) (c : Char) (after : List Char) : List Char :=
  if c.toNat == 0x3a3 then
    if meetsCased before && !meetsCased after then [Char.ofNat 0x3c2] else [Char.ofNat 0x3c3]
  else if c.toNat == 0x130 then ['i', Char.ofNat 0x307]
  else [lowerChar c]

theorem lowerFrom_cons (before : List Char) (c : Char) (cs : List Char) :
    lowerFrom before (c :: cs) = lowerAt before c cs ++ lowerFrom (c :: before) cs := rfl

theorem lowerAt_ne_nil (before : List Char) (c : Char) (after : List Char) :
    lowerAt before c after ≠ [] := by
  unfold lowerAt
  split <;> try split
  all_goals exact List.cons_ne_nil _ _

theorem isLow_special {d : Char}
    (hd : d ∈ [Char.ofNat 0x3c2, Char.ofNat 0x3c3, 'i', Char.ofNat 0x307]) : IsLow d := by
  have hrows : ∀ n ∈ [0x3c2, 0x3c3, 0x307], ∀ r ∈ lowerRows.toList, r.covers n = false := by
    decide +kernel
  simp only [List.mem_cons, List.not_mem_nil, or_false] at hd
  rcases hd with rfl | rfl | rfl | rfl
  · exact isLow_of_rows (by decide) (hrows 0x3c2 (by decide)) (by decide)
  · exact isLow_of_rows (by decide) (hrows 0x3c3 (by decide)) (by decide)
  · exact ⟨lowerChar_ascii (by decide) (by decide), by decide, by decide⟩
  · exact isLow_of_rows (by decide) (hrows 0x307 (by decide)) (by decide)

theorem forall_mem_lowerAt {before after : List Char} {c d : Char}
    (hd : d ∈ lowerAt before c after) :
    IsLow d ∧ (isBlank d → isBlank c) := by
  have hspecial : ∀ d ∈ [Char.ofNat 0x3c2, Char.ofNat 0x3c3, 'i', Char.ofNat 0x307],
      IsLow d ∧ (isBlank d → isBlank c) := by
    intro d hd
    have hnone : ([Char.ofNat 0x3c2, Char.ofNat 0x3c3, 'i', Char.ofNat 0x307].any isBlank) =
        false := by decide
    have hblank := List.any_eq_false.mp hnone d hd
    exact ⟨isLow_special hd, fun hb => absurd hb hblank⟩
  unfold lowerAt at hd
  split at hd
  · split at hd
    all_goals exact hspecial d (by simp_all)
  · split at hd
    · exact hspecial d (by simp_all)
    next hdotted =>
      rw [List.mem_singleton.mp hd]
      exact isLow_lowerChar (by simpa using hdotted)

theorem isLow_of_mem_lowerFrom {before cs : List Char} {d : Char}
    (hd : d ∈ lowerFrom before cs) : IsLow d := by
  induction cs generalizing before with
  | nil => exact absurd hd List.not_mem_nil
  | cons c cs ih =>
      rw [lowerFrom_cons, List.mem_append] at hd
      rcases hd with hd | hd
      · exact (forall_mem_lowerAt hd).1
      · exact ih hd

theorem lowerFrom_eq_self {before cs : List Char} (h : ∀ c ∈ cs, IsLow c) :
    lowerFrom before cs = cs := by
  induction cs generalizing before with
  | nil => rfl
  | cons c cs ih =>
      obtain ⟨hself, hdotted, hsigma⟩ := h c List.mem_cons_self
      rw [lowerFrom_cons, ih fun d hd => h d (List.mem_cons_of_mem c hd), lowerAt,
        if_neg (by simpa using hsigma), if_neg (by simpa using hdotted), hself]
      rfl

theorem lowerFrom_eq_nil {before cs : List Char} (h : lowerFrom before cs = []) : cs = [] := by
  cases cs with
  | nil => rfl
  | cons c cs =>
      rw [lowerFrom_cons, List.append_eq_nil_iff] at h
      exact absurd h.1 (lowerAt_ne_nil before c cs)

theorem isBlank_of_mem_lowerAt {before after : List Char} {c d : Char} (hc : isBlank c = false)
    (hd : d ∈ lowerAt before c after) : isBlank d = false := by
  cases hblank : isBlank d with
  | false => rfl
  | true => rw [(forall_mem_lowerAt hd).2 hblank] at hc; cases hc

theorem getLast?_lowerFrom_free {before cs : List Char} (h : ∀ c ∈ cs.getLast?, isBlank c = false) :
    ∀ d ∈ (lowerFrom before cs).getLast?, isBlank d = false := by
  induction cs generalizing before with
  | nil => exact h
  | cons c cs ih =>
      intro d hd
      rw [lowerFrom_cons, List.getLast?_append] at hd
      cases hrest : (lowerFrom (c :: before) cs).getLast? with
      | none =>
          -- Nothing follows, so that the character is the last one.
          rw [hrest, Option.none_or] at hd
          rw [lowerFrom_eq_nil (List.getLast?_eq_none_iff.mp hrest)] at h
          exact isBlank_of_mem_lowerAt (h c rfl) (List.mem_of_getLast? hd)
      | some e =>
          rw [hrest, Option.some_or] at hd
          refine ih (fun x hx => h x ?_) d (hrest.trans hd)
          rw [List.getLast?_cons, Option.mem_def.mp hx]
          rfl

theorem freeEnds_lowerFrom {before cs : List Char} (h : FreeEnds isBlank cs) :
    FreeEnds isBlank (lowerFrom before cs) := by
  refine ⟨?_, getLast?_lowerFrom_free h.2⟩
  cases cs with
  | nil => exact h.1
  | cons c cs =>
      intro d hd
      have hne := lowerAt_ne_nil before c cs
      rw [lowerFrom_cons, List.head?_append, List.head?_eq_some_head hne, Option.some_or,
        Option.mem_some_iff] at hd
      exact isBlank_of_mem_lowerAt (h.1 c rfl) (hd ▸ List.head_mem hne)

end ImportAudit.Text
