import ImportAudit.Decimal.Read
import Mathlib.Data.List.TakeDrop
import Mathlib.Data.Nat.Digits.Defs
import Mathlib.Tactic.Ring

/-!
# Decimal digits

Writing a number in decimal digits and taking their value gives the number back. The first digit of
a positive number is not zero.
-/

namespace ImportAudit.Decimal

theorem digitsValue_toDigits (n : Nat) : digitsValue (Nat.toDigits 10 n) = n :=
  Nat.ofDigitChars_toDigits (by omega) (by omega)

theorem foldl_digits (ds : List Char) (n : Nat) :
    ds.foldl (fun n d => 10 * n + (d.toNat - 0x30)) n = n * 10 ^ ds.length + digitsValue ds := by
  induction ds generalizing n with
  | nil => simp [digitsValue]
  | cons d ds ih =>
      have hd : digitsValue (d :: ds) = (d.toNat - 0x30) * 10 ^ ds.length + digitsValue ds := by
        show ds.foldl _ (10 * 0 + (d.toNat - 0x30)) = _
        rw [ih]
        simp
      rw [List.foldl_cons, ih, hd, List.length_cons]
      ring

theorem digitsValue_append (ds es : List Char) :
    digitsValue (ds ++ es) = digitsValue ds * 10 ^ es.length + digitsValue es := by
  unfold digitsValue
  rw [List.foldl_append, foldl_digits es]
  rfl

theorem digitsValue_zeros (k : Nat) : digitsValue (List.replicate k '0') = 0 := by
  induction k with
  | zero => rfl
  | succ k ih =>
      rw [List.replicate_succ']
      rw [digitsValue_append, ih]
      rfl

theorem isDigit_of_mem {n : Nat} {c : Char} (h : c ∈ Nat.toDigits 10 n) : c.isDigit = true :=
  Nat.isDigit_of_mem_toDigits (by omega) (by omega) h

theorem lt_pow_length (n : Nat) : n < 10 ^ (Nat.toDigits 10 n).length :=
  (Nat.length_toDigits_le_iff (by omega) Nat.length_toDigits_pos).mp le_rfl

theorem pow_length_le {n : Nat} (h : 0 < n) : 10 ^ ((Nat.toDigits 10 n).length - 1) ≤ n := by
  have hpos : 0 < (Nat.toDigits 10 n).length := Nat.length_toDigits_pos
  by_cases hone : (Nat.toDigits 10 n).length = 1
  · rw [hone]
    exact h
  · by_contra hlt
    have hshort :=
      (Nat.length_toDigits_le_iff (b := 10) (n := n) (by omega) (by omega)).mpr
        (Nat.lt_of_not_le hlt)
    omega

theorem length_toDigits_mul_pow {n : Nat} (h : 0 < n) (k : Nat) :
    (Nat.toDigits 10 (n * 10 ^ k)).length = (Nat.toDigits 10 n).length + k := by
  have hpos : 0 < (Nat.toDigits 10 n).length := Nat.length_toDigits_pos
  apply Nat.le_antisymm
  · rw [Nat.length_toDigits_le_iff (by omega) (by omega), Nat.pow_add]
    exact Nat.mul_lt_mul_of_pos_right (lt_pow_length n) (Nat.pow_pos (by omega))
  · by_contra hlt
    have hle :
        (Nat.toDigits 10 (n * 10 ^ k)).length ≤ (Nat.toDigits 10 n).length + k - 1 := by omega
    by_cases hzero : (Nat.toDigits 10 n).length + k - 1 = 0
    · have := Nat.length_toDigits_pos (b := 10) (n := n * 10 ^ k)
      omega
    · have hsmall := (Nat.length_toDigits_le_iff (by omega) (by omega)).mp hle
      have hsplit :
          (Nat.toDigits 10 n).length + k - 1 = ((Nat.toDigits 10 n).length - 1) + k := by omega
      rw [hsplit, Nat.pow_add] at hsmall
      have hlarge := Nat.mul_le_mul_right (10 ^ k) (pow_length_le h)
      omega

theorem head_toDigits {n : Nat} (h : 0 < n) : ∃ c cs, Nat.toDigits 10 n = c :: cs ∧ c ≠ '0' := by
  induction n using Nat.strong_induction_on with
  | _ n ih =>
      by_cases hlt : n < 10
      · refine ⟨n.digitChar, [], Nat.toDigits_of_lt_base hlt, ?_⟩
        intro hzero
        have := Nat.digitChar_eq_zero.mp hzero
        omega
      · obtain ⟨c, cs, hcs, hc⟩ := ih (n / 10) (by omega) (by omega)
        refine ⟨c, cs ++ [(n % 10).digitChar], ?_, hc⟩
        rw [Nat.toDigits_of_base_le (by omega) (by omega), hcs, List.cons_append]

def NoDigitNext (cs : List Char) : Prop :=
  ∀ c ∈ cs.head?, c.isDigit = false

theorem span_digits {ds rest : List Char} (hds : ∀ c ∈ ds, c.isDigit = true)
    (hrest : NoDigitNext rest) :
    (ds ++ rest).span Char.isDigit = (ds, rest) := by
  rw [List.span_eq_takeWhile_dropWhile]
  have htake : rest.takeWhile Char.isDigit = [] ∧ rest.dropWhile Char.isDigit = rest := by
    cases rest with
    | nil => exact ⟨rfl, rfl⟩
    | cons c cs =>
        have hc : c.isDigit = false := hrest c rfl
        simp [hc]
  rw [List.takeWhile_append_of_pos hds, List.dropWhile_append_of_pos hds, htake.1, htake.2,
    List.append_nil]

end ImportAudit.Decimal
