import ImportAudit.Proofs.Decimal.Digits
import Mathlib.Algebra.Order.Field.Power
import Mathlib.Algebra.Order.Field.Rat
import Mathlib.Data.Rat.Cast.Order
import Mathlib.Tactic.FieldSimp
import Mathlib.Tactic.Linarith
import Mathlib.Tactic.NormNum
import Mathlib.Tactic.Positivity

/-!
# Floating point numbers and their decimals

The number nearest to a quotient depends on the value of the quotient alone, and a quotient that is
near enough to a number is read as it. A decimal of seventeen digits next to a number is near
enough, so that the shortest decimal that reads back is always found.
-/

namespace ImportAudit.Double

/-- A mantissa and an exponent in lowest place: either the mantissa has 53 bits
or the exponent is the least. -/
structure IsCanonical (mantissa : Nat) (exponent : Int) : Prop where
  pos : 0 < mantissa
  lt : mantissa < 2 ^ 53
  least : -1074 ≤ exponent
  greatest : exponent ≤ 971
  full : 2 ^ 52 ≤ mantissa ∨ exponent = -1074

instance (mantissa : Nat) (exponent : Int) : Decidable (IsCanonical mantissa exponent) :=
  decidable_of_iff (0 < mantissa ∧ mantissa < 2 ^ 53 ∧ -1074 ≤ exponent ∧ exponent ≤ 971 ∧
    (2 ^ 52 ≤ mantissa ∨ exponent = -1074))
    ⟨fun ⟨h₁, h₂, h₃, h₄, h₅⟩ => ⟨h₁, h₂, h₃, h₄, h₅⟩, fun h =>
      ⟨h.pos, h.lt, h.least, h.greatest, h.full⟩⟩

/-- A number that is neither infinite nor without a value, in lowest place as
every decimal is read. -/
def IsFinite : Double → Prop
  | nan | infinity _ => False
  | finite _ mantissa exponent => (mantissa = 0 ∧ exponent = 0) ∨ IsCanonical mantissa exponent

instance : DecidablePred IsFinite
  | nan | infinity _ => inferInstanceAs (Decidable False)
  | finite _ mantissa exponent =>
      inferInstanceAs (Decidable ((mantissa = 0 ∧ exponent = 0) ∨ IsCanonical mantissa exponent))

/-! ## Powers -/

theorem zpow_of_nonneg (b : ℚ) {e : Int} (h : 0 ≤ e) : b ^ e = b ^ e.natAbs := by
  rw [← zpow_natCast, Int.natAbs_of_nonneg h]

theorem zpow_of_neg (b : ℚ) {e : Int} (h : e < 0) : b ^ e = (b ^ e.natAbs)⁻¹ := by
  rw [← zpow_natCast, ← zpow_neg]
  congr 1
  omega

theorem scaled_spec (num : Nat) {den : Nat} (hden : 0 < den) (e : Int) :
    0 < (scaled num den e).2 ∧ ((scaled num den e).1 : ℚ) / (scaled num den e).2 = (num : ℚ) /
      den / 2 ^ e := by
  unfold scaled
  split
  · rename_i he
    refine ⟨hden, ?_⟩
    rw [zpow_of_neg 2 he]
    push_cast [Nat.pow_eq]
    field_simp
  · rename_i he
    refine ⟨Nat.mul_pos hden (Nat.pow_pos (by omega)), ?_⟩
    rw [zpow_of_nonneg 2 (Int.not_lt.mp he)]
    push_cast [Nat.pow_eq]
    field_simp

/-! ## The exponent of a quotient -/

theorem bitLength_spec {n : Nat} (h : 0 < n) :
    (2 : ℚ) ^ ((bitLength n : Int) - 1) ≤ n ∧ (n : ℚ) < 2 ^ (bitLength n : Int) := by
  have hlength : bitLength n = Nat.log2 n + 1 := if_neg (by omega)
  have hlow : 2 ^ Nat.log2 n ≤ n := Nat.log2_self_le (by omega)
  have hhigh : n < 2 ^ (Nat.log2 n + 1) := Nat.lt_log2_self
  rw [hlength]
  constructor
  · have hcast : ((Nat.log2 n + 1 : Nat) : Int) - 1 = (Nat.log2 n : Int) := by omega
    rw [hcast, zpow_natCast]
    exact_mod_cast hlow
  · rw [zpow_natCast]
    exact_mod_cast hhigh

theorem quotientExponent_spec {num den : Nat} (hnum : 0 < num) (hden : 0 < den) :
    2 ^ 52 ≤ (num : ℚ) / den / 2 ^ quotientExponent num den ∧
      (num : ℚ) / den / 2 ^ quotientExponent num den < 2 ^ 53 := by
  obtain ⟨hnumlow, hnumhigh⟩ := bitLength_spec hnum
  obtain ⟨hdenlow, hdenhigh⟩ := bitLength_spec hden
  have hdenpos : (0 : ℚ) < den := by exact_mod_cast hden
  obtain ⟨guess, hguess⟩ : ∃ g : Int, g = (bitLength num : Int) - bitLength den - 53 := ⟨_, rfl⟩
  have hpow : (0 : ℚ) < 2 ^ guess := by positivity
  -- The guess leaves a mantissa of 53 or 54 bits.
  have hlow : 2 ^ 52 < (num : ℚ) / den / 2 ^ guess := by
    rw [lt_div_iff₀ hpow, lt_div_iff₀ hdenpos]
    calc (2 : ℚ) ^ 52 * 2 ^ guess * den
      _ < 2 ^ 52 * 2 ^ guess * 2 ^ (bitLength den : Int) := by gcongr
      _ = 2 ^ ((bitLength num : Int) - 1) := by
          rw [← zpow_natCast, ← zpow_add₀ (by norm_num), ← zpow_add₀ (by norm_num)]
          congr 1
          push_cast
          omega
      _ ≤ num := hnumlow
  have hhigh : (num : ℚ) / den / 2 ^ guess < 2 ^ 54 := by
    rw [div_lt_iff₀ hpow, div_lt_iff₀ hdenpos]
    calc (num : ℚ) < 2 ^ (bitLength num : Int) := hnumhigh
      _ = 2 ^ 54 * 2 ^ guess * 2 ^ ((bitLength den : Int) - 1) := by
          rw [← zpow_natCast, ← zpow_add₀ (by norm_num), ← zpow_add₀ (by norm_num)]
          congr 1
          push_cast
          omega
      _ ≤ 2 ^ 54 * 2 ^ guess * den := by gcongr
  obtain ⟨hscaledpos, hscaled⟩ := scaled_spec num hden guess
  have hfull : (scaled num den guess).1 < 2 ^ 53 * (scaled num den guess).2 ↔
      (num : ℚ) / den / 2 ^ guess < 2 ^ 53 := by
    rw [← hscaled, div_lt_iff₀ (by exact_mod_cast hscaledpos)]
    exact_mod_cast Iff.rfl
  have hexponent : quotientExponent num den =
      if (scaled num den guess).1 < 2 ^ 53 * (scaled num den guess).2 then guess
      else guess + 1 := by
    rw [hguess]
    rfl
  rw [hexponent]
  by_cases h : (num : ℚ) / den / 2 ^ guess < 2 ^ 53
  · rw [if_pos (hfull.mpr h)]
    exact ⟨hlow.le, h⟩
  · rw [if_neg (mt hfull.mp h), zpow_add_one₀ (by norm_num), div_mul_eq_div_div]
    constructor <;> linarith

theorem exponent_le {q : ℚ} {e f : Int} (he : 2 ^ 52 ≤ q / 2 ^ e)
    (hf : q / 2 ^ f < 2 ^ 53) : e ≤ f := by
  by_contra hlt
  have hstep : (2 : ℚ) ^ (f + 1) ≤ 2 ^ e := zpow_le_zpow_right₀ (by norm_num) (by omega)
  rw [zpow_add_one₀ (by norm_num)] at hstep
  rw [le_div_iff₀ (by positivity)] at he
  rw [div_lt_iff₀ (by positivity)] at hf
  linarith

/-- There is one exponent only at which a quotient has a mantissa of 53 bits. -/
theorem quotientExponent_eq {num den : Nat} (hnum : 0 < num) (hden : 0 < den) {e : Int}
    (hlow : 2 ^ 52 ≤ (num : ℚ) / den / 2 ^ e) (hhigh : (num : ℚ) / den / 2 ^ e < 2 ^ 53) :
    quotientExponent num den = e :=
  have h := quotientExponent_spec hnum hden
  Int.le_antisymm (exponent_le h.1 hhigh) (exponent_le hlow h.2)

/-! ## Rounding -/

theorem roundDiv_near (n : Nat) {d : Nat} (hd : 0 < d) : |(roundDiv n d : ℚ) - n / d| ≤ 1 / 2 := by
  have hd' : (0 : ℚ) < d := by exact_mod_cast hd
  have hsplit : (n : ℚ) / d = (n / d : Nat) + (n % d : Nat) / d := by
    have hnat : (n : ℚ) = d * (n / d : Nat) + (n % d : Nat) := by
      exact_mod_cast (Nat.div_add_mod n d).symm
    rw [div_eq_iff hd'.ne', add_mul, div_mul_cancel₀ _ hd'.ne']
    linarith
  have hpart : (0 : ℚ) ≤ (n % d : Nat) / d ∧ ((n % d : Nat) / d : ℚ) < 1 := by
    refine ⟨by positivity, ?_⟩
    rw [div_lt_one hd']
    exact_mod_cast Nat.mod_lt n hd
  have hdown (h : 2 * (n % d) ≤ d) : ((n % d : Nat) / d : ℚ) ≤ 1 / 2 := by
    have : (2 * (n % d : Nat) : ℚ) ≤ d := by exact_mod_cast h
    rw [div_le_iff₀ hd']
    linarith
  have hup (h : d ≤ 2 * (n % d)) : (1 / 2 : ℚ) ≤ (n % d : Nat) / d := by
    have : (d : ℚ) ≤ 2 * (n % d : Nat) := by exact_mod_cast h
    rw [le_div_iff₀ hd']
    linarith
  rw [hsplit, abs_le]
  unfold roundDiv
  dsimp only
  split
  · have := hdown (by omega)
    constructor <;> linarith
  · have := hup (by omega)
    split
    · push_cast
      constructor <;> linarith
    · -- Half way: either neighbour is a half away.
      have := hdown (by omega)
      split
      · constructor <;> linarith
      · push_cast
        constructor <;> linarith

theorem roundDiv_eq {n d m : Nat} (hd : 0 < d) (h : |(n : ℚ) / d - m| < 1 / 2) :
    roundDiv n d = m := by
  obtain ⟨hlow, hhigh⟩ := abs_lt.mp h
  obtain ⟨hlow', hhigh'⟩ := abs_le.mp (roundDiv_near n hd)
  have hle : roundDiv n d < m + 1 := by
    have : (roundDiv n d : ℚ) < m + 1 := by linarith
    exact_mod_cast this
  have hge : m < roundDiv n d + 1 := by
    have : (m : ℚ) < roundDiv n d + 1 := by linarith
    exact_mod_cast this
  omega

theorem roundDiv_mul (n d : Nat) {c : Nat} (hc : 0 < c) :
    roundDiv (n * c) (d * c) = roundDiv n d := by
  have hleft : 2 * (n % d * c) < d * c ↔ 2 * (n % d) < d := by
    rw [← Nat.mul_assoc]
    exact Nat.mul_lt_mul_right hc
  have hright : d * c < 2 * (n % d * c) ↔ d < 2 * (n % d) := by
    rw [← Nat.mul_assoc]
    exact Nat.mul_lt_mul_right hc
  unfold roundDiv
  simp only [Nat.mul_div_mul_right _ _ hc, Nat.mul_mod_mul_right, hleft, hright]

theorem roundDiv_congr {n d n' d' : Nat} (hd : 0 < d) (hd' : 0 < d') (h : (n : ℚ) / d = n' / d') :
    roundDiv n d = roundDiv n' d' := by
  have hcross : n * d' = n' * d := by
    rw [div_eq_div_iff (by exact_mod_cast hd.ne') (by exact_mod_cast hd'.ne')] at h
    exact_mod_cast h
  calc roundDiv n d = roundDiv (n * d') (d * d') := (roundDiv_mul n d hd').symm
    _ = roundDiv (n' * d) (d' * d) := by rw [hcross, Nat.mul_comm d d']
    _ = roundDiv n' d' := roundDiv_mul n' d' hd

theorem ofQuotient_congr (negative : Bool) {num den num' den' : Nat} (hden : 0 < den)
    (hden' : 0 < den') (h : (num : ℚ) / den = num' / den') :
    ofQuotient negative num den = ofQuotient negative num' den' := by
  have hzero : num = 0 ↔ num' = 0 := by
    have hd : (den : ℚ) ≠ 0 := by exact_mod_cast hden.ne'
    have hd' : (den' : ℚ) ≠ 0 := by exact_mod_cast hden'.ne'
    rw [div_eq_div_iff hd hd'] at h
    have hcross : num * den' = num' * den := by exact_mod_cast h
    constructor
    · rintro rfl
      rw [Nat.zero_mul] at hcross
      exact (Nat.mul_eq_zero.mp hcross.symm).resolve_right hden.ne'
    · rintro rfl
      rw [Nat.zero_mul] at hcross
      exact (Nat.mul_eq_zero.mp hcross).resolve_right hden'.ne'
  by_cases hnum : num = 0
  · rw [hzero.mp hnum, hnum]
    rfl
  · have hnum' : num' ≠ 0 := mt hzero.mpr hnum
    have hspec := quotientExponent_spec (Nat.pos_of_ne_zero hnum) hden
    have hexponent : quotientExponent num' den' = quotientExponent num den :=
      quotientExponent_eq (Nat.pos_of_ne_zero hnum') hden' (h ▸ hspec.1) (h ▸ hspec.2)
    obtain ⟨hpos, hratio⟩ := scaled_spec num hden (max (quotientExponent num den) minExponent)
    obtain ⟨hpos', hratio'⟩ := scaled_spec num' hden' (max (quotientExponent num den) minExponent)
    unfold ofQuotient
    rw [if_neg hnum, if_neg hnum', hexponent]
    dsimp only
    rw [roundDiv_congr hpos hpos' (by rw [hratio, hratio', h])]

theorem ofMantissa_canonical (negative : Bool) {m : Nat} {e : Int} (h : IsCanonical m e) :
    ofMantissa negative m e = finite negative m e := by
  have hlt : m ≠ Nat.pow 2 precision := Nat.ne_of_lt h.lt
  have hmax : ¬ maxExponent < e := Int.not_lt.mpr h.greatest
  unfold ofMantissa
  simp only [hlt, ↓reduceIte, Nat.ne_of_gt h.pos, hmax]

/-- A mantissa that was rounded up to 54 bits. -/
theorem ofMantissa_carry (negative : Bool) {e : Int} (h : e ≤ 971) :
    ofMantissa negative (2 ^ 53) (e - 1) = finite negative (2 ^ 52) e := by
  have hmax : ¬ maxExponent < e := Int.not_lt.mpr h
  have hexponent : e - 1 + 1 = e := by omega
  show (if Nat.pow 2 52 = 0 then finite negative 0 0
    else if maxExponent < e - 1 + 1 then infinity negative
    else finite negative (Nat.pow 2 52) (e - 1 + 1)) = _
  rw [hexponent, if_neg (by decide), if_neg hmax]
  rfl

theorem ofQuotient_at {num den : Nat} (hnum : 0 < num) (hden : 0 < den) (negative : Bool)
    {m : Nat} {e : Int} (hexponent : max (quotientExponent num den) minExponent = e)
    (h : |(num : ℚ) / den / 2 ^ e - m| < 1 / 2) :
    ofQuotient negative num den = ofMantissa negative m e := by
  obtain ⟨hpos, hratio⟩ := scaled_spec num hden e
  unfold ofQuotient
  rw [if_neg hnum.ne', hexponent]
  dsimp only
  rw [roundDiv_eq hpos (by rw [hratio]; exact h)]

/-- A quotient that is near enough to a number is read as it. Below a power of two the
numbers lie twice as close. -/
theorem ofQuotient_near {num den : Nat} (hden : 0 < den) (negative : Bool) {m : Nat} {e : Int}
    (hm : IsCanonical m e) (hnear : |(num : ℚ) / den / 2 ^ e - m| < 1 / 2)
    (hpower : m = 2 ^ 52 → 2 ^ 52 - 1 / 4 < (num : ℚ) / den / 2 ^ e) :
    ofQuotient negative num den = finite negative m e := by
  obtain ⟨hlow, hhigh⟩ := abs_lt.mp hnear
  have hmpos : (1 : ℚ) ≤ m := by exact_mod_cast hm.pos
  have hmlt : (m : ℚ) + 1 ≤ 2 ^ 53 := by exact_mod_cast hm.lt
  have hnum : 0 < num := by
    rcases Nat.eq_zero_or_pos num with hzero | hpos
    · rw [hzero, Nat.cast_zero, zero_div, zero_div] at hlow
      linarith
    · exact hpos
  have hle : quotientExponent num den ≤ e :=
    exponent_le (quotientExponent_spec hnum hden).1 (by linarith)
  have hleast : minExponent ≤ e := hm.least
  by_cases hexponent : max (quotientExponent num den) minExponent = e
  · rw [ofQuotient_at hnum hden negative hexponent hnear, ofMantissa_canonical negative hm]
  · -- The quotient lies below the power of two that the number is.
    have hfull : 2 ^ 52 ≤ m :=
      hm.full.resolve_right (fun he => hexponent (by simp only [minExponent] at *; omega))
    have hbelow : (num : ℚ) / den / 2 ^ e < 2 ^ 52 := by
      by_contra hge
      have := quotientExponent_eq hnum hden (not_lt.mp hge) (by linarith)
      exact hexponent (by omega)
    have hmeq : m = 2 ^ 52 := by
      have hmle : (m : ℚ) < 2 ^ 52 + 1 := by linarith
      have : m < 2 ^ 52 + 1 := by exact_mod_cast hmle
      omega
    have habove := hpower hmeq
    have htwice : (num : ℚ) / den / 2 ^ (e - 1) = 2 * ((num : ℚ) / den / 2 ^ e) := by
      rw [zpow_sub_one₀ (by norm_num)]
      field_simp
    have hbefore : quotientExponent num den = e - 1 := by
      apply quotientExponent_eq hnum hden
      · rw [htwice]
        linarith
      · rw [htwice]
        linarith
    have hround : |(num : ℚ) / den / 2 ^ (e - 1) - (2 ^ 53 : Nat)| < 1 / 2 := by
      rw [htwice, abs_lt]
      push_cast
      constructor <;> linarith
    rw [ofQuotient_at hnum hden negative (by omega) hround, hmeq]
    exact ofMantissa_carry negative hm.greatest

/-- The sign does not change which number is read. -/
theorem ofQuotient_sign {num den m : Nat} {e : Int}
    (h : ofQuotient false num den = finite false m e) (negative : Bool) :
    ofQuotient negative num den = finite negative m e := by
  unfold ofQuotient ofMantissa at h ⊢
  grind

/-! ## Decimals -/

theorem scaledTen_spec (num : Nat) {den : Nat} (hden : 0 < den) (power : Int) :
    0 < (scaledTen num den power).2 ∧
      ((scaledTen num den power).1 : ℚ) / (scaledTen num den power).2 = (num : ℚ) / den /
        10 ^ power := by
  unfold scaledTen
  split
  · rename_i h
    refine ⟨Nat.mul_pos hden (Nat.pow_pos (by omega)), ?_⟩
    rw [zpow_of_nonneg 10 h]
    push_cast [Nat.pow_eq]
    field_simp
  · rename_i h
    refine ⟨hden, ?_⟩
    rw [zpow_of_neg 10 (Int.not_le.mp h)]
    push_cast [Nat.pow_eq]
    field_simp

theorem toDigits_spec {n : Nat} (h : 0 < n) :
    (10 : ℚ) ^ (((Nat.toDigits 10 n).length : Int) - 1) ≤ n ∧
      (n : ℚ) < 10 ^ ((Nat.toDigits 10 n).length : Int) := by
  have hpos : 0 < (Nat.toDigits 10 n).length := Nat.length_toDigits_pos
  constructor
  · have hcast :
        ((Nat.toDigits 10 n).length : Int) - 1 =
          (((Nat.toDigits 10 n).length - 1 : Nat) : Int) := by omega
    rw [hcast, zpow_natCast]
    exact_mod_cast Decimal.pow_length_le h
  · rw [zpow_natCast]
    exact_mod_cast Decimal.lt_pow_length n

theorem decimalSize_spec {num den : Nat} (hnum : 0 < num) (hden : 0 < den) :
    (10 : ℚ) ^ (decimalSize num den - 1) ≤ (num : ℚ) / den ∧
      (num : ℚ) / den < 10 ^ decimalSize num den := by
  obtain ⟨hnumlow, hnumhigh⟩ := toDigits_spec hnum
  obtain ⟨hdenlow, hdenhigh⟩ := toDigits_spec hden
  have hdenpos : (0 : ℚ) < den := by exact_mod_cast hden
  obtain ⟨guess, hguess⟩ :
      ∃ g : Int, g = ((Nat.toDigits 10 num).length : Int) - (Nat.toDigits 10 den).length := ⟨_, rfl⟩
  have hlow : (10 : ℚ) ^ (guess - 1) ≤ (num : ℚ) / den := by
    rw [le_div_iff₀ hdenpos]
    calc (10 : ℚ) ^ (guess - 1) * den ≤ 10 ^ (guess - 1) *
      10 ^ ((Nat.toDigits 10 den).length : Int) := by gcongr
      _ = 10 ^ (((Nat.toDigits 10 num).length : Int) - 1) := by
          rw [← zpow_add₀ (by norm_num)]
          congr 1
          omega
      _ ≤ num := hnumlow
  have hhigh : (num : ℚ) / den < 10 ^ (guess + 1) := by
    rw [div_lt_iff₀ hdenpos]
    calc (num : ℚ) < 10 ^ ((Nat.toDigits 10 num).length : Int) := hnumhigh
      _ = 10 ^ (guess + 1) * 10 ^ (((Nat.toDigits 10 den).length : Int) - 1) := by
          rw [← zpow_add₀ (by norm_num)]
          congr 1
          omega
      _ ≤ 10 ^ (guess + 1) * den := by gcongr
  obtain ⟨hpos, hratio⟩ := scaledTen_spec num hden guess
  have hless : (scaledTen num den guess).1 < (scaledTen num den guess).2 ↔
      (num : ℚ) / den < 10 ^ guess := by
    rw [← div_lt_one (show (0 : ℚ) < 10 ^ guess by positivity), ← hratio,
      div_lt_one (by exact_mod_cast hpos)]
    exact_mod_cast Iff.rfl
  have hsize : decimalSize num den =
      if (scaledTen num den guess).1 < (scaledTen num den guess).2 then guess else guess + 1 := by
    rw [hguess]
    rfl
  rw [hsize]
  by_cases h : (num : ℚ) / den < 10 ^ guess
  · rw [if_pos (hless.mpr h)]
    exact ⟨hlow, h⟩
  · rw [if_neg (mt hless.mp h), add_sub_cancel_right]
    exact ⟨not_lt.mp h, hhigh⟩

/-- A decimal that is not far out of range is read as any quotient of its value. -/
theorem ofDecimal_eq_ofQuotient (negative : Bool) {digits : Nat} {power : Int}
    (hdigits : 0 < digits) (hlow : -400 ≤ ((Nat.toDigits 10 digits).length : Int) + power)
    (hhigh : ((Nat.toDigits 10 digits).length : Int) + power ≤ 400) :
    ofDecimal negative digits power =
      ofQuotient negative (scaledTen digits 1 (-power)).1 (scaledTen digits 1 (-power)).2 := by
  have hform : ofDecimal negative digits power =
      if 0 ≤ power then ofQuotient negative (digits * Nat.pow 10 power.natAbs) 1
      else ofQuotient negative digits (Nat.pow 10 power.natAbs) := by
    unfold ofDecimal
    rw [if_neg hdigits.ne']
    dsimp only
    rw [if_neg (by omega), if_neg (by omega)]
  obtain ⟨hpos, hratio⟩ := scaledTen_spec digits Nat.one_pos (-power)
  rw [hform]
  split
  · rename_i h
    refine ofQuotient_congr negative Nat.one_pos hpos ?_
    rw [hratio, zpow_neg, zpow_of_nonneg 10 h]
    push_cast [Nat.pow_eq]
    field_simp
  · rename_i h
    refine ofQuotient_congr negative (Nat.pow_pos (by omega)) hpos ?_
    rw [hratio, zpow_neg, zpow_of_neg 10 (Int.not_le.mp h)]
    push_cast [Nat.pow_eq]
    field_simp

theorem ofDecimal_mul_pow (negative : Bool) (digits k : Nat) (power : Int) :
    ofDecimal negative (digits * 10 ^ k) (power - k) = ofDecimal negative digits power := by
  rcases Nat.eq_zero_or_pos digits with hzero | hpos
  · rw [hzero, Nat.zero_mul]
    rfl
  · have hprod : 0 < digits * 10 ^ k := Nat.mul_pos hpos (Nat.pow_pos (by omega))
    have hlength : ((Nat.toDigits 10 (digits * 10 ^ k)).length : Int) + (power - k) =
        ((Nat.toDigits 10 digits).length : Int) + power := by
      rw [Decimal.length_toDigits_mul_pow hpos]
      push_cast
      omega
    by_cases hrange : -400 ≤ ((Nat.toDigits 10 digits).length : Int) + power ∧
        ((Nat.toDigits 10 digits).length : Int) + power ≤ 400
    · rw [ofDecimal_eq_ofQuotient negative hprod (by omega) (by omega),
        ofDecimal_eq_ofQuotient negative hpos hrange.1 hrange.2]
      obtain ⟨hleft, hleftratio⟩ := scaledTen_spec (digits * 10 ^ k) Nat.one_pos (-(power - k))
      obtain ⟨hright, hrightratio⟩ := scaledTen_spec digits Nat.one_pos (-power)
      apply ofQuotient_congr negative hleft hright
      have hsplit : -(power - (k : Int)) = -power + k := by omega
      rw [hleftratio, hrightratio, hsplit, zpow_add₀ (by norm_num), zpow_natCast]
      push_cast
      field_simp
    · unfold ofDecimal
      rw [if_neg hprod.ne', if_neg hpos.ne']
      dsimp only
      rw [hlength]
      grind

theorem ofDecimal_sign {digits m : Nat} {power e : Int}
    (h : ofDecimal false digits power = finite false m e) (negative : Bool) :
    ofDecimal negative digits power = finite negative m e := by
  unfold ofDecimal at h ⊢
  have := @ofQuotient_sign
  grind

/-! ## The fewest digits -/

theorem quotient_spec (m : Nat) (e : Int) :
    0 < (quotient m e).2 ∧ ((quotient m e).1 : ℚ) / (quotient m e).2 = m * 2 ^ e := by
  unfold quotient
  split
  · rename_i h
    refine ⟨Nat.pow_pos (by omega), ?_⟩
    rw [zpow_of_neg 2 h]
    push_cast [Nat.pow_eq]
    rfl
  · rename_i h
    refine ⟨Nat.one_pos, ?_⟩
    rw [zpow_of_nonneg 2 (Int.not_lt.mp h)]
    push_cast [Nat.pow_eq]
    rw [div_one]

theorem head?_around (n d : Nat) : (around n d).head? = some (roundDiv n d) := by
  unfold around roundDiv
  grind

theorem pow_ten_lt_least : (10 : ℚ) ^ (-324 : Int) < 2 ^ (-1074 : Int) := by
  have hnat : 2 ^ 1074 < 10 ^ 324 := by decide +kernel
  have hrat : (2 : ℚ) ^ 1074 < 10 ^ 324 := by exact_mod_cast hnat
  rw [zpow_neg, zpow_neg]
  exact inv_strictAnti₀ (by positivity) hrat

theorem greatest_lt_pow_ten : (2 : ℚ) ^ 53 * 2 ^ (971 : Int) < 10 ^ (309 : Int) := by
  have hnat : 2 ^ 53 * 2 ^ 971 < 10 ^ 309 := by decide +kernel
  exact_mod_cast hnat

theorem decimalSize_canonical {m : Nat} {e : Int} (hm : IsCanonical m e) :
    -324 < decimalSize (quotient m e).1 (quotient m e).2 ∧
      decimalSize (quotient m e).1 (quotient m e).2 ≤ 309 ∧
      (10 : ℚ) ^ (decimalSize (quotient m e).1 (quotient m e).2 - 1) ≤ m * 2 ^ e ∧
      (m : ℚ) * 2 ^ e < 10 ^ decimalSize (quotient m e).1 (quotient m e).2 := by
  obtain ⟨hden, hvalue⟩ := quotient_spec m e
  have hmpos : (1 : ℚ) ≤ m := by exact_mod_cast hm.pos
  have hmlt : (m : ℚ) < 2 ^ 53 := by exact_mod_cast hm.lt
  have hpow : (0 : ℚ) < 2 ^ e := by positivity
  have hnum : 0 < (quotient m e).1 := by
    rcases Nat.eq_zero_or_pos (quotient m e).1 with hzero | hpos
    · rw [hzero, Nat.cast_zero, zero_div] at hvalue
      nlinarith
    · exact hpos
  obtain ⟨hlow, hhigh⟩ := decimalSize_spec hnum hden
  rw [hvalue] at hlow hhigh
  generalize decimalSize (quotient m e).1 (quotient m e).2 = k at *
  refine ⟨?_, ?_, hlow, hhigh⟩
  · have hsmall : (10 : ℚ) ^ (-324 : Int) < 10 ^ k :=
      calc (10 : ℚ) ^ (-324 : Int) < 2 ^ (-1074 : Int) := pow_ten_lt_least
        _ ≤ 2 ^ e := zpow_le_zpow_right₀ (by norm_num) hm.least
        _ ≤ m * 2 ^ e := le_mul_of_one_le_left hpow.le hmpos
        _ < 10 ^ k := hhigh
    exact (zpow_lt_zpow_iff_right₀ (by norm_num)).mp hsmall
  · have hlarge : (10 : ℚ) ^ (k - 1) < 10 ^ (309 : Int) :=
      calc (10 : ℚ) ^ (k - 1) ≤ m * 2 ^ e := hlow
        _ < 2 ^ 53 * 2 ^ e := by gcongr
        _ ≤ 2 ^ 53 * 2 ^ (971 : Int) := by
            gcongr
            · norm_num
            · exact hm.greatest
        _ < 10 ^ (309 : Int) := greatest_lt_pow_ten
    have := (zpow_lt_zpow_iff_right₀ (by norm_num)).mp hlarge
    omega

/-- In units of the seventeenth place a number has seventeen digits before the point. -/
theorem seventeen_digits {m : Nat} {e : Int} (hm : IsCanonical m e) {power : Int}
    (hpower : power = decimalSize (quotient m e).1 (quotient m e).2 - 17) :
    (10 : ℚ) ^ 16 ≤ m * 2 ^ e / 10 ^ power ∧ (m : ℚ) * 2 ^ e / 10 ^ power < 10 ^ 17 := by
  obtain ⟨-, -, hlow, hhigh⟩ := decimalSize_canonical hm
  obtain ⟨size, hsize⟩ : ∃ k, k = decimalSize (quotient m e).1 (quotient m e).2 := ⟨_, rfl⟩
  rw [← hsize] at hpower hlow hhigh
  have hten : (0 : ℚ) < 10 ^ power := by positivity
  have hunit (k : Nat) : (10 : ℚ) ^ k * 10 ^ power = 10 ^ (k + power) := by
    rw [← zpow_natCast, ← zpow_add₀ (by norm_num)]
  constructor
  · rw [le_div_iff₀ hten, hunit, show ((16 : Nat) : Int) + power = size - 1 by omega]
    exact hlow
  · rw [div_lt_iff₀ hten, hunit, show ((17 : Nat) : Int) + power = size by omega]
    exact hhigh

/-- Half a digit in the seventeenth place is little, in units of the last place of a number. -/
theorem near_in_last_place {m c : Nat} {e power : Int}
    (hdigits : (10 : ℚ) ^ 16 ≤ m * 2 ^ e / 10 ^ power)
    (hc : |(c : ℚ) - m * 2 ^ e / 10 ^ power| ≤ 1 / 2) :
    |(c : ℚ) * 10 ^ power / 2 ^ e - m| ≤ m / (2 * 10 ^ 16) := by
  have hten : (0 : ℚ) < 10 ^ power := by positivity
  have hpow : (0 : ℚ) < 2 ^ e := by positivity
  have hfactor :
      (c : ℚ) * 10 ^ power / 2 ^ e - m = (c - m * 2 ^ e / 10 ^ power) * (10 ^ power / 2 ^ e) := by
    field_simp
  have hunit : (10 : ℚ) ^ power / 2 ^ e ≤ m / 10 ^ 16 := by
    rw [le_div_iff₀ hten] at hdigits
    rw [div_le_div_iff₀ hpow (by norm_num)]
    linarith
  rw [hfactor, abs_mul, abs_of_pos (div_pos hten hpow)]
  calc |(c : ℚ) - m * 2 ^ e / 10 ^ power| * (10 ^ power / 2 ^ e)
    _ ≤ 1 / 2 * (m / 10 ^ 16) := by gcongr
    _ = m / (2 * 10 ^ 16) := by ring

/-- A decimal of seventeen digits that is at most half a digit away from a number is read as it. -/
theorem ofDecimal_near {m : Nat} {e : Int} (hm : IsCanonical m e) {power : Int} {c : Nat}
    (hpower : power = decimalSize (quotient m e).1 (quotient m e).2 - 17)
    (hc : |(c : ℚ) - m * 2 ^ e / 10 ^ power| ≤ 1 / 2) :
    ofDecimal false c power = finite false m e := by
  obtain ⟨hleast, hgreatest, -, -⟩ := decimalSize_canonical hm
  obtain ⟨hatleast, hbelow⟩ := seventeen_digits hm hpower
  have hdistance := near_in_last_place hatleast hc
  obtain ⟨hclow, hchigh⟩ := abs_le.mp hc
  -- The digits number seventeen or, after rounding up, eighteen.
  have hcmin : 10 ^ 15 ≤ c := by
    have : (10 : ℚ) ^ 15 ≤ c := by linarith
    exact_mod_cast this
  have hcmax : c < 10 ^ 18 := by
    have : (c : ℚ) < 10 ^ 18 := by linarith
    exact_mod_cast this
  have hlengthmax : (Nat.toDigits 10 c).length ≤ 18 :=
    (Nat.length_toDigits_le_iff (by omega) (by omega)).mpr hcmax
  rw [ofDecimal_eq_ofQuotient false (by omega) (by omega) (by omega)]
  obtain ⟨hpos, hratio⟩ := scaledTen_spec c Nat.one_pos (-power)
  have hquotient : ((scaledTen c 1 (-power)).1 : ℚ) / (scaledTen c 1 (-power)).2 / 2 ^ e =
      c * 10 ^ power / 2 ^ e := by
    rw [hratio, zpow_neg]
    push_cast
    field_simp
  -- The numbers next to this one are farther away.
  apply ofQuotient_near hpos false hm
  · rw [hquotient]
    have hmlt : (m : ℚ) < 2 ^ 53 := by exact_mod_cast hm.lt
    have hhalf : (m : ℚ) / (2 * 10 ^ 16) < 1 / 2 := by
      rw [div_lt_iff₀ (by norm_num)]
      linarith
    linarith
  · intro hmeq
    rw [hquotient]
    have hmeq' : (m : ℚ) = 2 ^ 52 := by exact_mod_cast hmeq
    have := (abs_le.mp hdistance).1
    rw [hmeq'] at this
    linarith

theorem ofDecimal_of_mem_neighbours {m : Nat} {e : Int} {count : Nat} {c : Nat × Int}
    (h : c ∈ neighbours m e count) :
    ofDecimal false c.1 c.2 = finite false m e := by
  have hkept := (List.mem_filter.mp h).2
  exact eq_of_beq hkept

theorem neighbours_seventeen {m : Nat} {e : Int} (hm : IsCanonical m e) :
    (neighbours m e 17).head?.isSome = true := by
  obtain ⟨hden, hvalue⟩ := quotient_spec m e
  obtain ⟨power, hpower⟩ : ∃ p, p = decimalSize (quotient m e).1 (quotient m e).2 - 17 := ⟨_, rfl⟩
  obtain ⟨hpos, hratio⟩ := scaledTen_spec (quotient m e).1 hden power
  have hc := roundDiv_near (scaledTen (quotient m e).1 (quotient m e).2 power).1 hpos
  rw [hratio, hvalue] at hc
  have hread := ofDecimal_near hm hpower hc
  have hform : neighbours m e 17 =
      ((around (scaledTen (quotient m e).1 (quotient m e).2 power).1
          (scaledTen (quotient m e).1 (quotient m e).2 power).2).map fun digits =>
        (digits, power)).filter fun c => ofDecimal false c.1 c.2 == finite false m e := by
    rw [hpower]
    rfl
  obtain ⟨others, haround⟩ := List.head?_eq_some_iff.mp (head?_around
    (scaledTen (quotient m e).1 (quotient m e).2 power).1
      (scaledTen (quotient m e).1 (quotient m e).2 power).2)
  rw [hform, haround, List.map_cons,
    List.filter_cons_of_pos (by rw [hread]; exact beq_self_eq_true _)]
  rfl

theorem ofDecimal_dropZeros (fuel : Nat) (c : Nat × Int) :
    ofDecimal false (dropZeros fuel c).1 (dropZeros fuel c).2 = ofDecimal false c.1 c.2 := by
  induction fuel generalizing c with
  | zero => rfl
  | succ fuel ih =>
      obtain ⟨digits, power⟩ := c
      unfold dropZeros
      split
      · rename_i h
        have hdigits : digits / 10 * 10 ^ 1 = digits := by omega
        have hstep := ofDecimal_mul_pow false (digits / 10) 1 (power + 1)
        have hpower : power + 1 - (1 : Nat) = power := by omega
        rw [hdigits, hpower] at hstep
        rw [ih]
        exact hstep.symm
      · rfl

/-- The shortest decimal of a positive number reads back as it. -/
theorem ofDecimal_shortest {m : Nat} {e : Int} (hm : IsCanonical m e) (negative : Bool) :
    ofDecimal negative (shortest m e).1 (shortest m e).2 = finite negative m e := by
  apply ofDecimal_sign
  have hsome :
      ((List.range 17).findSome? fun i => (neighbours m e (i + 1)).head?).isSome = true := by
    rw [List.findSome?_isSome_iff]
    exact ⟨16, by simp, neighbours_seventeen hm⟩
  obtain ⟨c, hc⟩ := Option.isSome_iff_exists.mp hsome
  obtain ⟨i, -, hi⟩ := List.exists_of_findSome?_eq_some hc
  unfold shortest
  rw [ofDecimal_dropZeros, hc]
  exact ofDecimal_of_mem_neighbours (List.mem_of_head? hi)

theorem shortest_pos {m : Nat} {e : Int} (hm : IsCanonical m e) : 0 < (shortest m e).1 := by
  apply Nat.pos_of_ne_zero
  intro hzero
  have hread := ofDecimal_shortest hm false
  rw [hzero] at hread
  have hm0 : 0 = m := (finite.inj hread).2.1
  exact hm.pos.ne hm0

end ImportAudit.Double
