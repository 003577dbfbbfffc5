import ImportAudit.Proofs.Text.Blank
import ImportAudit.Proofs.Text.Lower
import ImportAudit.Proofs.Yaml.Plain
import ImportAudit.Yaml.Read
import Mathlib.Tactic.IntervalCases

/-!
# Numbers in YAML

A number is written so that its text, without quotes, stands for a number, and for the same one.
-/

namespace ImportAudit

namespace Decimal

theorem asciiDigits_eq_self {cs : List Char} (h : ∀ c ∈ cs, c.toNat < 0x80) :
    asciiDigits cs = cs := by
  induction cs with
  | nil => rfl
  | cons c cs ih =>
      have hc : c.toNat < 0x80 := h c List.mem_cons_self
      have hrest := ih fun d hd => h d (List.mem_cons_of_mem c hd)
      have hdigit : Text.digitValue? c = if c.isDigit then some (c.toNat - 0x30) else none := by
        unfold Text.digitValue?
        rw [if_pos hc]
      unfold asciiDigits at hrest ⊢
      rw [List.map_cons, hrest, hdigit]
      congr 1
      by_cases hd : c.isDigit = true
      · have hrange : 48 ≤ c.toNat ∧ c.toNat ≤ 57 := Char.isDigit_iff_toNat.mp hd
        rw [if_pos hd]
        show Char.ofNat (0x30 + (c.toNat - 0x30)) = c
        rw [Nat.add_sub_cancel' hrange.1, Char.ofNat_toNat]
      · rw [if_neg hd]

theorem dropUnderscores_go {cs : List Char} (h : '_' ∉ cs) (afterDigit : Bool) :
    dropUnderscores.go afterDigit cs = some cs := by
  induction cs generalizing afterDigit with
  | nil => rfl
  | cons c cs ih =>
      have hc : c ≠ '_' := fun hc => h (hc ▸ List.mem_cons_self)
      rw [dropUnderscores.go, ih fun hmem => h (List.mem_cons_of_mem c hmem), Option.map_some]
      all_goals
        intros
        contradiction

theorem takeSign_digit {c : Char} (hc : c.isDigit = true) (cs : List Char) :
    takeSign (c :: cs) = (false, c :: cs) := by
  unfold takeSign
  split
  · rename_i h
    cases h
    cases hc
  · rename_i h
    cases h
    cases hc
  · rfl

end Decimal

namespace Json.NumberText

def unsigned (n : NumberText) : List Char := n.whole ++ (n.fractionChars ++ n.exponentChars)

theorem chars_eq (n : NumberText) : n.chars = n.sign ++ n.unsigned := by
  unfold chars unsigned
  simp

def withPoint (n : NumberText) : NumberText :=
  { n with fraction := if n.fraction = [] then ['0'] else n.fraction }

theorem fraction_withPoint_ne_nil {n : NumberText} : n.withPoint.fraction ≠ [] := by
  unfold withPoint
  dsimp only
  split
  · exact List.cons_ne_nil _ _
  · assumption

theorem IsValid.withPoint {n : NumberText} (hn : n.IsValid) : n.withPoint.IsValid := by
  refine ⟨hn.whole, hn.first, ?_, hn.exponent⟩
  unfold NumberText.withPoint
  dsimp only
  split
  · intro c hc
    rw [List.mem_singleton.mp hc]
    rfl
  · exact hn.fraction

def decimal (n : NumberText) : Double :=
  Double.ofDecimal false (Decimal.digitsValue (n.whole ++ n.fraction))
    (n.exponentValue.getD 0 - n.fraction.length)

theorem decimal_withPoint (n : NumberText) : n.withPoint.decimal = n.decimal := by
  unfold decimal NumberText.withPoint
  by_cases hfraction : n.fraction = []
  · have hzero : Decimal.digitsValue (n.whole ++ ['0']) = Decimal.digitsValue n.whole * 10 ^ 1 := by
      rw [Decimal.digitsValue_append]
      rfl
    simp only [hfraction, if_true, List.append_nil, hzero, List.length_singleton, List.length_nil,
      Int.natCast_zero, Int.sub_zero]
    exact Double.ofDecimal_mul_pow false _ 1 _
  · simp only [hfraction, if_false]

end Json.NumberText

namespace Yaml

open Json (NumberText)

/-! ## The characters of numbers -/

def numericChars : List Char := "0123456789-+.e".toList

structure IsNumeric (c : Char) : Prop where
  inline : IsInline c
  low : Text.IsLow c
  notMargin : Decimal.isMargin c = false
  notSpace : c ≠ ' '
  notUnderscore : c ≠ '_'
  notColon : c ≠ ':'
  notNumberSign : c ≠ '#'

theorem isNumeric_of_mem {c : Char} (h : c ∈ numericChars) : IsNumeric c := by
  have hall :
      (numericChars.all fun c => decide (IsInline c ∧ Text.IsLow c ∧ Decimal.isMargin c = false ∧
      c ≠ ' ' ∧ c ≠ '_' ∧ c ≠ ':' ∧ c ≠ '#')) = true := by decide
  obtain ⟨hinline, hlow, hmargin, hspace, hunderscore, hcolon, hsign⟩ :=
    of_decide_eq_true (List.all_eq_true.mp hall c h)
  exact ⟨hinline, hlow, hmargin, hspace, hunderscore, hcolon, hsign⟩

theorem mem_digits {c : Char} (h : c.isDigit = true) : c ∈ "0123456789".toList := by
  have hrange : 48 ≤ c.toNat ∧ c.toNat ≤ 57 := Char.isDigit_iff_toNat.mp h
  obtain ⟨k, hk⟩ : ∃ k, c.toNat = k := ⟨_, rfl⟩
  have hc : c = Char.ofNat k := hk ▸ (Char.ofNat_toNat c).symm
  rw [hk] at hrange
  obtain ⟨hlow, hhigh⟩ := hrange
  subst hc
  clear hk h
  interval_cases k <;> decide

theorem isNumeric_of_isDigit {c : Char} (h : c.isDigit = true) : IsNumeric c :=
  isNumeric_of_mem (List.mem_append_left "-+.e".toList (mem_digits h))

theorem isNumeric_sign {n : NumberText} : ∀ c ∈ n.sign, IsNumeric c := by
  unfold Json.NumberText.sign
  split
  · intro c hc
    rw [List.mem_singleton.mp hc]
    exact isNumeric_of_mem (by decide)
  · exact fun c hc => absurd hc List.not_mem_nil

theorem isNumeric_unsigned {n : NumberText} (hn : n.IsValid) : ∀ c ∈ n.unsigned, IsNumeric c := by
  have hdigits {ds : List Char} (h : ∀ c ∈ ds, c.isDigit = true) : ∀ c ∈ ds, IsNumeric c :=
    fun c hc => isNumeric_of_isDigit (h c hc)
  refine List.forall_mem_append.mpr ⟨hdigits hn.whole, List.forall_mem_append.mpr ⟨?_, ?_⟩⟩
  · unfold Json.NumberText.fractionChars
    split
    · exact fun c hc => absurd hc List.not_mem_nil
    · exact List.forall_mem_cons.mpr ⟨isNumeric_of_mem (by decide), hdigits hn.fraction⟩
  · unfold Json.NumberText.exponentChars
    split
    · exact fun c hc => absurd hc List.not_mem_nil
    · rename_i down ds hexponent
      refine List.forall_mem_cons.mpr ⟨isNumeric_of_mem (by decide),
        List.forall_mem_cons.mpr ⟨?_, ?_⟩⟩
      · cases down <;> exact isNumeric_of_mem (by decide)
      · exact hdigits (hn.exponent _ hexponent).2

theorem isNumeric_chars {n : NumberText} (hn : n.IsValid) : ∀ c ∈ n.chars, IsNumeric c := by
  rw [n.chars_eq]
  exact List.forall_mem_append.mpr ⟨isNumeric_sign, isNumeric_unsigned hn⟩

theorem exists_unsigned {n : NumberText} (hn : n.IsValid) :
    ∃ c cs, n.unsigned = c :: cs ∧ c.isDigit = true := by
  obtain ⟨c, cs, hcs, hc⟩ := hn.exists_digit
  refine ⟨c, cs ++ (n.fractionChars ++ n.exponentChars), ?_, hc⟩
  unfold Json.NumberText.unsigned
  rw [hcs]
  rfl

/-! ## Numbers are plain texts -/

theorem hasPair_eq_false {p q : Char → Bool} {cs : List Char} (h : ∀ c ∈ cs, q c = false) :
    hasPair p q cs = false := by
  induction cs with
  | nil => rfl
  | cons a cs ih =>
      cases cs with
      | nil => rfl
      | cons b cs =>
          rw [hasPair, h b (List.mem_cons_of_mem a List.mem_cons_self), Bool.and_false,
            Bool.false_or]
          exact ih fun c hc => h c (List.mem_cons_of_mem a hc)

theorem hasInnerMark_eq_false {x : Char} {cs : List Char} (h : ∀ c ∈ cs, c ≠ ':' ∧ c ≠ '#') :
    hasInnerMark x cs = false := by
  induction cs generalizing x with
  | nil => rfl
  | cons c cs ih =>
      have hc := h c List.mem_cons_self
      rw [hasInnerMark_cons, ih fun d hd => h d (List.mem_cons_of_mem c hd), Bool.or_false]
      unfold innerMark
      rw [beq_eq_false_iff_ne.mpr hc.1, beq_eq_false_iff_ne.mpr hc.2]
      rfl

theorem traits_word {s : String} {c : Char} {cs : List Char} (hs : s.toList = c :: cs)
    (hword : ∀ d ∈ c :: cs, IsInline d ∧ d ≠ ' ') (hopens : opensMark c (endsNext cs) = false)
    (hinner : hasInnerMark c cs = false)
    (hseparator : (["---".toList, "...".toList].any fun m => m.isPrefixOf (c :: cs)) = false) :
    (traits s).plain = true := by
  have hspace : ∀ d ∈ c :: cs, (d == ' ') = false :=
    fun d hd => beq_eq_false_iff_ne.mpr (hword d hd).2
  have hbreak : ∀ d ∈ c :: cs, isWrittenBreak d = false := fun d hd => by
    have hinline := (hword d hd).1
    rw [isWrittenBreak_eq (.inr hinline), beq_eq_false_iff_ne]
    rintro rfl
    exact absurd hinline (by decide)
  have hlast : (c :: cs).getLast?.getD ' ' ∈ c :: cs := by
    rw [List.getLast?_eq_some_getLast (List.cons_ne_nil c cs)]
    exact List.getLast_mem _
  have hbreaks : (c :: cs).any isWrittenBreak = false := List.any_eq_false.mpr fun d hd => by
    simp [hbreak d hd]
  have hspecial : (c :: cs).any isSpecial = false := List.any_eq_false.mpr fun d hd => by
    simp [isSpecial_eq_false_iff.mpr (.inr (hword d hd).1)]
  rw [traits_plain_eq hs, hspace c List.mem_cons_self, hbreak c List.mem_cons_self, hspace _ hlast,
    hbreak _ hlast, hasPair_eq_false hspace, hasPair_eq_false hbreak, hspecial, hbreaks, hseparator,
    hopens, hinner]
  rfl

theorem chars_cases {n : NumberText} (hn : n.IsValid) :
    ∃ c cs, n.chars = c :: cs ∧
      (c.isDigit = true ∨ c = '-' ∧ ∃ d ds, cs = d :: ds ∧ d.isDigit = true) := by
  obtain ⟨d, ds, hds, hd⟩ := exists_unsigned hn
  rw [n.chars_eq, hds]
  unfold Json.NumberText.sign
  split
  · exact ⟨'-', d :: ds, rfl, .inr ⟨rfl, d, ds, rfl, hd⟩⟩
  · exact ⟨d, ds, rfl, .inl hd⟩

theorem opensMark_digit {c : Char} (h : c.isDigit = true) (alone : Bool) :
    opensMark c alone = false := by
  have hall : ("0123456789".toList.all fun c => !opensMark c true) = true := by decide
  have hc := List.all_eq_true.mp hall c (mem_digits h)
  unfold opensMark at hc ⊢
  cases alone
  · simp_all
  · simpa using hc

theorem traits_number {n : NumberText} (hn : n.IsValid) {s : String} (hs : s.toList = n.chars) :
    (traits s).plain = true := by
  obtain ⟨c, cs, hcs, hstart⟩ := chars_cases hn
  have hnumeric := isNumeric_chars hn
  rw [hcs] at hs hnumeric
  have hinner : hasInnerMark c cs = false := hasInnerMark_eq_false fun d hd =>
    have hd' := hnumeric d (List.mem_cons_of_mem c hd)
    ⟨hd'.notColon, hd'.notNumberSign⟩
  have hne {d : Char} (hd : d.isDigit = true) : ('-' == d) = false ∧ ('.' == d) = false := by
    constructor <;> rw [beq_eq_false_iff_ne] <;> rintro rfl <;> cases hd
  refine traits_word hs
    (fun d hd => ⟨(hnumeric d hd).inline, (hnumeric d hd).notSpace⟩) ?_ hinner ?_
  · rcases hstart with hc | ⟨rfl, d, ds, rfl, hd⟩
    · exact opensMark_digit hc _
    · have hends : endsNext (d :: ds) = false := by
        have hd' := isNumeric_of_isDigit hd
        show endsWord d = false
        rw [hd'.inline.endsWord, beq_eq_false_iff_ne]
        exact hd'.notSpace
      rw [hends]
      decide
  · rcases hstart with hc | ⟨rfl, d, ds, rfl, hd⟩
    · simp [List.isPrefixOf, hne hc]
    · simp [List.isPrefixOf, hne hd]

/-! ## What numbers stand for -/

namespace Scalar

theorem isBool_number {n : NumberText} (hn : n.IsValid) {s : String} (hs : s.toList = n.chars) :
    isBool s = false := by
  obtain ⟨c, cs, hcs, hstart⟩ := chars_cases hn
  rw [hcs] at hs
  have hletter (d : Char) (hd : d.isDigit = false ∧ d ≠ '-') : d ≠ c := by
    rintro rfl
    rcases hstart with hc | ⟨hc, -⟩
    · rw [hd.1] at hc
      cases hc
    · exact hd.2 hc
  unfold isBool
  rw [Bool.eq_false_iff]
  intro h
  simp only [List.contains_iff_mem, List.mem_cons, List.not_mem_nil, or_false] at h
  rcases h with rfl | rfl | rfl | rfl | rfl | rfl | rfl | rfl | rfl | rfl | rfl | rfl | rfl | rfl |
    rfl | rfl | rfl | rfl <;>
    exact hletter _ (by decide) (List.cons.inj hs).1

theorem dropSign_chars {n : NumberText} (hn : n.IsValid) : dropSign n.chars = n.unsigned := by
  obtain ⟨c, cs, hcs, hc⟩ := exists_unsigned hn
  rw [n.chars_eq, hcs]
  unfold Json.NumberText.sign
  split
  · rfl
  · show dropSign (c :: cs) = _
    unfold dropSign
    split
    · rename_i h
      cases h
      cases hc
    · rename_i h
      cases h
      cases hc
    · rfl

theorem dropWhile_digits {ds rest : List Char} (hds : ∀ c ∈ ds, c.isDigit = true)
    (hrest : ∀ c ∈ rest.head?, isDigitOrUnderscore c = false) :
    (ds ++ rest).dropWhile isDigitOrUnderscore = rest := by
  rw [List.dropWhile_append_of_pos fun c hc => by unfold isDigitOrUnderscore; rw [hds c hc]; rfl]
  cases rest with
  | nil => rfl
  | cons c rest => rw [List.dropWhile_cons_of_neg (by simp [hrest c rfl])]

theorem isExponent_chars {n : NumberText} (hn : n.IsValid) : isExponent n.exponentChars = true := by
  unfold Json.NumberText.exponentChars
  split
  · rfl
  · rename_i down ds hexponent
    obtain ⟨hne, hdigits⟩ := hn.exponent _ hexponent
    have hall : ds.all Char.isDigit = true := List.all_eq_true.mpr hdigits
    have hempty : ds.isEmpty = false := by simpa using hne
    unfold isExponent
    dsimp only
    rw [hall, hempty]
    cases down <;> rfl

theorem head?_exponentChars {n : NumberText} :
    ∀ c ∈ n.exponentChars.head?, isDigitOrUnderscore c = false := by
  unfold Json.NumberText.exponentChars
  split
  · exact fun c hc => absurd hc (Option.not_mem_none _)
  · rintro _ ⟨⟩
    decide

theorem isFloat_chars {n : NumberText} (hn : n.IsValid) (hfraction : n.fraction ≠ []) {s : String}
    (hs : s.toList = n.chars) :
    isFloat s = true := by
  obtain ⟨c, cs, hcs, hc⟩ := exists_unsigned hn
  have hpoint :
      n.unsigned.dropWhile isDigitOrUnderscore = '.' :: (n.fraction ++ n.exponentChars) := by
    unfold Json.NumberText.unsigned Json.NumberText.fractionChars
    rw [if_neg hfraction]
    refine dropWhile_digits hn.whole ?_
    rintro _ ⟨⟩
    decide
  unfold isFloat
  dsimp only
  rw [hs, dropSign_chars hn, hpoint, hcs]
  simp only [hc, dropWhile_digits hn.fraction head?_exponentChars, isExponent_chars hn,
    Bool.true_and, Bool.true_or]

theorem implicitTag_float {n : NumberText} (hn : n.IsValid)
    (hfraction : n.fraction ≠ []) {s : String} (hs : s.toList = n.chars) :
    implicitTag s = standard "float" := by
  unfold implicitTag
  rw [isBool_number hn hs, isFloat_chars hn hfraction hs]
  rfl

/-! ### Whole numbers -/

theorem contains_eq_false {names : List String} {t : String} {x : Char}
    (hnames : (names.all fun s => s.toList.head? == some x) = true) (ht : t.toList.head? ≠ some x) :
    names.contains t = false := by
  rw [Bool.eq_false_iff]
  intro h
  exact ht (eq_of_beq (List.all_eq_true.mp hnames t (List.contains_iff_mem.mp h)))

theorem isFloat_whole {n : NumberText} (hn : n.IsValid) (hwhole : n.unsigned = n.whole) {s : String}
    (hs : s.toList = n.chars) :
    isFloat s = false := by
  obtain ⟨c, cs, hcs, hc⟩ := exists_unsigned hn
  obtain ⟨d, ds, hds, hstart⟩ := chars_cases hn
  have hpoint : n.unsigned.dropWhile isDigitOrUnderscore = [] := by
    rw [hwhole, ← List.append_nil n.whole]
    exact dropWhile_digits hn.whole fun c hc => absurd hc (Option.not_mem_none _)
  have hsixties : afterSixties n.unsigned = some [] := by
    unfold afterSixties
    dsimp only
    rw [hpoint, List.length_nil, sixties]
  have hdot : d ≠ '.' ∧ c ≠ '.' := by
    constructor
    · rintro rfl
      rcases hstart with h | ⟨h, -⟩ <;> cases h
    · rintro rfl
      cases hc
  have hinf : [".inf", ".Inf", ".INF"].contains (String.ofList (c :: cs)) = false := by
    refine contains_eq_false (x := '.') (by decide) ?_
    rw [String.toList_ofList]
    exact mt Option.some.inj hdot.2
  have hnan : [".nan", ".NaN", ".NAN"].contains s = false := by
    refine contains_eq_false (x := '.') (by decide) ?_
    rw [hs, hds]
    exact mt Option.some.inj hdot.1
  unfold isFloat
  dsimp only
  rw [hs, dropSign_chars hn, hpoint, hsixties, hcs, hinf, hnan, hds]
  simp only [hc, Bool.true_and, Bool.or_false, Bool.false_or]
  split
  · rename_i h
    exact absurd (List.cons.inj h).1 hdot.1
  · rfl

theorem isInt_whole {n : NumberText} (hn : n.IsValid) (hwhole : n.unsigned = n.whole) {s : String}
    (hs : s.toList = n.chars) :
    isInt s = true := by
  unfold isInt
  dsimp only
  rw [hs, dropSign_chars hn, hwhole]
  rcases hn.first with hzero | ⟨c, cs, hcs, hc⟩
  · rw [hzero]
    rfl
  · have hdigits := hn.whole
    rw [hcs] at hdigits ⊢
    have hfirst : c.isDigit = true := hdigits c List.mem_cons_self
    have hrest : cs.all isDigitOrUnderscore = true := List.all_eq_true.mpr fun d hd => by
      unfold isDigitOrUnderscore
      rw [hdigits d (List.mem_cons_of_mem c hd)]
      rfl
    split
    · rfl
    · rename_i h
      exact absurd (List.cons.inj h).1 hc
    · rename_i h
      exact absurd (List.cons.inj h).1 hc
    · rename_i h
      exact absurd (List.cons.inj h).1 hc
    · rename_i h
      cases h
      rw [hfirst, hrest]
      rfl
    · rename_i h
      cases h

theorem implicitTag_int {n : NumberText} (hn : n.IsValid)
    (hwhole : n.unsigned = n.whole) {s : String} (hs : s.toList = n.chars) :
    implicitTag s = standard "int" := by
  unfold implicitTag
  rw [isBool_number hn hs, isFloat_whole hn hwhole hs, isInt_whole hn hwhole hs]
  rfl

/-! ### Values -/

theorem withoutUnderscores_number {n : NumberText} (hn : n.IsValid) {s : String}
    (hs : s.toList = n.chars) :
    withoutUnderscores s = s := by
  unfold withoutUnderscores
  rw [List.filter_eq_self.mpr, String.ofList_toList]
  intro c hc
  rw [hs] at hc
  simpa using (isNumeric_chars hn c hc).notUnderscore

theorem lower_number {n : NumberText} (hn : n.IsValid) {s : String} (hs : s.toList = n.chars) :
    Text.lower s = s := by
  unfold Text.lower
  rw [Text.lowerFrom_eq_self, String.ofList_toList]
  intro c hc
  rw [hs] at hc
  exact (isNumeric_chars hn c hc).low

theorem splitSign_number {n : NumberText} (hn : n.IsValid) {s : String} (hs : s.toList = n.chars) :
    splitSign s = .ok (n.negative, String.ofList n.unsigned) := by
  obtain ⟨c, cs, hcs, hc⟩ := exists_unsigned hn
  have hsplit := n.chars_eq
  unfold splitSign
  rw [hs, hsplit]
  unfold Json.NumberText.sign
  by_cases hnegative : n.negative = true
  · rw [if_pos hnegative, hnegative]
    rfl
  · have hs' : s = String.ofList n.unsigned := by
      rw [← String.ofList_toList (s := s), hs, hsplit]
      unfold Json.NumberText.sign
      rw [if_neg hnegative]
      rfl
    rw [if_neg hnegative, Bool.eq_false_iff.mpr hnegative, List.nil_append, hs', hcs]
    split
    · rename_i h
      cases h
    · rename_i h
      cases h
      cases hc
    · rename_i h
      cases h
      cases hc
    · rfl

theorem read_unsigned {n : NumberText} (hn : n.IsValid) :
    Decimal.dropUnderscores
      (Decimal.asciiDigits (Text.trimList Decimal.isMargin (String.ofList n.unsigned).toList)) =
      some n.unsigned := by
  have hnumeric := isNumeric_unsigned hn
  have hfree : Text.FreeEnds Decimal.isMargin n.unsigned :=
    ⟨fun c hc => (hnumeric c (List.mem_of_mem_head? hc)).notMargin, fun c hc =>
      (hnumeric c (List.mem_of_getLast? hc)).notMargin⟩
  have hascii : ∀ c ∈ n.unsigned, c.toNat < 0x80 := fun c hc => by
    have := (hnumeric c hc).inline.2
    omega
  rw [String.toList_ofList, Text.trimList_of_freeEnds hfree, Decimal.asciiDigits_eq_self hascii]
  exact Decimal.dropUnderscores_go (fun h => (hnumeric '_' h).notUnderscore rfl) false

theorem notMem_colon {n : NumberText} (hn : n.IsValid) : n.unsigned.contains ':' = false := by
  rw [Bool.eq_false_iff]
  exact fun h => (isNumeric_unsigned hn ':' (List.contains_iff_mem.mp h)).notColon rfl

theorem readInt_unsigned {n : NumberText} (hn : n.IsValid) (hwhole : n.unsigned = n.whole)
    (hlength : n.whole.length ≤ Decimal.maxDigits) :
    Decimal.readInt (String.ofList n.unsigned) = some (Decimal.digitsValue n.whole : Int) := by
  obtain ⟨c, cs, hcs, hc⟩ := exists_unsigned hn
  have hempty : n.whole.isEmpty = false := by
    rw [← hwhole, hcs]
    rfl
  have hdigits : n.whole.all Char.isDigit = true := List.all_eq_true.mpr hn.whole
  unfold Decimal.readInt
  dsimp only
  rw [read_unsigned hn, Option.bind_some, hcs, Decimal.takeSign_digit hc, ← hcs, hwhole]
  dsimp only
  rw [hempty, hdigits, decide_eq_false (Nat.not_lt.mpr hlength)]
  rfl

theorem int_number {n : NumberText} (hn : n.IsValid) (hwhole : n.unsigned = n.whole)
    (hlength : n.whole.length ≤ Decimal.maxDigits) {s : String} (hs : s.toList = n.chars) :
    int s = .ok (if n.negative then -(Decimal.digitsValue n.whole : Int)
      else Decimal.digitsValue n.whole) := by
  have hdecimal : decimal (String.ofList n.unsigned) = .ok (Decimal.digitsValue n.whole : Int) := by
    unfold decimal
    rw [readInt_unsigned hn hwhole hlength]
  have hcolon := notMem_colon hn
  unfold int
  rw [withoutUnderscores_number hn hs, splitSign_number hn hs]
  dsimp only [bind, Except.bind]
  rw [String.toList_ofList]
  rcases hn.first with hzero | ⟨c, cs, hcs, hc⟩
  · rw [hwhole, hzero]
    rfl
  · have hunsigned : n.unsigned = c :: cs := hwhole.trans hcs
    rw [hunsigned] at hdecimal hcolon ⊢
    split
    · rename_i h
      exact absurd (List.cons.inj h).1 hc
    · rename_i h
      exact absurd (List.cons.inj h).1 hc
    · rename_i h
      exact absurd (List.cons.inj h).1 hc
    · rename_i h
      exact absurd (List.cons.inj h).1 hc
    · rename_i h
      cases h
    · rw [hcolon, if_neg Bool.false_ne_true, hdecimal]
      rfl

theorem value_int {k : Int} (hk : Value.isLong (.int k) = false) :
    value (implicitTag (toString k)) (toString k) = .ok (.int k) := by
  have hs := (Json.chars_intParts k).symm
  have hn := Json.isValid_intParts k
  have hwhole : (Json.intParts k).unsigned = (Json.intParts k).whole := List.append_nil _
  have hlength : (Json.intParts k).whole.length ≤ Decimal.maxDigits :=
    (Nat.length_toDigits_le_iff (by omega) (by decide)).mpr (Json.natAbs_lt_of_isLong hk)
  have hsign :
      (if (Json.intParts k).negative then -(Decimal.digitsValue (Json.intParts k).whole : Int)
      else Decimal.digitsValue (Json.intParts k).whole) = k := by
    show (if decide (k < 0) = true then -(Decimal.digitsValue (Nat.toDigits 10 k.natAbs) : Int)
      else Decimal.digitsValue (Nat.toDigits 10 k.natAbs)) = k
    rw [Decimal.digitsValue_toDigits]
    by_cases hnegative : k < 0
    · rw [if_pos (decide_eq_true hnegative)]
      omega
    · rw [if_neg (by simpa using hnegative)]
      omega
  rw [implicitTag_int hn hwhole hs]
  show (int (toString k)).map Value.int = _
  rw [int_number hn hwhole hlength hs, hsign]
  rfl

theorem readPlain_point {n : NumberText} (hn : n.IsValid) (hfraction : n.fraction ≠ []) :
    Decimal.readPlain false (n.whole ++ '.' :: (n.fraction ++ n.exponentChars)) =
      some n.decimal := by
  have hpoint : Decimal.NoDigitNext ('.' :: (n.fraction ++ n.exponentChars)) := by
    rintro _ ⟨⟩
    rfl
  have hexponent : Decimal.NoDigitNext n.exponentChars := by
    intro c hc
    have h := head?_exponentChars c hc
    unfold isDigitOrUnderscore at h
    exact (Bool.or_eq_false_iff.mp h).1
  have hempty : n.fraction.isEmpty = false := by simpa using hfraction
  unfold Decimal.readPlain
  rw [Decimal.span_digits hn.whole hpoint]
  simp only [Decimal.span_digits hn.fraction hexponent, hempty, Bool.and_false,
    Bool.false_eq_true, if_false]
  unfold Json.NumberText.decimal Json.NumberText.exponentChars Json.NumberText.exponentValue
  cases hparts : n.exponent with
  | none =>
      simp only [Option.map_none, Option.getD_none, Int.zero_sub]
  | some e =>
      obtain ⟨down, ds⟩ := e
      obtain ⟨hds, hdigits⟩ := hn.exponent _ hparts
      have hnone : ds.isEmpty = false := by simpa using hds
      have hall : ds.all Char.isDigit = true := List.all_eq_true.mpr hdigits
      cases down <;>
        simp [Decimal.takeSign, hnone, hall, Int.sub_eq_add_neg, Int.add_comm]

theorem lowered_ne {n : NumberText} (hn : n.IsValid) {t : String} {d : Char} {ds : List Char}
    (ht : t.toList = d :: ds) (hd : d.isDigit = false) :
    (String.ofList (n.unsigned.map Char.toLower) == t) = false := by
  obtain ⟨c, cs, hcs, hc⟩ := exists_unsigned hn
  have hlow : c.toLower = c := by
    have hall : ("0123456789".toList.all fun c => c.toLower == c) = true := by decide
    exact eq_of_beq (List.all_eq_true.mp hall c (mem_digits hc))
  rw [beq_eq_false_iff_ne]
  rintro rfl
  rw [hcs, List.map_cons, String.toList_ofList, hlow] at ht
  rw [(List.cons.inj ht).1, hd] at hc
  cases hc

theorem readDouble_unsigned {n : NumberText} (hn : n.IsValid) (hfraction : n.fraction ≠ []) :
    Decimal.readDouble (String.ofList n.unsigned) = some n.decimal := by
  obtain ⟨c, cs, hcs, hc⟩ := exists_unsigned hn
  have hpoint : n.unsigned = n.whole ++ '.' :: (n.fraction ++ n.exponentChars) := by
    unfold Json.NumberText.unsigned Json.NumberText.fractionChars
    rw [if_neg hfraction]
    rfl
  unfold Decimal.readDouble
  dsimp only
  rw [read_unsigned hn, Option.bind_some, hcs, Decimal.takeSign_digit hc, ← hcs]
  dsimp only
  rw [lowered_ne hn (t := "inf") rfl rfl, lowered_ne hn (t := "infinity") rfl rfl,
    lowered_ne hn (t := "nan") rfl rfl, hpoint]
  exact readPlain_point hn hfraction

theorem float_number {n : NumberText} (hn : n.IsValid) (hfraction : n.fraction ≠ []) {s : String}
    (hs : s.toList = n.chars) :
    float s = .ok (if n.negative then n.decimal.neg else n.decimal) := by
  obtain ⟨c, cs, hcs, hc⟩ := exists_unsigned hn
  have hname (t : String) {ds : List Char} (ht : t.toList = '.' :: ds) :
      (String.ofList n.unsigned == t) = false := by
    rw [beq_eq_false_iff_ne]
    rintro rfl
    rw [String.toList_ofList, hcs] at ht
    rw [(List.cons.inj ht).1] at hc
    cases hc
  unfold float
  rw [withoutUnderscores_number hn hs, lower_number hn hs, splitSign_number hn hs]
  dsimp only [bind, Except.bind]
  rw [hname ".inf" rfl, hname ".nan" rfl, String.toList_ofList, notMem_colon hn]
  unfold plainFloat
  rw [readDouble_unsigned hn hfraction]
  rfl

end Scalar

/-! ## Floating point numbers -/

section Points

variable {negative : Bool} {m : Nat} {e : Int}

/-- Only a number with an exponent is laid out without a fraction. -/
theorem exponent_of_fraction_nil (h : (Json.floatParts negative m e).fraction = []) :
    ∃ x, (Json.floatParts negative m e).exponent = some x := by
  unfold Json.floatParts at h ⊢
  split at h
  · cases h
  · rename_i hm
    rw [if_neg hm]
    unfold Json.layoutParts at h ⊢
    dsimp only at h ⊢
    split at h
    · split at h
      · cases h
      · split at h
        · rename_i hpower htop
          exact absurd h (Json.drop_toDigits_ne_nil (by omega) htop)
        · exact absurd (List.append_eq_nil_iff.mp h).2
            (List.ne_nil_of_length_pos Nat.length_toDigits_pos)
    · rename_i hrange
      rw [if_neg hrange]
      exact ⟨_, rfl⟩

theorem point_mem_chars {n : NumberText} (hn : n.IsValid) :
    n.chars.contains '.' = !n.fraction.isEmpty := by
  have hdigits {ds : List Char} (h : ∀ c ∈ ds, c.isDigit = true) : '.' ∉ ds := fun hmem => by
    cases h '.' hmem
  by_cases hfraction : n.fraction = []
  · have hnone : '.' ∉ n.chars := by
      unfold Json.NumberText.chars Json.NumberText.sign Json.NumberText.fractionChars
        Json.NumberText.exponentChars
      rw [if_pos hfraction]
      simp only [List.append_nil, List.mem_append, not_or]
      refine ⟨⟨by split <;> decide, hdigits hn.whole⟩, ?_⟩
      split
      · exact List.not_mem_nil
      · rename_i down ds hexponent
        simp only [List.mem_cons, not_or]
        exact ⟨by decide, by cases down <;> decide, hdigits (hn.exponent _ hexponent).2⟩
    rw [hfraction]
    simpa using hnone
  · have hsome : '.' ∈ n.chars := by
      unfold Json.NumberText.chars Json.NumberText.fractionChars
      rw [if_neg hfraction]
      simp
    have hempty : n.fraction.isEmpty = false := by simpa using hfraction
    rw [hempty]
    simpa using hsome

theorem toList_floatText (h : (Double.finite negative m e).IsFinite) :
    (floatText (.finite negative m e)).toList = (Json.floatParts negative m e).withPoint.chars := by
  have hvalid := Json.isValid_floatParts h
  have hchars : (Double.finite negative m e).text.toList = (Json.floatParts negative m e).chars :=
    (Json.chars_floatParts negative m e).symm
  unfold floatText Json.NumberText.withPoint
  dsimp only
  rw [hchars, point_mem_chars hvalid]
  generalize hn : Json.floatParts negative m e = n at *
  by_cases hfraction : n.fraction = []
  · obtain ⟨⟨down, ds⟩, hexponent⟩ : ∃ x, n.exponent = some x :=
      hn ▸ exponent_of_fraction_nil (hn ▸ hfraction)
    have hletter : ∀ c ∈ n.sign ++ n.whole, (c != 'e') = true := by
      refine List.forall_mem_append.mpr ⟨fun c hc => ?_, fun c hc => ?_⟩
      · unfold Json.NumberText.sign at hc
        split at hc
        · rw [List.mem_singleton.mp hc]
          rfl
        · cases hc
      · rw [bne_iff_ne]
        rintro rfl
        cases hvalid.whole 'e' hc
    have hspan :
        n.chars.span (· != 'e') =
          (n.sign ++ n.whole, 'e' :: (if down then '-' else '+') :: ds) := by
      unfold Json.NumberText.chars Json.NumberText.fractionChars Json.NumberText.exponentChars
      rw [if_pos hfraction, hexponent, List.append_nil, List.span_eq_takeWhile_dropWhile,
        List.takeWhile_append_of_pos hletter, List.dropWhile_append_of_pos hletter]
      simp
    rw [hspan, if_pos hfraction, hfraction]
    dsimp only
    rw [if_neg (by decide), if_neg (by simp), String.toList_ofList]
    unfold Json.NumberText.chars Json.NumberText.sign Json.NumberText.fractionChars
      Json.NumberText.exponentChars
    rw [hexponent]
    rfl
  · have hempty : n.fraction.isEmpty = false := by simpa using hfraction
    rw [hempty, if_neg hfraction]
    exact hchars

theorem floatParts_eq :
    Json.floatParts negative m e = { Json.floatParts false m e with negative := negative } := by
  unfold Json.floatParts Json.layoutParts
  dsimp only
  split
  · rfl
  · split
    · split
      · rfl
      · split <;> rfl
    · rfl

theorem decimal_floatParts (h : (Double.finite negative m e).IsFinite) :
    (Json.floatParts negative m e).decimal = .finite false m e := by
  have hvalue := Json.numberValue?_floatParts (show (Double.finite false m e).IsFinite from h)
  have hsome : (Json.floatParts false m e).fraction ≠ [] ∨
      (Json.floatParts false m e).exponentValue ≠ none := by
    by_cases hfraction : (Json.floatParts false m e).fraction = []
    · obtain ⟨x, hexponent⟩ := exponent_of_fraction_nil hfraction
      unfold Json.NumberText.exponentValue
      rw [hexponent]
      exact .inr (Option.some_ne_none _)
    · exact .inl hfraction
  have hsign : (Json.floatParts false m e).negative = false := by rw [floatParts_eq]
  rw [Json.numberValue?_fraction _ hsome, hsign] at hvalue
  rw [floatParts_eq]
  exact Value.float.inj (Option.some.inj hvalue)

theorem value_float (h : (Double.finite negative m e).IsFinite) :
    Scalar.value (Scalar.implicitTag (floatText (.finite negative m e)))
      (floatText (.finite negative m e)) =
      .ok (.float (.finite negative m e)) := by
  have hs := toList_floatText h
  have hn := (Json.isValid_floatParts h).withPoint
  have hsign : (Json.floatParts negative m e).withPoint.negative = negative := by
    unfold Json.NumberText.withPoint
    rw [floatParts_eq]
  rw [Scalar.implicitTag_float hn Json.NumberText.fraction_withPoint_ne_nil hs]
  show (Scalar.float (floatText (.finite negative m e))).map Value.float = _
  rw [Scalar.float_number hn Json.NumberText.fraction_withPoint_ne_nil hs, hsign,
    Json.NumberText.decimal_withPoint, decimal_floatParts h]
  cases negative <;> rfl

end Points

end Yaml

end ImportAudit
