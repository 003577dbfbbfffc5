import ImportAudit.Json.Print
import ImportAudit.Json.Read
import ImportAudit.Proofs.Decimal.Double

/-!
# Strings and numbers in JSON

Every string and every number that is written is read back, whatever follows it
that cannot be part of it.
-/

namespace ImportAudit.Json

/-! ## Hexadecimal digits -/

theorem hexDigits_succ {width : Nat} (hwidth : 0 < width) (n : Nat) :
    Text.hexDigits (width + 1) n = Text.hexDigits width (n / 16) ++ [(n % 16).digitChar] := by
  unfold Text.hexDigits
  by_cases hn : n < 16
  · have hdiv : n / 16 = 0 := by omega
    have hmod : n % 16 = n := by omega
    have hzeros : List.replicate width '0' = List.replicate (width - 1) '0' ++ ['0'] := by
      rw [← List.replicate_succ', Nat.sub_add_cancel hwidth]
    rw [hdiv, hmod, Nat.toDigits_of_lt_base hn, Nat.toDigits_zero]
    simp only [List.length_singleton, Nat.add_sub_cancel]
    rw [hzeros]
  · rw [Nat.toDigits_of_base_le (by omega) (by omega)]
    simp only [List.length_append, List.length_singleton, Nat.add_sub_add_right, List.append_assoc]

theorem hexDigits_four {n : Nat} (h : n < 0x10000) :
    Text.hexDigits 4 n =
      [(n / 16 / 16 / 16).digitChar, (n / 16 / 16 % 16).digitChar, (n / 16 % 16).digitChar,
        (n % 16).digitChar] := by
  have hone : Text.hexDigits 1 (n / 16 / 16 / 16) = [(n / 16 / 16 / 16).digitChar] := by
    unfold Text.hexDigits
    rw [Nat.toDigits_of_lt_base (by omega)]
    rfl
  rw [hexDigits_succ (by omega), hexDigits_succ (by omega), hexDigits_succ (by omega), hone]
  rfl

theorem hexValue?_digitChar : ∀ d < 16, hexValue? d.digitChar = some d := by
  decide

theorem hexValue4?_digits {n : Nat} (h : n < 0x10000) :
    hexValue4? (n / 16 / 16 / 16).digitChar (n / 16 / 16 % 16).digitChar (n / 16 % 16).digitChar
      (n % 16).digitChar =
      some n := by
  unfold hexValue4?
  rw [hexValue?_digitChar _ (by omega), hexValue?_digitChar _ (by omega),
    hexValue?_digitChar _ (by omega), hexValue?_digitChar _ (by omega)]
  simp only [Option.bind_eq_bind, Option.bind_some, Option.pure_def, Option.some.injEq]
  omega

theorem not_surrogate (c : Char) :
    isHighSurrogate c.toNat = false ∧ isLowSurrogate c.toNat = false := by
  have hvalid : c.toNat < 0xd800 ∨ (0xdfff < c.toNat ∧ c.toNat < 0x110000) := c.valid
  unfold isHighSurrogate isLowSurrogate
  simp only [Bool.and_eq_false_iff, decide_eq_false_iff_not]
  omega

/-! ## How a character is written -/

def IsPlain (c : Char) : Prop := c.toNat < 0x80 ∧ c ≠ '\r'

instance : DecidablePred IsPlain := fun c => inferInstanceAs (Decidable (c.toNat < 0x80 ∧ c ≠ '\r'))

theorem isPlain_of_all {cs : List Char} (h : (cs.all fun c => decide (IsPlain c)) = true) :
    ∀ c ∈ cs, IsPlain c :=
  fun c hc => of_decide_eq_true (List.all_eq_true.mp h c hc)

theorem isPlain_digitChar : ∀ d < 16, IsPlain d.digitChar := by
  decide

/-- How a character is written in a string: after a backslash by a character that stands for it, by
its number, as itself, or by two numbers. -/
inductive IsEscape (ascii : Bool) (c : Char) : List Char → Prop
  | simple {e : Char} (he : simpleEscape? e = some c) (hplain : IsPlain e) : IsEscape
      ascii c ['\\', e]
  | code (hc : c.toNat < 0x10000) : IsEscape ascii c (unicodeEscape c.toNat)
  | itself (hquote : c ≠ '"') (hslash : c ≠ '\\') (hshown : 0x20 ≤ c.toNat)
      (hplain : ascii = true → IsPlain c) :
      IsEscape ascii c [c]
  | pair (hc : 0x10000 ≤ c.toNat) : IsEscape ascii c
      (unicodeEscape (0xd800 + (c.toNat - 0x10000) / 0x400) ++
        unicodeEscape (0xdc00 + (c.toNat - 0x10000) % 0x400))

theorem isEscape_escapeChar (ascii : Bool) (c : Char) : IsEscape ascii c (escapeChar ascii c) := by
  have hof {n : Nat} (h : (c.toNat == n) = true) : c = Char.ofNat n := by
    rw [← eq_of_beq h, Char.ofNat_toNat]
  unfold escapeChar
  by_cases hmark : (c == '"' || c == '\\') = true
  · rw [if_pos hmark]
    rcases Bool.or_eq_true_iff.mp hmark with h | h
    · rw [eq_of_beq h]
      exact .simple rfl (by decide)
    · rw [eq_of_beq h]
      exact .simple rfl (by decide)
  rw [if_neg hmark]
  by_cases hfeed : (c == '\n') = true
  · rw [if_pos hfeed, eq_of_beq hfeed]
    exact .simple rfl (by decide)
  rw [if_neg hfeed]
  by_cases hreturn : (c == '\r') = true
  · rw [if_pos hreturn, eq_of_beq hreturn]
    exact .simple rfl (by decide)
  rw [if_neg hreturn]
  by_cases htab : (c == '\t') = true
  · rw [if_pos htab, eq_of_beq htab]
    exact .simple rfl (by decide)
  rw [if_neg htab]
  by_cases hback : (c.toNat == 8) = true
  · rw [if_pos hback, hof hback]
    exact .simple rfl (by decide)
  rw [if_neg hback]
  by_cases hform : (c.toNat == 12) = true
  · rw [if_pos hform, hof hform]
    exact .simple rfl (by decide)
  rw [if_neg hform]
  by_cases hcontrol : c.toNat < 0x20
  · rw [if_pos hcontrol]
    exact .code (by omega)
  rw [if_neg hcontrol]
  by_cases hitself : (!ascii || decide (c.toNat < 0x7f)) = true
  · rw [if_pos hitself]
    obtain ⟨hquote, hslash⟩ : c ≠ '"' ∧ c ≠ '\\' := by simpa using hmark
    refine .itself hquote hslash (Nat.le_of_not_lt hcontrol) fun hascii =>
      ⟨?_, by simpa using hreturn⟩
    rw [hascii, Bool.not_true, Bool.false_or, decide_eq_true_eq] at hitself
    omega
  rw [if_neg hitself]
  by_cases hplane : c.toNat < 0x10000
  · rw [if_pos hplane]
    exact .code hplane
  · rw [if_neg hplane]
    exact .pair (Nat.le_of_not_lt hplane)

/-! ## Strings that are read back -/

section Strings

variable (start : List Char) (fuel : Nat) (built : List Text.Point)

theorem readString_unicodeEscape (c : Char) (hc : c.toNat < 0x10000) {rest : List Char}
    (hrest : rest ≠ []) :
    readString start (fuel + 1) built (unicodeEscape c.toNat ++ rest) =
      readString start fuel (.char c :: built) rest := by
  obtain ⟨after, more, rfl⟩ := List.exists_cons_of_ne_nil hrest
  unfold unicodeEscape
  rw [hexDigits_four hc]
  simp only [List.cons_append, List.nil_append]
  rw [readString]
  simp only [hexValue4?_digits hc, (not_surrogate c).1, Text.Point.ofNat_toNat]
  rfl

theorem readString_pair (c : Char) (hc : 0x10000 ≤ c.toNat) {rest : List Char} (hrest : rest ≠ []) :
    readString start (fuel + 1) built
        (unicodeEscape (0xd800 + (c.toNat - 0x10000) / 0x400) ++
          unicodeEscape (0xdc00 + (c.toNat - 0x10000) % 0x400) ++ rest) =
      readString start fuel (.char c :: built) rest := by
  obtain ⟨after, more, rfl⟩ := List.exists_cons_of_ne_nil hrest
  have hvalid : c.toNat < 0xd800 ∨ (0xdfff < c.toNat ∧ c.toNat < 0x110000) := c.valid
  obtain ⟨high, hhigh⟩ : ∃ n, n = 0xd800 + (c.toNat - 0x10000) / 0x400 := ⟨_, rfl⟩
  obtain ⟨low, hlow⟩ : ∃ n, n = 0xdc00 + (c.toNat - 0x10000) % 0x400 := ⟨_, rfl⟩
  have hhigh' : isHighSurrogate high = true := by
    unfold isHighSurrogate
    simp only [Bool.and_eq_true, decide_eq_true_eq]
    omega
  have hlow' : isLowSurrogate low = true := by
    unfold isLowSurrogate
    simp only [Bool.and_eq_true, decide_eq_true_eq]
    omega
  have hcode : 0x10000 + (high - 0xd800) * 0x400 + (low - 0xdc00) = c.toNat := by omega
  rw [← hhigh, ← hlow]
  unfold unicodeEscape
  rw [hexDigits_four (by omega), hexDigits_four (by omega)]
  simp only [List.cons_append, List.nil_append]
  rw [readString]
  simp only [hexValue4?_digits (show high < 0x10000 by omega),
    hexValue4?_digits (show low < 0x10000 by omega), hhigh', hlow',
    hcode, Text.Point.ofNat_toNat]
  rfl

theorem readString_simpleEscape (e : Char) {c : Char} (he : simpleEscape? e = some c)
    (rest : List Char) :
    readString start (fuel + 1) built ('\\' :: e :: rest) =
      readString start fuel (.char c :: built) rest := by
  have hu : e ≠ 'u' := by
    rintro rfl
    cases (show none = some c from he)
  rw [readString]
  · rw [he]
    rfl
  · exact hu

theorem readString_of_isEscape {ascii : Bool} {c : Char} {written rest : List Char}
    (h : IsEscape ascii c written) (hrest : rest ≠ []) :
    readString start (fuel + 1) built (written ++ rest) =
      readString start fuel (.char c :: built) rest := by
  cases h with
  | simple he _ => exact readString_simpleEscape start fuel built _ he rest
  | code hc => exact readString_unicodeEscape start fuel built c hc hrest
  | itself hquote hslash hshown _ =>
      rw [List.singleton_append, readString.eq_def]
      simp only [beq_false_of_ne hquote, bne, beq_false_of_ne hslash, Nat.not_lt.mpr hshown,
        Bool.not_false, Bool.false_eq_true, ↓reduceIte]
  | pair hc => exact readString_pair start fuel built c hc hrest

theorem readString_escaped (ascii : Bool) (cs rest : List Char) {fuel : Nat}
    (hfuel : cs.length < fuel) :
    readString start fuel built (cs.flatMap (escapeChar ascii) ++ '"' :: rest) =
      .ok (built.reverse ++ cs.map .char, rest) := by
  induction cs generalizing fuel built with
  | nil =>
      obtain ⟨fuel, rfl⟩ := Nat.exists_eq_succ_of_ne_zero (Nat.ne_of_gt hfuel)
      simp only [List.flatMap_nil, List.nil_append, List.map_nil, List.append_nil]
      rfl
  | cons c cs ih =>
      obtain ⟨fuel, rfl⟩ := Nat.exists_eq_succ_of_ne_zero (Nat.ne_of_gt (Nat.zero_lt_of_lt hfuel))
      rw [List.flatMap_cons, List.append_assoc,
        readString_of_isEscape start fuel built (isEscape_escapeChar ascii c) (by simp),
        ih (.char c :: built) (Nat.lt_of_succ_lt_succ hfuel), List.reverse_cons, List.append_assoc,
        List.singleton_append, List.map_cons]

theorem length_le_flatMap {α : Type} {f : Char → List α} (hf : ∀ c, f c ≠ []) (cs : List Char) :
    cs.length ≤ (cs.flatMap f).length := by
  induction cs with
  | nil => exact Nat.le_refl 0
  | cons c cs ih =>
      have := List.length_pos_iff.mpr (hf c)
      rw [List.flatMap_cons, List.length_append, List.length_cons]
      omega

theorem IsEscape.ne_nil {ascii : Bool} {c : Char} {written : List Char}
    (h : IsEscape ascii c written) : written ≠ [] := by
  cases h with
  | simple | code | itself | pair => exact List.cons_ne_nil _ _

theorem readString_stringText (ascii : Bool) (s : String) (rest : List Char) :
    ∃ body, (stringText ascii s).toList = '"' :: body ∧
      readString ('"' :: body ++ rest) ('"' :: body ++ rest).length [] (body ++ rest) =
        .ok (s.toList.map .char, rest) := by
  refine ⟨s.toList.flatMap (escapeChar ascii) ++ ['"'], String.toList_ofList, ?_⟩
  rw [List.append_assoc, List.singleton_append, readString_escaped]
  · rw [List.reverse_nil, List.nil_append]
  · have := length_le_flatMap (fun c => (isEscape_escapeChar ascii c).ne_nil) s.toList
    simp only [List.cons_append, List.append_assoc, List.length_cons, List.length_append]
    omega

end Strings

theorem isPlain_unicodeEscape {n : Nat} (hn : n < 0x10000) {c : Char} (h : c ∈ unicodeEscape n) :
    IsPlain c := by
  unfold unicodeEscape at h
  rw [hexDigits_four hn] at h
  simp only [List.mem_cons, List.not_mem_nil, or_false] at h
  rcases h with rfl | rfl | rfl | rfl | rfl | rfl
  · decide
  · decide
  all_goals exact isPlain_digitChar _ (by omega)

theorem IsEscape.isPlain {c d : Char} {written : List Char} (h : IsEscape true c written)
    (hd : d ∈ written) : IsPlain d := by
  have hvalid : c.toNat < 0xd800 ∨ (0xdfff < c.toNat ∧ c.toNat < 0x110000) := c.valid
  cases h with
  | simple _ hplain =>
      rcases List.mem_pair.mp hd with rfl | rfl
      · decide
      · exact hplain
  | code hc => exact isPlain_unicodeEscape hc hd
  | itself _ _ _ hplain =>
      rw [List.mem_singleton.mp hd]
      exact hplain rfl
  | pair hc =>
      rcases List.mem_append.mp hd with hd | hd
      · exact isPlain_unicodeEscape (by omega) hd
      · exact isPlain_unicodeEscape (by omega) hd

theorem isPlain_stringText {s : String} {c : Char} (h : c ∈ (stringText true s).toList) :
    IsPlain c := by
  unfold stringText at h
  rw [String.toList_ofList] at h
  simp only [List.cons_append, List.mem_cons, List.mem_append, List.mem_flatMap, List.not_mem_nil,
    or_false] at h
  rcases h with rfl | ⟨d, -, hd⟩ | rfl
  · decide
  · exact (isEscape_escapeChar true d).isPlain hd
  · decide

/-! ## Numbers -/

def EndsNumber (cs : List Char) : Prop :=
  ∀ c ∈ cs.head?, c.isDigit = false ∧ c ≠ '.' ∧ c ≠ 'e' ∧ c ≠ 'E'

theorem EndsNumber.noDigitNext {cs : List Char} (h : EndsNumber cs) : Decimal.NoDigitNext cs :=
  fun c hc => (h c hc).1

structure NumberText where
  negative : Bool
  whole : List Char
  fraction : List Char
  /-- Whether the exponent is below zero, and its digits. -/
  exponent : Option (Bool × List Char)

namespace NumberText

def sign (n : NumberText) : List Char :=
  if n.negative then ['-'] else []

def fractionChars (n : NumberText) : List Char :=
  if n.fraction = [] then [] else '.' :: n.fraction

def exponentChars (n : NumberText) : List Char :=
  match n.exponent with
  | none => []
  | some (down, ds) => 'e' :: (if down then '-' else '+') :: ds

def chars (n : NumberText) : List Char :=
  n.sign ++ n.whole ++ n.fractionChars ++ n.exponentChars

def exponentValue (n : NumberText) : Option Int :=
  n.exponent.map fun e => if e.1 then -(Decimal.digitsValue e.2 : Int) else Decimal.digitsValue e.2

structure IsValid (n : NumberText) : Prop where
  whole : ∀ c ∈ n.whole, c.isDigit = true
  first : n.whole = ['0'] ∨ ∃ c cs, n.whole = c :: cs ∧ c ≠ '0'
  fraction : ∀ c ∈ n.fraction, c.isDigit = true
  exponent : ∀ e ∈ n.exponent, e.2 ≠ [] ∧ ∀ c ∈ e.2, c.isDigit = true

variable {n : NumberText} {rest : List Char}

theorem IsValid.exists_digit (hn : n.IsValid) : ∃ c cs, n.whole = c :: cs ∧ c.isDigit = true := by
  obtain ⟨c, cs, hcs⟩ : ∃ c cs, n.whole = c :: cs := by
    rcases hn.first with h | ⟨c, cs, h, -⟩
    · exact ⟨_, _, h⟩
    · exact ⟨c, cs, h⟩
  exact ⟨c, cs, hcs, hn.whole c (by rw [hcs]; exact List.mem_cons_self)⟩

theorem isPlain_of_isDigit {c : Char} (h : c.isDigit = true) : IsPlain c := by
  have hvalue : 48 ≤ c.toNat ∧ c.toNat ≤ 57 := Char.isDigit_iff_toNat.mp h
  refine ⟨by omega, ?_⟩
  rintro rfl
  cases h

theorem isPlain_chars (hn : n.IsValid) {c : Char} (h : c ∈ n.chars) : IsPlain c := by
  unfold chars sign fractionChars exponentChars at h
  rcases List.mem_append.mp h with h | h
  · rcases List.mem_append.mp h with h | h
    · rcases List.mem_append.mp h with h | h
      · split at h
        · rw [List.mem_singleton.mp h]
          decide
        · cases h
      · exact isPlain_of_isDigit (hn.whole c h)
    · split at h
      · cases h
      · rcases List.mem_cons.mp h with rfl | h
        · decide
        · exact isPlain_of_isDigit (hn.fraction c h)
  · split at h
    · cases h
    · rename_i down ds hexponent
      rcases List.mem_cons.mp h with rfl | h
      · decide
      · rcases List.mem_cons.mp h with rfl | h
        · cases down <;> decide
        · exact isPlain_of_isDigit ((hn.exponent _ hexponent).2 c h)

theorem takeExponent_chars (hn : n.IsValid) (hrest : EndsNumber rest) :
    takeExponent (n.exponentChars ++ rest) = (n.exponentValue, rest) := by
  unfold exponentChars exponentValue
  cases hexponent : n.exponent with
  | none =>
      cases rest with
      | nil => rfl
      | cons c cs =>
          obtain ⟨-, -, he, hE⟩ := hrest c rfl
          have hmark : (c == 'e' || c == 'E') = false := by simp [he, hE]
          simp only [List.nil_append, takeExponent, hmark, Bool.false_and, Bool.false_eq_true,
            ↓reduceIte, Option.map_none]
  | some e =>
      obtain ⟨down, ds⟩ := e
      obtain ⟨hne, hdigits⟩ := hn.exponent (down, ds) hexponent
      have hspan := Decimal.span_digits hdigits hrest.noDigitNext
      have hsign :
          Decimal.takeSign ((if down then '-' else '+') :: (ds ++ rest)) = (down, ds ++ rest) := by
        cases down <;> rfl
      have hnonempty : ds.isEmpty = false := by simpa using hne
      simp only [List.cons_append, takeExponent, hsign, hspan, hnonempty, Option.map_some]
      rfl

theorem takeFraction_chars (hn : n.IsValid) (hrest : EndsNumber rest) :
    takeFraction (n.fractionChars ++ (n.exponentChars ++ rest)) =
      (n.fraction, n.exponentChars ++ rest) := by
  have hnext : ∀ c ∈ (n.exponentChars ++ rest).head?, c.isDigit = false ∧ c ≠ '.' := by
    unfold exponentChars
    split
    · intro c hc
      exact ⟨(hrest c hc).1, (hrest c hc).2.1⟩
    · rintro c hc
      cases hc
      decide
  unfold fractionChars
  split
  · rename_i hempty
    rw [hempty, List.nil_append]
    unfold takeFraction
    split
    · rename_i heq
      exact absurd rfl (hnext '.' (by rw [heq]; rfl)).2
    · rfl
  · rename_i hne
    have hspan := Decimal.span_digits hn.fraction (fun c hc => (hnext c hc).1)
    have hnonempty : n.fraction.isEmpty = false := by simpa using hne
    simp only [List.cons_append, takeFraction, hspan, hnonempty, Bool.false_eq_true, ↓reduceIte]

theorem takeWhole_chars (hn : n.IsValid) (hrest : EndsNumber rest) :
    takeWhole (n.whole ++ (n.fractionChars ++ (n.exponentChars ++ rest))) =
      (n.whole, n.fractionChars ++ (n.exponentChars ++ rest)) := by
  have hnext : Decimal.NoDigitNext (n.fractionChars ++ (n.exponentChars ++ rest)) := by
    unfold fractionChars exponentChars
    intro c hc
    split at hc
    · split at hc
      · exact (hrest c hc).1
      · cases hc
        rfl
    · cases hc
      rfl
  have hspan := Decimal.span_digits hn.whole hnext
  rcases hn.first with hzero | ⟨c, cs, hcs, hc⟩
  · rw [hzero]
    rfl
  · rw [hcs] at hspan ⊢
    unfold takeWhole
    split
    · rename_i heq
      exact absurd (List.cons.inj heq).1 hc
    · exact hspan

theorem takeMinus_chars (hn : n.IsValid) (rest : List Char) :
    takeMinus (n.sign ++ (n.whole ++ rest)) = (n.negative, n.whole ++ rest) := by
  unfold sign
  split
  · rename_i h
    rw [h]
    rfl
  · rename_i h
    obtain ⟨c, cs, hcs, hdigit⟩ := hn.exists_digit
    have hpositive : n.negative = false := by simpa using h
    rw [hcs, hpositive]
    unfold takeMinus
    split
    · rename_i heq
      rw [(List.cons.inj heq).1] at hdigit
      cases hdigit
    · rfl

theorem readNumber_chars (hn : n.IsValid) (hrest : EndsNumber rest) {v : Value}
    (hv : numberValue? n.negative n.whole n.fraction n.exponentValue = some v) :
    readNumber (n.chars ++ rest) = some (.ok (v, rest)) := by
  have hnonempty : n.whole.isEmpty = false := by
    obtain ⟨c, cs, hcs, -⟩ := hn.exists_digit
    rw [hcs]
    rfl
  unfold readNumber chars
  simp only [List.append_assoc, takeMinus_chars hn, takeWhole_chars hn hrest,
    takeFraction_chars hn hrest, takeExponent_chars hn hrest, hnonempty, hv]
  rfl

theorem find?_names_digit {c : Char} (hc : c.isDigit = true) (cs : List Char) :
    (names.find? fun n => n.1.toList.isPrefixOf (c :: cs)) = none ∧
      (names.find? fun n => n.1.toList.isPrefixOf ('-' :: c :: cs)) = none := by
  have hne (d : Char) (hd : d.isDigit = false) : d ≠ c := by
    rintro rfl
    rw [hd] at hc
    cases hc
  constructor
  · simp [names, hne 'n' rfl, hne 't' rfl, hne 'f' rfl, hne 'N' rfl, hne 'I' rfl, hne '-' rfl]
  · simp [names, hne 'I' rfl]

/-- A number is read back, whatever follows it that is no part of a number. -/
theorem readAtom_chars (hn : n.IsValid) (hrest : EndsNumber rest) {v : Value}
    (hv : numberValue? n.negative n.whole n.fraction n.exponentValue = some v) :
    readAtom (n.chars ++ rest) = .ok (v, rest) := by
  have hnames : (names.find? fun m => m.1.toList.isPrefixOf (n.chars ++ rest)) = none := by
    obtain ⟨c, cs, hcs, hdigit⟩ := hn.exists_digit
    unfold chars sign
    rw [hcs]
    split
    · exact (find?_names_digit hdigit _).2
    · exact (find?_names_digit hdigit _).1
  unfold readAtom
  rw [hnames, readNumber_chars hn hrest hv]
  rfl

end NumberText

/-! ## Whole numbers -/

def intParts (n : Int) : NumberText :=
  ⟨decide (n < 0), Nat.toDigits 10 n.natAbs, [], none⟩

theorem chars_intParts (n : Int) : (intParts n).chars = (toString n).toList := by
  have hnat (k : Nat) : (toString k).toList = Nat.toDigits 10 k := by
    simp [toString, Nat.repr]
  cases n with
  | ofNat k =>
      show [] ++ Nat.toDigits 10 k ++ [] ++ [] = (toString k).toList
      rw [hnat, List.nil_append, List.append_nil, List.append_nil]
  | negSucc k =>
      have hsign : decide (Int.negSucc k < 0) = true := decide_eq_true (Int.negSucc_lt_zero k)
      show (if decide (Int.negSucc k < 0) = true then ['-'] else []) ++
          Nat.toDigits 10 (k + 1) ++ [] ++ [] =
        ("-" ++ toString (k + 1)).toList
      rw [if_pos hsign, String.toList_append, hnat, List.append_nil, List.append_nil]
      rfl

theorem first_toDigits (n : Nat) :
    Nat.toDigits 10 n = ['0'] ∨ ∃ c cs, Nat.toDigits 10 n = c :: cs ∧ c ≠ '0' := by
  rcases Nat.eq_zero_or_pos n with rfl | hpos
  · exact .inl rfl
  · exact .inr (Decimal.head_toDigits hpos)

theorem isValid_intParts (n : Int) : (intParts n).IsValid where
  whole _ hc := Decimal.isDigit_of_mem hc
  first := first_toDigits n.natAbs
  fraction _ hc := absurd hc List.not_mem_nil
  exponent _ he := absurd he (Option.not_mem_none _)

theorem natAbs_lt_of_isLong {n : Int} (hn : Value.isLong (.int n) = false) :
    n.natAbs < 10 ^ Decimal.maxDigits := by
  unfold Value.isLong Value.isWritable at hn
  rw [Nat.pow_eq] at hn
  generalize Decimal.maxDigits = most at hn ⊢
  simpa only [Bool.not_eq_eq_eq_not, Bool.not_false, decide_eq_true_eq] using hn

theorem numberValue?_intParts {n : Int} (hn : Value.isLong (.int n) = false) :
    numberValue? (intParts n).negative (intParts n).whole (intParts n).fraction
      (intParts n).exponentValue =
      some (.int n) := by
  have hlength : ¬ Decimal.maxDigits < (Nat.toDigits 10 n.natAbs).length := by
    exact Nat.not_lt.mpr
      ((Nat.length_toDigits_le_iff (by omega) (by decide)).mpr (natAbs_lt_of_isLong hn))
  have hvalue : (if decide (n < 0) = true then -(n.natAbs : Int) else n.natAbs) = n := by
    by_cases h : n < 0
    · rw [if_pos (decide_eq_true h)]
      omega
    · rw [if_neg (by simpa using h)]
      omega
  unfold numberValue? NumberText.exponentValue intParts
  simp only [List.isEmpty_nil, Option.map_none, Option.isNone_none, Bool.and_self,
    ↓reduceIte, hlength, Decimal.digitsValue_toDigits, hvalue]

/-! ## Floating point numbers -/

section Layout

variable (negative : Bool) (digits : Nat) (power : Int)

def topExponent : Int :=
  power + (Nat.toDigits 10 digits).length - 1

def layoutParts : NumberText :=
  let ds := Nat.toDigits 10 digits
  let top := topExponent digits power
  if -4 ≤ top ∧ top < 16 then
    if 0 ≤ power then ⟨negative, ds ++ List.replicate power.natAbs '0', ['0'], none⟩
    else if 0 ≤ top then ⟨negative, ds.take (top.natAbs + 1), ds.drop (top.natAbs + 1), none⟩
    else ⟨negative, ['0'], List.replicate (top.natAbs - 1) '0' ++ ds, none⟩
  else
    ⟨negative, ds.take 1, ds.drop 1,
      some (decide (top < 0),
        List.replicate (2 - (Nat.toDigits 10 top.natAbs).length) '0' ++ Nat.toDigits 10 top.natAbs)⟩

variable {digits power}

theorem drop_toDigits_ne_nil (hpower : power < 0) (htop : 0 ≤ topExponent digits power) :
    (Nat.toDigits 10 digits).drop ((topExponent digits power).natAbs + 1) ≠ [] := by
  unfold topExponent at *
  intro hnil
  have hlength := List.drop_eq_nil_iff.mp hnil
  omega

theorem layout_eq :
    Double.layout digits power =
      if -4 ≤ topExponent digits power ∧ topExponent digits power < 16 then
        if 0 ≤ power then
          String.ofList (Nat.toDigits 10 digits ++ List.replicate power.natAbs '0') ++ ".0"
        else if 0 ≤ topExponent digits power then
          String.ofList ((Nat.toDigits 10 digits).take ((topExponent digits power).natAbs + 1))
            ++ "." ++
            String.ofList ((Nat.toDigits 10 digits).drop ((topExponent digits power).natAbs + 1))
        else
          "0." ++ String.ofList (List.replicate ((topExponent digits power).natAbs - 1) '0' ++
            Nat.toDigits 10 digits)
      else
        String.ofList ((Nat.toDigits 10 digits).take 1) ++
          (if String.ofList ((Nat.toDigits 10 digits).drop 1) == "" then ""
            else "." ++ String.ofList ((Nat.toDigits 10 digits).drop 1)) ++ "e" ++
          Double.exponentText (topExponent digits power) :=
  rfl

theorem chars_layoutParts :
    (layoutParts negative digits power).chars = (if negative then ['-'] else []) ++
      (Double.layout digits power).toList := by
  rw [layout_eq]
  unfold layoutParts NumberText.chars NumberText.sign NumberText.fractionChars
    NumberText.exponentChars
  dsimp only
  split
  · split
    · simp
    · split
      · rename_i hpower htop
        simp [drop_toDigits_ne_nil (Int.not_le.mp hpower) htop]
      · simp
  · have hsign : (if topExponent digits power < 0 then "-" else "+").toList =
        [if decide (topExponent digits power < 0) = true then '-' else '+'] := by
      split <;> simp_all
    have hfraction : (if String.ofList ((Nat.toDigits 10 digits).drop 1) == "" then ""
          else "." ++ String.ofList ((Nat.toDigits 10 digits).drop 1)).toList =
        if (Nat.toDigits 10 digits).drop 1 = [] then []
        else '.' :: (Nat.toDigits 10 digits).drop 1 := by
      by_cases hnil : (Nat.toDigits 10 digits).drop 1 = []
      · rw [hnil]
        rfl
      · rw [if_neg hnil, if_neg (by simpa using hnil)]
        simp
    unfold Double.exponentText Double.digitChars
    simp only [String.toList_append, String.toList_ofList, hsign, hfraction, List.append_assoc]
    rfl

theorem isValid_layoutParts (hdigits : 0 < digits) :
    (layoutParts negative digits power).IsValid := by
  obtain ⟨c, cs, hcs, hc⟩ := Decimal.head_toDigits hdigits
  have hall : ∀ d ∈ Nat.toDigits 10 digits, d.isDigit = true :=
    fun d hd => Decimal.isDigit_of_mem hd
  have hzeros {k : Nat} : ∀ d ∈ List.replicate k '0', d.isDigit = true := fun d hd => by
    rw [List.eq_of_mem_replicate hd]
    rfl
  unfold layoutParts
  dsimp only
  split
  · split
    · exact {
        whole := fun d hd => (List.mem_append.mp hd).elim (hall d) (hzeros d)
        first := .inr ⟨c, cs ++ List.replicate power.natAbs '0', by rw [hcs]; rfl, hc⟩
        fraction := fun d hd => by rw [List.mem_singleton.mp hd]; rfl
        exponent := fun _ he => absurd he (Option.not_mem_none _) }
    · split
      · exact {
          whole := fun d hd => hall d (List.mem_of_mem_take hd)
          first := .inr ⟨c, cs.take (topExponent digits power).natAbs, by rw [hcs]; rfl, hc⟩
          fraction := fun d hd => hall d (List.mem_of_mem_drop hd)
          exponent := fun _ he => absurd he (Option.not_mem_none _) }
      · exact {
          whole := fun d hd => by rw [List.mem_singleton.mp hd]; rfl
          first := .inl rfl
          fraction := fun d hd => (List.mem_append.mp hd).elim (hzeros d) (hall d)
          exponent := fun _ he => absurd he (Option.not_mem_none _) }
  · exact {
      whole := fun d hd => hall d (List.mem_of_mem_take hd)
      first := .inr ⟨c, [], by rw [hcs]; rfl, hc⟩
      fraction := fun d hd => hall d (List.mem_of_mem_drop hd)
      exponent := by
        rintro _ ⟨⟩
        refine ⟨List.append_ne_nil_of_right_ne_nil _
          (List.ne_nil_of_length_pos Nat.length_toDigits_pos), ?_⟩
        exact fun d hd => (List.mem_append.mp hd).elim (hzeros d) Decimal.isDigit_of_mem }

theorem numberValue?_fraction {whole fraction : List Char} {exponent : Option Int}
    (h : fraction ≠ [] ∨ exponent ≠ none) :
    numberValue? negative whole fraction exponent =
      some (.float (Double.ofDecimal negative (Decimal.digitsValue (whole ++ fraction))
        (exponent.getD 0 - fraction.length))) := by
  have hkind : (fraction.isEmpty && exponent.isNone) = false := by
    rcases h with h | h
    · simp [h]
    · cases exponent with
      | none => exact absurd rfl h
      | some e => simp
  unfold numberValue?
  rw [hkind]
  rfl

theorem numberValue?_layoutParts :
    numberValue? (layoutParts negative digits power).negative
      (layoutParts negative digits power).whole
        (layoutParts negative digits power).fraction
          (layoutParts negative digits power).exponentValue =
      some (.float (Double.ofDecimal negative digits power)) := by
  have hlength : 0 < (Nat.toDigits 10 digits).length := Nat.length_toDigits_pos
  have htop : topExponent digits power = power + (Nat.toDigits 10 digits).length - 1 := rfl
  unfold layoutParts NumberText.exponentValue
  dsimp only
  split
  · split
    · -- Zeros fill the places up to the point, and one stands after it.
      rename_i hpower
      have hvalue :
          Decimal.digitsValue (Nat.toDigits 10 digits ++ List.replicate power.natAbs '0' ++ ['0']) =
          digits * 10 ^ (power.natAbs + 1) := by
        rw [Decimal.digitsValue_append, Decimal.digitsValue_append, Decimal.digitsValue_toDigits,
          Decimal.digitsValue_zeros, List.length_replicate, pow_succ, ← Nat.mul_assoc]
        rfl
      have hshift : (0 : Int) - (1 : Nat) = power - (power.natAbs + 1 : Nat) := by omega
      rw [numberValue?_fraction negative (.inl (by simp)), hvalue]
      show some (Value.float (Double.ofDecimal negative _ ((0 : Int) - (1 : Nat)))) = _
      rw [hshift, Double.ofDecimal_mul_pow]
    · split
      · rename_i hpower hpoint
        have hne := drop_toDigits_ne_nil (Int.not_le.mp hpower) hpoint
        have hshift :
            (0 : Int) -
              ((Nat.toDigits 10 digits).drop ((topExponent digits power).natAbs + 1)).length =
                power := by
          rw [List.length_drop]
          omega
        rw [numberValue?_fraction negative (.inl hne), List.take_append_drop,
          Decimal.digitsValue_toDigits]
        exact congrArg (fun p => some (Value.float (Double.ofDecimal negative digits p))) hshift
      · have hvalue :
            Decimal.digitsValue
              (['0'] ++ (List.replicate ((topExponent digits power).natAbs - 1) '0' ++
            Nat.toDigits 10 digits)) = digits := by
          rw [Decimal.digitsValue_append, Decimal.digitsValue_append, Decimal.digitsValue_zeros,
            Decimal.digitsValue_toDigits]
          have hzero : Decimal.digitsValue ['0'] = 0 := rfl
          rw [hzero, Nat.zero_mul, Nat.zero_mul, Nat.zero_add, Nat.zero_add]
        have hshift : (0 : Int) - (List.replicate ((topExponent digits power).natAbs - 1) '0' ++
            Nat.toDigits 10 digits).length = power := by
          rw [List.length_append, List.length_replicate]
          omega
        have hne :
            List.replicate ((topExponent digits power).natAbs - 1) '0' ++
              Nat.toDigits 10 digits ≠ [] :=
          List.append_ne_nil_of_right_ne_nil _ (List.ne_nil_of_length_pos hlength)
        rw [numberValue?_fraction negative (.inl hne), hvalue]
        exact congrArg (fun p => some (Value.float (Double.ofDecimal negative digits p))) hshift
  · have hexponent : (if decide (topExponent digits power < 0) = true
          then -((topExponent digits power).natAbs : Int) else (topExponent digits power).natAbs) =
        topExponent digits power := by
      by_cases h : topExponent digits power < 0
      · rw [if_pos (decide_eq_true h)]
        omega
      · rw [if_neg (by simpa using h)]
        omega
    have hshift :
        topExponent digits power - (((Nat.toDigits 10 digits).drop 1).length : Int) = power := by
      rw [List.length_drop]
      omega
    rw [numberValue?_fraction negative (.inr (by simp)), List.take_append_drop,
      Decimal.digitsValue_toDigits]
    simp only [Option.map_some, Option.getD_some, Decimal.digitsValue_append,
      Decimal.digitsValue_zeros, Nat.zero_mul, Nat.zero_add, Decimal.digitsValue_toDigits,
      hexponent, hshift]

end Layout

def floatParts (negative : Bool) (m : Nat) (e : Int) : NumberText :=
  if m = 0 then ⟨negative, ['0'], ['0'], none⟩
  else layoutParts negative (Double.shortest m e).1 (Double.shortest m e).2

theorem chars_floatParts (negative : Bool) (m : Nat) (e : Int) :
    (floatParts negative m e).chars = (floatText (.finite negative m e)).toList := by
  have hsign : (if negative then "-" else "").toList = if negative then ['-'] else [] := by
    cases negative <;> rfl
  unfold floatParts floatText Double.text
  dsimp only
  rw [String.toList_append, hsign]
  by_cases hm : m = 0
  · rw [if_pos hm, if_pos hm]
    cases negative <;> rfl
  · rw [if_neg hm, if_neg hm, chars_layoutParts]

theorem isValid_floatParts {negative : Bool} {m : Nat} {e : Int}
    (h : (Double.finite negative m e).IsFinite) :
    (floatParts negative m e).IsValid := by
  unfold floatParts
  split
  · exact {
      whole := fun d hd => by rw [List.mem_singleton.mp hd]; rfl
      first := .inl rfl
      fraction := fun d hd => by rw [List.mem_singleton.mp hd]; rfl
      exponent := fun _ he => absurd he (Option.not_mem_none _) }
  · rename_i hm
    have hcanonical : Double.IsCanonical m e := h.resolve_left fun hzero => hm hzero.1
    exact isValid_layoutParts negative (Double.shortest_pos hcanonical)

theorem numberValue?_floatParts {negative : Bool} {m : Nat} {e : Int}
    (h : (Double.finite negative m e).IsFinite) :
    numberValue? (floatParts negative m e).negative (floatParts negative m e).whole
      (floatParts negative m e).fraction
      (floatParts negative m e).exponentValue = some (.float (.finite negative m e)) := by
  unfold floatParts
  rcases h with ⟨rfl, rfl⟩ | h
  · rfl
  · rw [if_neg h.pos.ne', numberValue?_layoutParts, Double.ofDecimal_shortest h]

end ImportAudit.Json
