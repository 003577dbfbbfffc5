import ImportAudit.Proofs.Json.Atoms
import ImportAudit.Proofs.Value

/-!
# Reading what was written

A value that has a form in JSON is read back from its text, however the text is indented. A value
with a whole number that has too many digits is not written at all.
-/

namespace ImportAudit.Json

open Writing

/-- Values that have a form in JSON, but for the length of their whole numbers:
texts are their keys, each once. -/
inductive HasForm : Value → Prop
  | null : HasForm .null
  | bool (b : Bool) : HasForm (.bool b)
  | int (n : Int) : HasForm (.int n)
  | float {x : Double} (hx : x.IsFinite) : HasForm (.float x)
  | str (s : String) : HasForm (.str s)
  | list {xs : List Value} (hitems : ∀ x ∈ xs, HasForm x) : HasForm (.list xs)
  | map {es : List (Value × Value)} (hkeys : ∀ e ∈ es, ∃ s, e.1 = .str s)
      (honce : (Value.textKeys es).Nodup)
      (hvalues : ∀ e ∈ es, HasForm e.2) : HasForm (.map es)

/-! ## Blanks -/

def AreBlanks (cs : List Char) : Prop :=
  ∀ c ∈ cs, c = ' ' ∨ c = '\t' ∨ c = '\n'

theorem AreBlanks.isSpace {cs : List Char} (h : AreBlanks cs) {c : Char} (hc : c ∈ cs) :
    isSpace c = true := by
  rcases h c hc with rfl | rfl | rfl <;> rfl

theorem AreBlanks.isPlain {cs : List Char} (h : AreBlanks cs) {c : Char} (hc : c ∈ cs) :
    IsPlain c := by
  rcases h c hc with rfl | rfl | rfl <;> decide

theorem skipSpace_blanks {blanks : List Char} (h : AreBlanks blanks) {c : Char}
    (hc : isSpace c = false) (cs : List Char) :
    skipSpace (blanks ++ c :: cs) = c :: cs := by
  unfold skipSpace
  rw [List.dropWhile_append_of_pos fun d hd => h.isSpace hd,
    List.dropWhile_cons_of_neg (by rw [hc]; decide)]

theorem endsNumber_cons {c : Char} (h : c.isDigit = false ∧ c ≠ '.' ∧ c ≠ 'e' ∧ c ≠ 'E')
    (cs : List Char) :
    EndsNumber (c :: cs) := by
  intro d hd
  cases hd
  exact h

theorem endsNumber_blanks {blanks : List Char} (h : AreBlanks blanks) {cs : List Char}
    (hcs : EndsNumber cs) :
    EndsNumber (blanks ++ cs) := by
  cases blanks with
  | nil => exact hcs
  | cons b bs =>
      apply endsNumber_cons
      rcases h b List.mem_cons_self with rfl | rfl | rfl <;> decide

def Style.IsBlank (st : Style) : Prop :=
  ∀ unit ∈ st.indent, AreBlanks unit.toList

variable {st : Style}

theorem Style.IsBlank.newline (hst : st.IsBlank) (level : Nat) :
    AreBlanks (st.newline level).toList := by
  unfold Style.newline
  split
  · intro c hc
    cases hc
  · rename_i unit hunit
    intro c hc
    rw [String.toList_append, List.mem_append, String.toList_join, List.mem_flatMap] at hc
    rcases hc with hc | ⟨u, hu, hc⟩
    · rw [List.mem_singleton.mp hc]
      exact .inr (.inr rfl)
    · rw [List.eq_of_mem_replicate hu] at hc
      exact hst unit hunit c hc

theorem Style.IsBlank.separator (hst : st.IsBlank) (level : Nat) :
    ∃ blanks, (st.separator level).toList = ',' :: blanks ∧ AreBlanks blanks := by
  unfold Style.separator
  split
  · exact ⟨[' '], rfl, fun c hc => .inl (List.mem_singleton.mp hc)⟩
  · exact ⟨(st.newline level).toList, by rw [String.toList_append]; rfl, hst.newline level⟩

/-- A text of ASCII without carriage returns, where only such texts are written. -/
def ArePlain (st : Style) (t : String) : Prop :=
  st.ascii = true → ∀ c ∈ t.toList, IsPlain c

theorem ArePlain.append {s t : String} (hs : ArePlain st s) (ht : ArePlain st t) :
    ArePlain st (s ++ t) := by
  intro hascii c hc
  rw [String.toList_append] at hc
  exact (List.mem_append.mp hc).elim (hs hascii c) (ht hascii c)

theorem arePlain_of_all {t : String} (h : (t.toList.all fun c => decide (IsPlain c)) = true) :
    ArePlain st t :=
  fun _ => isPlain_of_all h

theorem Style.IsBlank.arePlain_newline (hst : st.IsBlank) (level : Nat) :
    ArePlain st (st.newline level) :=
  fun _ _ hc => (hst.newline level).isPlain hc

theorem Style.IsBlank.arePlain_separator (hst : st.IsBlank) (level : Nat) :
    ArePlain st (st.separator level) := by
  intro _ c hc
  obtain ⟨blanks, hseparator, hblanks⟩ := hst.separator level
  rw [hseparator] at hc
  rcases List.mem_cons.mp hc with rfl | hc
  · decide
  · exact hblanks.isPlain hc

theorem arePlain_stringText (s : String) : ArePlain st (stringText st.ascii s) := by
  intro hascii c hc
  rw [hascii] at hc
  exact isPlain_stringText hc

/-! ## The text of one value -/

/-- A text from which a value is read, whatever follows. -/
structure IsText (st : Style) (v : Value) (t : String) : Prop where
  starts : ∃ c cs, t.toList = c :: cs ∧ isSpace c = false ∧ c ≠ ']' ∧ IsPlain c
  plain : ArePlain st t
  read : ∀ {fuel : Nat} {rest : List Char}, t.toList.length ≤ fuel → EndsNumber rest →
    readValue fuel (t.toList ++ rest) = .ok (v, rest)

theorem readValue_atom {c : Char} (h : c ≠ '"' ∧ c ≠ '[' ∧ c ≠ '\x7b') (fuel : Nat)
    (cs : List Char) :
    readValue (fuel + 1) (c :: cs) = readAtom (c :: cs) := by
  rw [readValue] <;> simp_all

theorem isText_atom {v : Value} {t : String} {c : Char} {cs : List Char} (ht : t.toList = c :: cs)
    (hc : isSpace c = false ∧ c ≠ ']' ∧ c ≠ '"' ∧ c ≠ '[' ∧ c ≠ '\x7b')
    (hplain : ∀ c ∈ t.toList, IsPlain c)
    (hread : ∀ {rest}, EndsNumber rest → readAtom (t.toList ++ rest) = .ok (v, rest)) :
    IsText st v t where
  starts := ⟨c, cs, ht, hc.1, hc.2.1, hplain c (by rw [ht]; exact List.mem_cons_self)⟩
  plain _ := hplain
  read {fuel rest} hfuel hrest := by
    obtain ⟨fuel, rfl⟩ :=
      Nat.exists_eq_succ_of_ne_zero (n := fuel) (by rintro rfl; rw [ht] at hfuel; cases hfuel)
    have hatom := hread hrest
    rw [ht] at hatom ⊢
    rw [List.cons_append, readValue_atom hc.2.2]
    exact hatom

theorem isText_null : IsText st .null "null" :=
  isText_atom rfl (by decide) (isPlain_of_all (by decide)) fun _ => rfl

theorem isText_bool (b : Bool) : IsText st (.bool b) (if b then "true" else "false") := by
  cases b
  · exact isText_atom rfl (by decide) (isPlain_of_all (by decide)) fun _ => rfl
  · exact isText_atom rfl (by decide) (isPlain_of_all (by decide)) fun _ => rfl

theorem isText_number {n : NumberText} (hn : n.IsValid) {v : Value}
    (hv : numberValue? n.negative n.whole n.fraction n.exponentValue = some v) {t : String}
    (ht : n.chars = t.toList) :
    IsText st v t := by
  obtain ⟨c, cs, hcs, hc⟩ : ∃ c cs, t.toList = c :: cs ∧ (c = '-' ∨ c.isDigit = true) := by
    obtain ⟨d, ds, hds, hd⟩ := hn.exists_digit
    rw [← ht]
    unfold NumberText.chars NumberText.sign
    rw [hds]
    split
    · exact ⟨_, _, rfl, .inl rfl⟩
    · exact ⟨_, _, rfl, .inr hd⟩
  refine isText_atom hcs ?_ (fun d hd => NumberText.isPlain_chars hn (by rw [ht]; exact hd))
    fun hrest => ?_
  · rcases hc with rfl | hc
    · decide
    · have hne (d : Char) (hd : d.isDigit = false) : c ≠ d := by
        rintro rfl
        rw [hd] at hc
        cases hc
      have hspace : isSpace c = false := by
        unfold isSpace
        simp only [hne ' ' rfl, hne '\t' rfl, hne '\n' rfl, hne '\r' rfl, beq_eq_false_iff_ne.mpr,
          ne_eq, not_false_iff, Bool.or_self]
      exact ⟨hspace, hne _ rfl, hne _ rfl, hne _ rfl, hne _ rfl⟩
  · rw [← ht]
    exact NumberText.readAtom_chars hn hrest hv

theorem isText_int {n : Int} (hn : Value.isLong (.int n) = false) :
    IsText st (.int n) (toString n) :=
  isText_number (isValid_intParts n) (numberValue?_intParts hn) (chars_intParts n)

theorem isText_float {x : Double} (hx : x.IsFinite) : IsText st (.float x) (floatText x) := by
  cases x with
  | nan => exact hx.elim
  | infinity _ => exact hx.elim
  | finite negative m e =>
      exact isText_number (isValid_floatParts hx) (numberValue?_floatParts hx)
        (chars_floatParts negative m e)

theorem isText_str (s : String) : IsText st (.str s) (stringText st.ascii s) where
  starts := by
    obtain ⟨body, hbody, -⟩ := readString_stringText st.ascii s []
    exact ⟨'"', body, hbody, by decide, by decide, by decide⟩
  plain := arePlain_stringText s
  read {fuel rest} hfuel _ := by
    obtain ⟨body, hbody, hread⟩ := readString_stringText st.ascii s rest
    obtain ⟨fuel, rfl⟩ :=
      Nat.exists_eq_succ_of_ne_zero (n := fuel) (by rintro rfl; rw [hbody] at hfuel; cases hfuel)
    rw [hbody, List.cons_append, readValue]
    rw [List.cons_append] at hread
    rw [hread]
    exact congrArg (fun v => Except.ok (v, rest)) (Value.ofPoints_chars s)

theorem isText_enclosed (hst : st.IsBlank) (level : Nat) (opening closing : Char) {v : Value}
    {first t : String} (hopening : isSpace opening = false ∧ opening ≠ ']' ∧ IsPlain opening)
    (hclosing : IsPlain closing) (hfirst : ArePlain st first) (ht : ArePlain st t)
    (hread : ∀ {before blanks : List Char}, AreBlanks before → AreBlanks blanks → ∀ {fuel : Nat},
      first.toList.length + t.toList.length < fuel → ∀ rest, readValue (fuel + 1)
        (opening :: (before ++ (first.toList ++ (t.toList ++ (blanks ++ closing :: rest))))) =
          .ok (v, rest)) :
    IsText st v (String.singleton opening ++ st.newline (level + 1) ++ first ++
      (t ++ (st.newline level ++ String.singleton closing))) := by
  have hchars : (String.singleton opening ++ st.newline (level + 1) ++ first ++
      (t ++ (st.newline level ++ String.singleton closing))).toList =
        opening :: ((st.newline (level + 1)).toList ++
        (first.toList ++ (t.toList ++ ((st.newline level).toList ++ [closing])))) := by
    simp only [String.toList_append, String.toList_singleton, List.append_assoc, List.cons_append,
      List.nil_append]
  have hsingle {c : Char} (hc : IsPlain c) : ArePlain st (String.singleton c) := by
    intro _ d hd
    rw [String.toList_singleton] at hd
    rwa [List.mem_singleton.mp hd]
  refine ⟨⟨_, _, hchars, hopening⟩, ?_, ?_⟩
  · exact (((hsingle hopening.2.2).append (hst.arePlain_newline _)).append hfirst).append
      (ht.append ((hst.arePlain_newline _).append (hsingle hclosing)))
  · intro fuel rest hfuel _
    rw [hchars] at hfuel ⊢
    simp only [List.length_cons, List.length_append] at hfuel
    obtain ⟨fuel, rfl⟩ := Nat.exists_eq_succ_of_ne_zero (n := fuel) (by omega)
    have := hread (hst.newline (level + 1)) (hst.newline level) (show _ < fuel by omega) rest
    simpa only [List.cons_append, List.append_assoc, List.nil_append] using this

/-! ## The items of a list -/

structure AreItems (st : Style) (xs : List Value) (t : String) : Prop where
  plain : ArePlain st t
  read : ∀ {x : Value} {first : String}, IsText st x first → ∀ {fuel : Nat} {blanks : List Char},
    AreBlanks blanks →
    first.toList.length + t.toList.length < fuel → ∀ (built : List Value) (rest : List Char),
    readItems fuel built (first.toList ++ (t.toList ++ (blanks ++ ']' :: rest))) =
      .ok (built.reverse ++ x :: xs, rest)

theorem areItems_nil : AreItems st [] "" where
  plain _ c hc := by cases hc
  read {x first} hfirst {fuel blanks} hblanks hfuel built rest := by
    obtain ⟨fuel, rfl⟩ := Nat.exists_eq_succ_of_ne_zero (Nat.ne_of_gt (Nat.zero_lt_of_lt hfuel))
    have hends : EndsNumber (blanks ++ ']' :: rest) :=
      endsNumber_blanks hblanks (endsNumber_cons (by decide) rest)
    show readItems (fuel + 1) built (first.toList ++ (blanks ++ ']' :: rest)) = _
    rw [readItems,
      hfirst.read (Nat.le_of_lt_succ (Nat.lt_of_le_of_lt (Nat.le_add_right _ _) hfuel)) hends]
    dsimp only
    rw [skipSpace_blanks hblanks (by decide)]
    simp

theorem areItems_cons (hst : st.IsBlank) (level : Nat) {x : Value} {xs : List Value}
    {first t : String} (hx : IsText st x first) (hxs : AreItems st xs t) :
    AreItems st (x :: xs) (st.separator level ++ first ++ t) := by
  obtain ⟨between, hseparator, hbetween⟩ := hst.separator level
  have hchars :
      (st.separator level ++ first ++ t).toList =
        ',' :: (between ++ (first.toList ++ t.toList)) := by
    rw [String.toList_append, String.toList_append, hseparator, List.append_assoc, List.cons_append]
  refine ⟨((hst.arePlain_separator level).append hx.plain).append hxs.plain, ?_⟩
  intro y before hbefore fuel blanks hblanks hfuel built rest
  obtain ⟨fuel, rfl⟩ := Nat.exists_eq_succ_of_ne_zero (Nat.ne_of_gt (Nat.zero_lt_of_lt hfuel))
  obtain ⟨c, cs, hcs, hc, -, -⟩ := hx.starts
  rw [hchars] at hfuel ⊢
  simp only [List.length_cons, List.length_append] at hfuel
  have hends :
      EndsNumber (',' :: (between ++ (first.toList ++ t.toList)) ++ (blanks ++ ']' :: rest)) :=
    endsNumber_cons (by decide) _
  rw [readItems, hbefore.read (by omega) hends]
  dsimp only [List.cons_append]
  have hcomma :
      skipSpace (',' :: (between ++ (first.toList ++ t.toList) ++ (blanks ++ ']' :: rest))) =
      ',' :: (between ++ (first.toList ++ t.toList) ++ (blanks ++ ']' :: rest)) := rfl
  have hnext : skipSpace (between ++ (first.toList ++ t.toList) ++ (blanks ++ ']' :: rest)) =
      first.toList ++ (t.toList ++ (blanks ++ ']' :: rest)) := by
    rw [List.append_assoc, List.append_assoc, hcs, List.cons_append, skipSpace_blanks hbetween hc]
  rw [hcomma]
  show readItems fuel (y :: built) (skipSpace _) = _
  rw [hnext, hxs.read hx hblanks (by omega), List.reverse_cons, List.append_assoc,
    List.singleton_append]

theorem readValue_items {x : Value} {xs : List Value} {first t : String} (hx : IsText st x first)
    (hxs : AreItems st xs t) {before blanks : List Char} (hbefore : AreBlanks before)
    (hblanks : AreBlanks blanks) {fuel : Nat} (hfuel : first.toList.length + t.toList.length < fuel)
    (rest : List Char) :
    readValue (fuel + 1)
      ('[' :: (before ++ (first.toList ++ (t.toList ++ (blanks ++ ']' :: rest))))) =
      .ok (.list (x :: xs), rest) := by
  obtain ⟨c, cs, hcs, hc, hclose, -⟩ := hx.starts
  have hread := hxs.read hx hblanks hfuel [] rest
  have hskip : skipSpace (before ++ (first.toList ++ (t.toList ++ (blanks ++ ']' :: rest)))) =
      first.toList ++ (t.toList ++ (blanks ++ ']' :: rest)) := by
    rw [hcs, List.cons_append, skipSpace_blanks hbefore hc]
  rw [readValue, hskip, hcs, List.cons_append]
  split
  · rename_i heq
    exact absurd (List.cons.inj heq).1 hclose
  · rw [← List.cons_append, ← hcs, hread]
    rfl

theorem isText_list (hst : st.IsBlank) (level : Nat) {x : Value} {xs : List Value}
    {first t : String} (hx : IsText st x first) (hxs : AreItems st xs t) :
    IsText st (.list (x :: xs))
      ("[" ++ st.newline (level + 1) ++ first ++ (t ++ (st.newline level ++ "]"))) :=
  isText_enclosed hst level '[' ']' (by decide) (by decide) hx.plain hxs.plain
    fun hbefore hblanks _ hfuel => readValue_items hx hxs hbefore hblanks hfuel

/-! ## The members of a mapping -/

def memberText (st : Style) (name text : String) : String :=
  stringText st.ascii name ++ ": " ++ text

structure AreMembers (st : Style) (es : List (Value × Value)) (t : String) : Prop where
  plain : ArePlain st t
  read : ∀ {name : String} {v : Value} {text : String}, IsText st v text →
    ∀ {fuel : Nat} {blanks : List Char},
    AreBlanks blanks → (memberText st name text).toList.length + t.toList.length < fuel →
    ∀ (built : List (Value × Value)) (rest : List Char),
    readMembers fuel built
      ((memberText st name text).toList ++ (t.toList ++ (blanks ++ '\x7d' :: rest))) =
      .ok (built.reverse ++ (.str name, v) :: es, rest)

theorem arePlain_memberText (name : String) {text : String} {v : Value} (h : IsText st v text) :
    ArePlain st (memberText st name text) :=
  ((arePlain_stringText name).append (arePlain_of_all (by decide))).append h.plain

theorem memberText_chars (name text : String) (rest : List Char) :
    (memberText st name text).toList ++ rest = (stringText st.ascii name).toList ++
      (':' :: ' ' :: (text.toList ++ rest)) := by
  unfold memberText
  rw [String.toList_append, String.toList_append, List.append_assoc, List.append_assoc]
  rfl

/-- After a member there is either the end of the mapping or another member. -/
theorem readMembers_member (name : String) {v : Value} {text : String}
    (h : IsText st v text) {fuel : Nat} (hfuel : (memberText st name text).toList.length ≤ fuel)
    (built : List (Value × Value)) {rest : List Char} (hrest : EndsNumber rest)
    (after : List Char) :
    (skipSpace rest = '\x7d' :: after →
      readMembers (fuel + 1) built ((memberText st name text).toList ++ rest) =
      .ok (((.str name, v) :: built).reverse, after)) ∧
    (skipSpace rest = ',' :: after →
      readMembers (fuel + 1) built ((memberText st name text).toList ++ rest) =
      readMembers fuel ((.str name, v) :: built) (skipSpace after)) := by
  have hlength : text.toList.length ≤ fuel := by
    unfold memberText at hfuel
    rw [String.toList_append, List.length_append] at hfuel
    omega
  obtain ⟨c, cs, hcs, hc, -, -⟩ := h.starts
  obtain ⟨body, hbody, hread⟩ :=
    readString_stringText st.ascii name (':' :: ' ' :: (text.toList ++ rest))
  have hcolon :
      skipSpace (':' :: ' ' :: (text.toList ++ rest)) = ':' :: ' ' :: (text.toList ++ rest) := rfl
  have hblank : skipSpace (' ' :: (text.toList ++ rest)) = text.toList ++ rest := by
    rw [hcs]
    exact skipSpace_blanks (show AreBlanks [' '] from fun d hd =>
      .inl (List.mem_singleton.mp hd)) hc _
  rw [memberText_chars, hbody, List.cons_append, readMembers]
  rw [List.cons_append] at hread
  simp only [hread, hcolon, hblank, h.read hlength hrest, Value.ofPoints_chars]
  constructor
  · intro hafter
    simp only [hafter]
  · intro hafter
    simp only [hafter]

theorem areMembers_nil : AreMembers st [] "" where
  plain _ c hc := by cases hc
  read {name v text} h {fuel blanks} hblanks hfuel built rest := by
    have hempty : "".toList = [] := rfl
    rw [hempty, List.length_nil] at hfuel
    rw [hempty, List.nil_append]
    obtain ⟨fuel, rfl⟩ := Nat.exists_eq_succ_of_ne_zero (Nat.ne_of_gt (Nat.zero_lt_of_lt hfuel))
    have hends : EndsNumber (blanks ++ '\x7d' :: rest) :=
      endsNumber_blanks hblanks (endsNumber_cons (by decide) rest)
    have hclose := skipSpace_blanks hblanks (c := '\x7d') (by decide) rest
    rw [(readMembers_member name h (show _ ≤ fuel by omega) built hends rest).1 hclose,
      List.reverse_cons]

theorem areMembers_cons (hst : st.IsBlank) (level : Nat) {name : String} {v : Value}
    {es : List (Value × Value)} {text t : String} (hv : IsText st v text)
    (hes : AreMembers st es t) :
    AreMembers st ((.str name, v) :: es) (st.separator level ++ memberText st name text ++ t) := by
  obtain ⟨between, hseparator, hbetween⟩ := hst.separator level
  have hchars : (st.separator level ++ memberText st name text ++ t).toList =
      ',' :: (between ++ ((memberText st name text).toList ++ t.toList)) := by
    rw [String.toList_append, String.toList_append, hseparator, List.append_assoc, List.cons_append]
  refine ⟨((hst.arePlain_separator level).append (arePlain_memberText name hv)).append
    hes.plain, ?_⟩
  intro key u before hbefore fuel blanks hblanks hfuel built rest
  obtain ⟨fuel, rfl⟩ := Nat.exists_eq_succ_of_ne_zero (Nat.ne_of_gt (Nat.zero_lt_of_lt hfuel))
  have hquote : ∃ cs, (memberText st name text).toList = '"' :: cs := by
    obtain ⟨body, hbody, -⟩ := readString_stringText st.ascii name []
    unfold memberText
    rw [String.toList_append, String.toList_append, hbody]
    exact ⟨_, rfl⟩
  obtain ⟨cs, hcs⟩ := hquote
  rw [hchars] at hfuel ⊢
  simp only [List.length_cons, List.length_append] at hfuel
  have hnext :
      skipSpace
        (between ++ ((memberText st name text).toList ++ t.toList) ++ (blanks ++ '\x7d' :: rest)) =
      (memberText st name text).toList ++ (t.toList ++ (blanks ++ '\x7d' :: rest)) := by
    rw [List.append_assoc, List.append_assoc, hcs, List.cons_append,
      skipSpace_blanks hbetween (by decide)]
  have hends :
      EndsNumber
        (',' :: (between ++ ((memberText st name text).toList ++ t.toList) ++
          (blanks ++ '\x7d' :: rest))) :=
    endsNumber_cons (by decide) _
  have hstep := (readMembers_member key hbefore (show _ ≤ fuel by omega) built hends _).2 rfl
  rw [List.cons_append, hstep, hnext, hes.read hv hblanks (by omega), List.reverse_cons,
    List.append_assoc, List.singleton_append]

theorem readValue_members (name : String) {v : Value} {es : List (Value × Value)} {text t : String}
    (hv : IsText st v text) (hes : AreMembers st es t) {before blanks : List Char}
    (hbefore : AreBlanks before) (hblanks : AreBlanks blanks) {fuel : Nat}
    (hfuel : (memberText st name text).toList.length + t.toList.length < fuel) (rest : List Char) :
    readValue (fuel + 1)
        ('\x7b' ::
          (before ++
            ((memberText st name text).toList ++ (t.toList ++ (blanks ++ '\x7d' :: rest))))) =
      .ok (.map (Value.ofEntries ((.str name, v) :: es)), rest) := by
  have hread := hes.read hv hblanks hfuel [] rest
  obtain ⟨body, hbody, -⟩ := readString_stringText st.ascii name []
  have hskip :
      skipSpace
        (before ++ ((memberText st name text).toList ++ (t.toList ++ (blanks ++ '\x7d' :: rest)))) =
      (memberText st name text).toList ++ (t.toList ++ (blanks ++ '\x7d' :: rest)) := by
    rw [memberText_chars, hbody, List.cons_append, skipSpace_blanks hbefore (by decide)]
  rw [readValue, hskip]
  rw [memberText_chars, hbody, List.cons_append] at hread ⊢
  show Except.map _ (readMembers fuel [] _) = _
  rw [hread]
  rfl

theorem isText_map (hst : st.IsBlank) (level : Nat) {name : String} {v : Value}
    {es : List (Value × Value)} {text t : String} (hv : IsText st v text) (hes : AreMembers st es t)
    (hentries : Value.ofEntries ((.str name, v) :: es) = (.str name, v) :: es) :
    IsText st (.map ((.str name, v) :: es))
      ("\x7b" ++ st.newline (level + 1) ++ memberText st name text ++
        (t ++ (st.newline level ++ "\x7d"))) := by
  refine isText_enclosed hst level '\x7b' '\x7d' (by decide) (by decide)
    (arePlain_memberText name hv) hes.plain fun hbefore hblanks _ hfuel rest => ?_
  rw [readValue_members name hv hes hbefore hblanks hfuel rest, hentries]

/-! ## Whole values -/

theorem allWritable_iff {xs : List Value} : Value.allWritable xs = true ↔
    ∀ x ∈ xs, x.isWritable = true := by
  induction xs with
  | nil => simp [Value.allWritable]
  | cons x xs ih => simp [Value.allWritable, ih]

theorem entriesWritable_cons (name : String) (v : Value) (es : List (Value × Value)) :
    Value.entriesWritable ((.str name, v) :: es) = (v.isWritable && Value.entriesWritable es) := rfl

theorem entriesWritable_iff {es : List (Value × Value)} (hkeys : ∀ e ∈ es, ∃ s, e.1 = .str s) :
    Value.entriesWritable es = true ↔ ∀ e ∈ es, e.2.isWritable = true := by
  induction es with
  | nil => simp [Value.entriesWritable]
  | cons e es ih =>
      obtain ⟨s, hs⟩ := hkeys e List.mem_cons_self
      obtain ⟨k, v⟩ := e
      obtain rfl : k = .str s := hs
      rw [entriesWritable_cons, Bool.and_eq_true, ih fun d hd =>
        hkeys d (List.mem_cons_of_mem _ hd), List.forall_mem_cons]

theorem isLong_of_isWritable {v : Value} (h : v.isWritable = true) : v.isLong = false := by
  cases v with
  | int n =>
      show (!(Value.int n).isWritable) = false
      rw [h]
      rfl
  | _ => rfl

theorem writeItems_text (hst : st.IsBlank) {xs : List Value} (hlong : ∀ x ∈ xs, x.isLong = false)
    (hxs : ∀ x ∈ xs, ∀ level, ∃ t, write st level x = .ok t ∧ IsText st x t) (level : Nat) :
    ∃ t, writeItems st level xs = .ok t ∧ AreItems st xs t := by
  induction xs with
  | nil => exact ⟨"", by rw [writeItems], areItems_nil⟩
  | cons x xs ih =>
      obtain ⟨first, hfirst, htext⟩ := hxs x List.mem_cons_self level
      obtain ⟨t, ht, hitems⟩ := ih (fun y hy => hlong y (List.mem_cons_of_mem x hy)) fun y hy =>
        hxs y (List.mem_cons_of_mem x hy)
      refine ⟨_, ?_, areItems_cons hst level htext hitems⟩
      rw [writeItems, hfirst, ht, setOff, hlong x List.mem_cons_self]
      rfl

theorem writeMembers_text (hst : st.IsBlank) {es : List (Value × Value)}
    (hkeys : ∀ e ∈ es, ∃ s, e.1 = .str s)
    (hes : ∀ e ∈ es, ∀ level, ∃ t, write st level e.2 = .ok t ∧ IsText st e.2 t) (level : Nat) :
    ∃ t, writeMembers st level es = .ok t ∧ AreMembers st es t := by
  induction es with
  | nil => exact ⟨"", by rw [writeMembers], areMembers_nil⟩
  | cons e es ih =>
      obtain ⟨name, hname⟩ := hkeys e List.mem_cons_self
      obtain ⟨text, htext, hv⟩ := hes e List.mem_cons_self level
      obtain ⟨t, ht, hmembers⟩ := ih (fun d hd => hkeys d (List.mem_cons_of_mem e hd)) fun d hd =>
        hes d (List.mem_cons_of_mem e hd)
      obtain ⟨k, v⟩ := e
      obtain rfl : k = .str name := hname
      refine ⟨_, ?_, areMembers_cons hst level hv hmembers⟩
      rw [writeMembers, htext, ht]
      simp only [keyFault?, keyText, Value.text, after, andThen, memberText, String.append_assoc]

/-- A value that has a form and no number that is too long is written as a text
from which it is read. -/
theorem write_text (hst : st.IsBlank) {v : Value} (hv : HasForm v) (hwritable : v.isWritable = true)
    (level : Nat) :
    ∃ t, write st level v = .ok t ∧ IsText st v t := by
  induction hv generalizing level with
  | null => exact ⟨"null", by rw [write], isText_null⟩
  | bool b => exact ⟨_, by rw [write], isText_bool b⟩
  | int n =>
      have hlong := isLong_of_isWritable hwritable
      refine ⟨toString n, ?_, isText_int hlong⟩
      rw [write, intText, hlong]
      rfl
  | float hx => exact ⟨_, by rw [write], isText_float hx⟩
  | str s => exact ⟨_, by rw [write], isText_str s⟩
  | @list xs _ ih =>
      have hall : ∀ x ∈ xs, x.isWritable = true := allWritable_iff.mp hwritable
      cases xs with
      | nil =>
          refine ⟨"[]", by rw [write, writeList], ⟨_, _,
            rfl, by decide, by decide, by decide⟩, fun _ => isPlain_of_all (by decide), ?_⟩
          intro fuel rest hfuel _
          obtain ⟨fuel, rfl⟩ :=
            Nat.exists_eq_succ_of_ne_zero (Nat.ne_of_gt (Nat.lt_of_lt_of_le Nat.zero_lt_two hfuel))
          rfl
      | cons x xs =>
          obtain ⟨first, hfirst, htext⟩ :=
            ih x List.mem_cons_self (hall x List.mem_cons_self) (level + 1)
          obtain ⟨t, ht, hitems⟩ :=
            writeItems_text hst
              (fun y hy => isLong_of_isWritable (hall y (List.mem_cons_of_mem x hy)))
            (fun y hy =>
              ih y (List.mem_cons_of_mem x hy) (hall y (List.mem_cons_of_mem x hy))) (level + 1)
          refine ⟨_, ?_, isText_list hst level htext hitems⟩
          rw [write, writeList, hfirst, ht, setOff,
            isLong_of_isWritable (hall x List.mem_cons_self)]
          rfl
  | @map es hkeys honce _ ih =>
      have hall : ∀ e ∈ es, e.2.isWritable = true := (entriesWritable_iff hkeys).mp hwritable
      cases es with
      | nil =>
          refine ⟨"\x7b\x7d", by rw [write], ⟨_, _,
            rfl, by decide, by decide, by decide⟩, fun _ => isPlain_of_all (by decide), ?_⟩
          intro fuel rest hfuel _
          obtain ⟨fuel, rfl⟩ :=
            Nat.exists_eq_succ_of_ne_zero (Nat.ne_of_gt (Nat.lt_of_lt_of_le Nat.zero_lt_two hfuel))
          rfl
      | cons e es =>
          have hentries := Value.ofEntries_eq_self hkeys honce
          obtain ⟨name, hname⟩ := hkeys e List.mem_cons_self
          obtain ⟨text, htext, hv⟩ :=
            ih e List.mem_cons_self (hall e List.mem_cons_self) (level + 1)
          obtain ⟨t, ht, hmembers⟩ :=
            writeMembers_text hst (fun d hd => hkeys d (List.mem_cons_of_mem e hd))
            (fun d hd =>
              ih d (List.mem_cons_of_mem e hd) (hall d (List.mem_cons_of_mem e hd))) (level + 1)
          obtain ⟨k, v⟩ := e
          obtain rfl : k = .str name := hname
          refine ⟨_, ?_, isText_map hst level hv hmembers hentries⟩
          rw [write, writeMember, htext, ht]
          simp only [keyFault?, keyText, Value.text, after, andThen, memberText,
            String.append_assoc]

theorem read_print (hst : st.IsBlank) {v : Value} (hv : HasForm v)
    (hwritable : v.isWritable = true) :
    ∃ t, print st v = .ok t ∧ Json.read t = .ok v ∧ ArePlain st t := by
  obtain ⟨t, ht, htext⟩ := write_text hst hv hwritable 0
  refine ⟨t, ht, ?_, htext.plain⟩
  obtain ⟨c, cs, hcs, hc, -, hplain⟩ := htext.starts
  have hmark : (t.toList.head? == some (Char.ofNat 0xfeff)) = false := by
    rw [hcs, List.head?_cons, beq_eq_false_iff_ne]
    intro heq
    rw [Option.some.inj heq] at hplain
    exact absurd hplain.1 (by decide)
  have hskip : skipSpace t.toList = t.toList := by
    rw [hcs]
    exact skipSpace_blanks (show AreBlanks [] from fun _ h => absurd h List.not_mem_nil) hc cs
  have hvalue : readValue (2 * t.toList.length + 2) (t.toList ++ []) = .ok (v, []) :=
    htext.read (by omega) fun c hc => by cases hc
  rw [List.append_nil] at hvalue
  unfold Json.read
  simp only [hmark, hskip, hvalue]
  rfl

/-! ## Numbers that are too long -/

def EndsLong (w : Writing) : Prop :=
  ∃ s, w = .error (s, .longNumber)

theorem EndsLong.after {w : Writing} (h : EndsLong w) (start : String) :
    EndsLong (after start w) := by
  obtain ⟨s, rfl⟩ := h
  exact ⟨start ++ s, rfl⟩

theorem EndsLong.andThen {w : Writing} (h : EndsLong w) (next : Writing) :
    EndsLong (andThen w next) := by
  obtain ⟨s, rfl⟩ := h
  exact ⟨s, rfl⟩

theorem endsLong_andThen {next : Writing} (t : String) (h : EndsLong next) :
    EndsLong (andThen (.ok t) next) :=
  h.after t

theorem after_after (a b : String) (w : Writing) : after a (after b w) = after (a ++ b) w := by
  cases w <;> simp [after, String.append_assoc]

/-- A value that can be written has a text, and any other ends the writing. -/
def EndsIfLong (st : Style) (v : Value) : Prop :=
  ∀ level, (v.isWritable = true → ∃ t, write st level v = .ok t) ∧
    (v.isWritable = false → EndsLong (write st level v))

theorem endsLong_member {v : Value} (hv : EndsIfLong st v) (level : Nat) (mark : String)
    {next : Writing} (hnext : v.isWritable = true → EndsLong next) :
    EndsLong (andThen (after mark (write st level v)) next) := by
  by_cases hwritable : v.isWritable = true
  · obtain ⟨t, ht⟩ := (hv level).1 hwritable
    rw [ht]
    exact endsLong_andThen _ (hnext hwritable)
  · exact (((hv level).2 (Bool.eq_false_iff.mpr hwritable)).after mark).andThen next

/-- A list is written up to its first item that cannot be written. -/
theorem endsLong_item {x : Value} (hx : EndsIfLong st x) (level : Nat) (mark : String)
    {next : Writing} (hnext : x.isWritable = true → EndsLong next) :
    EndsLong (andThen (setOff mark x (write st level x)) next) := by
  unfold Writing.setOff
  split
  next hlong =>
    have hwritable : x.isWritable = false := Bool.eq_false_iff.mpr fun h => by
      simp [isLong_of_isWritable h] at hlong
    exact ((hx level).2 hwritable).andThen next
  next => exact endsLong_member hx level mark hnext

theorem writeItems_long {xs : List Value} (hxs : ∀ x ∈ xs, EndsIfLong st x)
    (h : Value.allWritable xs = false) (level : Nat) : EndsLong (writeItems st level xs) := by
  induction xs with
  | nil => cases h
  | cons x xs ih =>
      rw [writeItems]
      refine endsLong_item (hxs x List.mem_cons_self) level _ fun hx => ?_
      rw [Value.allWritable, hx, Bool.true_and] at h
      exact ih (fun y hy => hxs y (List.mem_cons_of_mem x hy)) h

theorem writeMembers_long {es : List (Value × Value)} (hkeys : ∀ e ∈ es, ∃ s, e.1 = .str s)
    (hes : ∀ e ∈ es, EndsIfLong st e.2) (h : Value.entriesWritable es = false) (level : Nat) :
    EndsLong (writeMembers st level es) := by
  induction es with
  | nil => cases h
  | cons e es ih =>
      obtain ⟨name, hname⟩ := hkeys e List.mem_cons_self
      have hv := hes e List.mem_cons_self
      obtain ⟨k, v⟩ := e
      obtain rfl : k = .str name := hname
      rw [writeMembers]
      show EndsLong (andThen (after _ (after _ (after _ (write st level v)))) _)
      rw [after_after, after_after]
      refine endsLong_member hv level _ fun hwritable => ?_
      rw [entriesWritable_cons, hwritable, Bool.true_and] at h
      exact ih (fun d hd => hkeys d (List.mem_cons_of_mem _ hd))
        (fun d hd => hes d (List.mem_cons_of_mem _ hd)) h

theorem write_long (hst : st.IsBlank) {v : Value} (hv : HasForm v) (hlong : v.isWritable = false)
    (level : Nat) :
    EndsLong (write st level v) := by
  induction hv generalizing level with
  | int n =>
      have hlong' : Value.isLong (.int n) = true := by
        show (!(Value.int n).isWritable) = true
        rw [hlong]
        rfl
      rw [write, intText, hlong']
      exact ⟨_, rfl⟩
  | null | bool _ | float _ | str _ => cases hlong
  | @list xs hform ih =>
      have hall : ∀ x ∈ xs, EndsIfLong st x := fun x hx level =>
        ⟨fun h => (write_text hst (hform x hx) h level).imp fun _ ht => ht.1, fun h =>
          ih x hx h level⟩
      cases xs with
      | nil => cases hlong
      | cons x xs =>
          rw [write, writeList]
          refine endsLong_item (hall x List.mem_cons_self) (level + 1) _ fun hx => ?_
          rw [Value.isWritable, Value.allWritable, hx, Bool.true_and] at hlong
          exact (writeItems_long (fun y hy => hall y (List.mem_cons_of_mem x hy)) hlong
            (level + 1)).andThen _
  | @map es hkeys _ hform ih =>
      have hall : ∀ e ∈ es, EndsIfLong st e.2 := fun e he level =>
        ⟨fun h => (write_text hst (hform e he) h level).imp fun _ ht => ht.1, fun h =>
          ih e he h level⟩
      cases es with
      | nil => cases hlong
      | cons e es =>
          obtain ⟨name, hname⟩ := hkeys e List.mem_cons_self
          have hv := hall e List.mem_cons_self
          obtain ⟨k, v⟩ := e
          obtain rfl : k = .str name := hname
          rw [write, writeMember]
          show EndsLong (andThen (after _ (after _ (after _ (write st (level + 1) v)))) _)
          rw [after_after, after_after]
          refine endsLong_member hv (level + 1) _ fun hwritable => ?_
          rw [Value.isWritable, entriesWritable_cons, hwritable, Bool.true_and] at hlong
          exact (writeMembers_long (fun d hd => hkeys d (List.mem_cons_of_mem _ hd))
            (fun d hd => hall d (List.mem_cons_of_mem _ hd)) hlong (level + 1)).andThen _

end ImportAudit.Json
