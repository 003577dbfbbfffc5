import ImportAudit.Path
import ImportAudit.Proofs.Extensions
import ImportAudit.Proofs.Text.LowerContext
import Mathlib.Data.List.Forall2

/-!
# Names that carry an extension

A name is tried in lower case as a whole, and an extension in lower case alone. The two agree
on the end of the name, but for a capital sigma that is the last letter of a word in the one
and a word of its own in the other.
-/

namespace ImportAudit

theorem Path.name_ofString {name : String} (hslash : '/' ∉ name.toList) (hempty : name ≠ "")
    (hdot : name ≠ ".") :
    (Path.ofString name).name = name := by
  have hpieces : Text.splitAt '/' name = [name] := by
    rw [Text.splitAt, Text.splitList_of_free, List.map_singleton, String.ofList_toList]
    intro c hc
    exact beq_eq_false_iff_ne.mpr fun heq => hslash (heq ▸ hc)
  rw [Path.ofString, Path.name, hpieces, List.filter_cons_of_pos (by simp [hempty, hdot])]
  rfl

namespace Extensions

variable {s e x name : String} {es es' : List String}

theorem allow_iff : allow es name = true ↔
    ∃ n ∈ normalize es, n.toList <:+ (Text.lower name).toList := by
  simp only [allow, List.any_eq_true, List.isPrefixOf_iff_prefix, List.reverse_prefix]

/-! ## Case -/

theorem normal?_lower (x : String) : normal? (Text.lower x) = normal? x := by
  have hsame : Text.lower (Text.trim (Text.lower x)) = Text.lower (Text.trim x) := by
    rw [Text.trim_lower, Text.lower_lower]
  rw [normal?, normal?, hsame]

theorem normalize_of_lowered (h : List.Forall₂ (fun x x' => x' = x ∨ x' = Text.lower x) es es') :
    normalize es' = normalize es := by
  have hforms : es'.filterMap normal? = es.filterMap normal? := by
    induction h with
    | nil => rfl
    | @cons x x' es es' hx _ ih =>
        have hnormal : normal? x' = normal? x := by
          rcases hx with rfl | rfl
          · rfl
          · exact normal?_lower x
        rw [List.filterMap_cons, List.filterMap_cons, hnormal, ih]
  rw [normalize, normalize, hforms]

/-! ## A listed extension -/

/-- An extension as it can be written in a list: something without a dot before it
and without blanks around it. -/
structure IsBare (e : String) : Prop where
  nonempty : e ≠ ""
  free : Text.FreeEnds Text.isBlank e.toList
  dotless : e.toList.head? ≠ some '.'

theorem normal?_eq (x : String) :
    normal? x = if Text.lower (Text.trim x) = "" then none
      else if (Text.lower (Text.trim x)).toList.head? = some '.' then
        some (Text.lower (Text.trim x))
      else some ("." ++ Text.lower (Text.trim x)) := by
  simp only [normal?]
  generalize Text.lower (Text.trim x) = low
  split
  next hlow =>
    rw [if_pos (String.toList_eq_nil_iff.mp hlow)]
  next hlow =>
    have hne : low ≠ "" := by
      rintro rfl
      cases hlow
    rw [if_neg hne, if_pos (by rw [hlow]; rfl)]
  next hempty hdot =>
    have hne : low ≠ "" := fun h => hempty (String.toList_eq_nil_iff.mpr h)
    have hhead : low.toList.head? ≠ some '.' := by
      intro h
      obtain ⟨rest, hrest⟩ := List.head?_eq_some_iff.mp h
      exact hdot rest hrest
    rw [if_neg hne, if_neg hhead]

theorem IsBare.trim_eq (h : IsBare e) : Text.trim e = e := by
  rw [Text.trim, Text.trimWith, Text.trimList_of_freeEnds h.free, String.ofList_toList]

theorem IsBare.exists_cons (h : IsBare e) : ∃ c cs, e.toList = c :: cs ∧ c ≠ '.' := by
  cases hcs : e.toList with
  | nil => exact absurd (String.toList_eq_nil_iff.mp hcs) h.nonempty
  | cons c cs =>
      refine ⟨c, cs, rfl, fun hdot => h.dotless ?_⟩
      rw [hcs, hdot]
      rfl

theorem IsBare.normal?_bare (h : IsBare e) : normal? e = some ("." ++ Text.lower e) := by
  obtain ⟨c, cs, hcs, hc⟩ := h.exists_cons
  have hne := Text.lowerAt_ne_nil [] c cs
  have hlow : (Text.lower e).toList = Text.lowerAt [] c cs ++ Text.lowerFrom [c] cs := by
    rw [Text.toList_lower, hcs, Text.lowerFrom_cons]
  have hhead : (Text.lower e).toList.head? ≠ some '.' := by
    rw [hlow, List.head?_append, List.head?_eq_some_head hne, Option.some_or]
    intro hdot
    exact hc (Text.eq_dot_of_mem_lowerAt (Option.some.inj hdot ▸ List.head_mem hne))
  have hempty : Text.lower e ≠ "" := by
    intro hnil
    rw [hnil] at hlow
    exact hne (List.append_eq_nil_iff.mp hlow.symm).1
  rw [normal?_eq, h.trim_eq, if_neg hempty, if_neg hhead]

theorem toList_dotted (e : String) : ("." ++ e).toList = '.' :: e.toList := by
  rw [String.toList_append]
  rfl

theorem dotted_ne_empty (e : String) : "." ++ e ≠ "" := by
  intro h
  have hnil := toList_dotted e
  rw [h] at hnil
  cases hnil

/-- A dot before an extension is skipped, so that the extension is lower-cased as it is alone. -/
theorem lower_dotted (e : String) : Text.lower ("." ++ e) = "." ++ Text.lower e := by
  have halone : Text.meetsCased ['.'] = false := by
    rw [Text.meetsCased_cons, if_pos Text.dot_skipped]
    rfl
  apply String.toList_inj.mp
  rw [Text.toList_lower, toList_dotted, Text.lowerFrom_dot, Text.lowerFrom_alone halone,
    toList_dotted, Text.toList_lower]

theorem IsBare.normal?_dotted (h : IsBare e) : normal? ("." ++ e) = some ("." ++ Text.lower e) := by
  obtain ⟨c, cs, hcs, -⟩ := h.exists_cons
  have hfree : Text.FreeEnds Text.isBlank ("." ++ e).toList := by
    rw [toList_dotted]
    refine ⟨fun d hd => ?_, fun d hd => h.free.2 d ?_⟩
    · cases hd
      rfl
    · rw [hcs] at hd ⊢
      exact hd
  have htrim : Text.trim ("." ++ e) = "." ++ e := by
    rw [Text.trim, Text.trimWith, Text.trimList_of_freeEnds hfree, String.ofList_toList]
  have hhead : ("." ++ Text.lower e).toList.head? = some '.' := by
    rw [toList_dotted]
    rfl
  rw [normal?_eq, htrim, lower_dotted, if_neg (dotted_ne_empty _), if_pos hhead]

/-! ## Names that carry it -/

/-- Whether the text before the dot ends in a letter and the first letter after it is a capital
sigma that no letter follows. The sigma then comes last in a word of the whole name, and is a word
of its own in the extension. -/
def SplitsWord (s e : String) : Prop :=
  Text.meetsCased s.toList.reverse = true ∧ Text.startsFinal e.toList = true

instance (s e : String) : Decidable (SplitsWord s e) :=
  inferInstanceAs (Decidable (_ ∧ _))

theorem lowerFrom_after_stem (s e : String) :
    Text.lowerFrom ('.' :: s.toList.reverse) e.toList = Text.lowerFrom [] e.toList ↔
      ¬ SplitsWord s e := by
  have hbefore : Text.meetsCased ('.' :: s.toList.reverse) = Text.meetsCased s.toList.reverse := by
    rw [Text.meetsCased_cons, if_pos Text.dot_skipped]
  unfold SplitsWord
  cases hstem : Text.meetsCased s.toList.reverse with
  | false =>
      rw [hstem] at hbefore
      exact iff_of_true (Text.lowerFrom_alone hbefore _) (by simp)
  | true =>
      rw [hstem] at hbefore
      rw [Text.lowerFrom_eq_alone_iff hbefore]
      simp

/-- A name in lower case ends with the lower-case form of its extension, unless
that splits a word. -/
theorem suffix_lower_iff (s e : String) :
    ("." ++ Text.lower e).toList <:+ (Text.lower (s ++ "." ++ e)).toList ↔ ¬ SplitsWord s e := by
  have hname : (s ++ "." ++ e).toList = s.toList ++ '.' :: e.toList := by
    rw [String.append_assoc, String.toList_append, toList_dotted]
  have hend := Text.suffix_lowerFrom_append [] s.toList ('.' :: e.toList)
  rw [List.append_nil, Text.lowerFrom_dot] at hend
  rw [toList_dotted, Text.toList_lower, Text.toList_lower, hname, ← lowerFrom_after_stem]
  constructor
  · intro hsuffix
    have hlength : ('.' :: Text.lowerFrom [] e.toList).length =
        ('.' :: Text.lowerFrom ('.' :: s.toList.reverse) e.toList).length := by
      rw [List.length_cons, List.length_cons, Text.length_lowerFrom [] ('.' :: s.toList.reverse)]
    have hsame :=
      (List.suffix_of_suffix_length_le hsuffix hend (Nat.le_of_eq hlength)).eq_of_length hlength
    exact (List.cons.inj hsame).2.symm
  · intro hsame
    rwa [hsame] at hend

theorem IsBare.normal?_listed (h : IsBare e) (hx : x = e ∨ x = "." ++ e) :
    normal? x = some ("." ++ Text.lower e) := by
  rcases hx with rfl | rfl
  · exact h.normal?_bare
  · exact h.normal?_dotted

/-- A file that carries a listed extension is accepted, unless the first letter of the extension is
a capital sigma that no letter follows and the name before the dot ends in a letter: then lists with
nothing but that extension refuse it. It makes no difference whether the name of a file or entries
of the list are written in lower case. -/
theorem listed_extension_accepted (s e : String) (hslash : '/' ∉ s.toList ∧ '/' ∉ e.toList)
    (he : IsBare e) :
    (¬ SplitsWord s e → ∀ es, e ∈ es ∨ "." ++ e ∈ es →
      allow es (Path.ofString (s ++ "." ++ e)).name = true) ∧
    (SplitsWord s e → ∀ es, (∀ x ∈ es, x = e ∨ x = "." ++ e) →
      allow es (Path.ofString (s ++ "." ++ e)).name = false) ∧
    (∀ es name, allow es (Text.lower name) = allow es name) ∧
    ∀ es es' name, List.Forall₂ (fun x x' => x' = x ∨ x' = Text.lower x) es es' →
      allow es' name = allow es name := by
  obtain ⟨c, cs, hcs, hc⟩ := he.exists_cons
  have htext : (s ++ "." ++ e).toList = s.toList ++ '.' :: e.toList := by
    rw [String.append_assoc, String.toList_append, toList_dotted]
  have hname : (Path.ofString (s ++ "." ++ e)).name = s ++ "." ++ e := by
    apply Path.name_ofString
    · rw [htext]
      simp [hslash]
    · intro h
      rw [h] at htext
      simp at htext
    · intro h
      rw [h, hcs] at htext
      have hlength := congrArg List.length htext
      simp at hlength
      omega
  rw [hname]
  refine ⟨fun hkept es hlisted => ?_, fun hsplit es hlisted => ?_, fun es name => ?_,
    fun es es' name h => ?_⟩
  · rw [allow_iff]
    refine ⟨"." ++ Text.lower e, mem_normalize.mpr ?_, (suffix_lower_iff s e).mpr hkept⟩
    rcases hlisted with hlisted | hlisted
    · exact ⟨e, hlisted, he.normal?_bare⟩
    · exact ⟨"." ++ e, hlisted, he.normal?_dotted⟩
  · rw [Bool.eq_false_iff, ne_eq, allow_iff]
    rintro ⟨n, hn, hsuffix⟩
    obtain ⟨x, hx, hnormal⟩ := mem_normalize.mp hn
    rw [he.normal?_listed (hlisted x hx), Option.some.injEq] at hnormal
    rw [← hnormal] at hsuffix
    exact (suffix_lower_iff s e).mp hsuffix hsplit
  · rw [allow, allow, Text.lower_lower]
  · rw [allow, allow, normalize_of_lowered h]

/-- A sigma after the dot: it ends the word of a name with a letter before the dot, and is a word of
its own after a digit. -/
theorem sigma_accepted_after_digit :
    IsBare "Σ" ∧ ¬ SplitsWord "1" "Σ" ∧ SplitsWord "a" "Σ" ∧
      allow ["java", "Σ"] (Path.ofString ("1" ++ "." ++ "Σ")).name = true ∧
      allow ["Σ"] (Path.ofString ("a" ++ "." ++ "Σ")).name = false := by
  have hbare : IsBare "Σ" := by
    refine ⟨by decide, ⟨fun c hc => ?_, fun c hc => ?_⟩, by decide⟩
    all_goals
      cases hc
      rfl
  have hsigma : Text.startsFinal ['Σ'] = true := by
    rw [Text.startsFinal_cons, Text.isCaseIgnorable_eq]
    decide +kernel
  have hone : Text.meetsCased ['1'] = false := by
    rw [Text.meetsCased_cons, Text.isCaseIgnorable_eq, Text.isCased_eq]
    decide +kernel
  have ha : Text.meetsCased ['a'] = true := by
    rw [Text.meetsCased_cons, Text.isCaseIgnorable_eq, Text.isCased_eq]
    decide +kernel
  have hdigit : ¬ SplitsWord "1" "Σ" := fun h => absurd (hone.symm.trans h.1) (by decide)
  have hletter : SplitsWord "a" "Σ" := ⟨ha, hsigma⟩
  have haccepted := listed_extension_accepted "1" "Σ" (by decide) hbare
  have hrefused := listed_extension_accepted "a" "Σ" (by decide) hbare
  refine ⟨hbare, hdigit, hletter, haccepted.1 hdigit _ (.inl (by decide)), hrefused.2.1 hletter _
    fun x hx => ?_⟩
  exact .inl (List.mem_singleton.mp hx)

end Extensions

end ImportAudit
