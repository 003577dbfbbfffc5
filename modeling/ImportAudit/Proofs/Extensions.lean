import ImportAudit.Extensions
import ImportAudit.Proofs.Sequencing
import ImportAudit.Proofs.Text.Lower

/-!
# Extensions in normal form

The normal form of an extension is its own normal form. So it does not matter that a list of
extensions is brought to normal form once more for every name that is tried.
-/

namespace ImportAudit.Extensions

variable {e x : String} {es xs : List String}

/-! ## One extension -/

/-- What a normal form is: a text in lower case that starts with a dot, and has
no blank at its ends. -/
theorem normal?_spec (h : normal? x = some e) :
    (∀ c ∈ e.toList, Text.IsLow c) ∧ e.toList.head? = some '.' ∧
      Text.FreeEnds Text.isBlank e.toList := by
  have hlow : ∀ c ∈ (Text.lower (Text.trim x)).toList, Text.IsLow c := by
    intro c hc
    rw [Text.lower, String.toList_ofList] at hc
    exact Text.isLow_of_mem_lowerFrom hc
  have hfree : Text.FreeEnds Text.isBlank (Text.lower (Text.trim x)).toList := by
    rw [Text.lower, String.toList_ofList, Text.trim, Text.trimWith, String.toList_ofList]
    exact Text.freeEnds_lowerFrom (Text.freeEnds_trimList _ _)
  simp only [normal?] at h
  generalize Text.lower (Text.trim x) = low at h hlow hfree
  split at h
  · cases h
  next hdot =>
    obtain rfl := Option.some.inj h
    exact ⟨hlow, by rw [hdot]; rfl, hfree⟩
  next hempty _ =>
    obtain rfl := Option.some.inj h
    have hdot : Text.IsLow '.' := by decide +kernel
    have hne : low.toList ≠ [] := hempty
    rw [String.toList_append]
    refine ⟨?_, rfl, ?_, ?_⟩
    · intro c hc
      rcases List.mem_cons.mp hc with rfl | hc
      · exact hdot
      · exact hlow c hc
    · intro c hc
      cases hc
      rfl
    · intro c hc
      rw [List.getLast?_append, List.getLast?_eq_some_getLast hne, Option.some_or] at hc
      exact hfree.2 c (List.getLast?_eq_some_getLast hne ▸ hc)

theorem normal?_normal? (h : normal? x = some e) : normal? e = some e := by
  obtain ⟨hlow, hdot, hfree⟩ := normal?_spec h
  have hsame : Text.lower (Text.trim e) = e := by
    rw [Text.lower, Text.trim, Text.trimWith, String.toList_ofList, Text.trimList_of_freeEnds hfree,
      Text.lowerFrom_eq_self hlow, String.ofList_toList]
  obtain ⟨rest, hrest⟩ := List.head?_eq_some_iff.mp hdot
  rw [normal?, hsame, hrest]
  rfl

/-! ## Lists of extensions -/

theorem mem_normalize : e ∈ normalize es ↔ ∃ x ∈ es, normal? x = some e := by
  rw [normalize, List.mem_eraseDups, List.mem_filterMap]

theorem mem_normalize_normalize : e ∈ normalize (normalize es) ↔ e ∈ normalize es := by
  rw [mem_normalize]
  constructor
  · rintro ⟨x, hx, he⟩
    obtain ⟨y, -, hy⟩ := mem_normalize.mp hx
    rw [normal?_normal? hy] at he
    cases he
    exact hx
  · intro he
    obtain ⟨y, -, hy⟩ := mem_normalize.mp he
    exact ⟨e, he, normal?_normal? hy⟩

/-- Whether a name ends with an extension in normal form when it is in lower case. -/
def Allows (es : List String) (name : String) : Prop :=
  ∃ e ∈ normalize es, e.toList <:+ (Text.lower name).toList

theorem allow_normalize {name : String} : allow (normalize es) name = true ↔ Allows es name := by
  simp only [allow, Allows, List.any_eq_true, mem_normalize_normalize, List.isPrefixOf_iff_prefix,
    List.reverse_prefix]

theorem ofValue_texts (es : List String) : ofValue (.list (es.map .str)) = .ok es := by
  refine bind_eq_ok_iff.mpr ⟨es.map .str, rfl, mapM_eq_ok_iff.mpr ?_⟩
  rw [List.map_map]
  rfl

end ImportAudit.Extensions
