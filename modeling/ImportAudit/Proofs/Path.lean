import ImportAudit.Path

/-!
# Paths and what is below them

A path is joined with segments below it. The order of paths is that of the segments, so that below
one path it is the order of what comes after it.
-/

namespace ImportAudit.Path

variable {p q : Path} {s t : List String}

@[simp] theorem segments_join (p : Path) (s : List String) :
    (p.join { parts := s }).segments = p.segments ++ s := by
  unfold join Path.segments
  cases hroot : p.root == "" <;> simp [hroot]

theorem join_inj (h : p.join { parts := s } = p.join { parts := t }) : s = t := by
  have hsegments := congrArg Path.segments h
  rw [segments_join, segments_join] at hsegments
  exact List.append_cancel_left hsegments

theorem join_nil (p : Path) : p.join { parts := [] } = p := by
  change Path.mk p.root (p.parts ++ []) = p
  rw [List.append_nil]

theorem join_join (p : Path) (s t : List String) :
    (p.join { parts := s }).join { parts := t } = p.join { parts := s ++ t } := by
  change Path.mk p.root ((p.parts ++ s) ++ t) = Path.mk p.root (p.parts ++ (s ++ t))
  rw [List.append_assoc]

theorem name_join (h : s ≠ []) : (p.join { parts := s }).name = s.getLast?.getD "" := by
  change ((p.parts ++ s).getLast?.getD "") = _
  rw [List.getLast?_append, List.getLast?_eq_some_getLast h, Option.some_or]

theorem parent_join_name (p : Path) :
    p.parent.join { parts := if p.parts = [] then [] else [p.name] } = p := by
  obtain ⟨root, parts⟩ := p
  change Path.mk root (parts.dropLast ++ _) = Path.mk root parts
  by_cases hparts : parts = []
  · rw [if_pos hparts, hparts]
    rfl
  · rw [if_neg hparts, Path.name, List.getLast?_eq_some_getLast hparts, Option.getD_some,
      List.dropLast_concat_getLast]

@[simp] theorem relativeTo?_join (p : Path) (s : List String) :
    (p.join { parts := s }).relativeTo? p = some s := by
  have hprefix : p.segments.isPrefixOf (p.join { parts := s }).segments = true := by
    rw [segments_join, List.isPrefixOf_iff_prefix]
    exact List.prefix_append _ _
  rw [relativeTo?, hprefix]
  change (if (true && (p.root == p.root)) = true then some ((p.parts ++ s).drop p.parts.length) else
      none) = some s
  simp

/-- A path is what it lies below and what it is below that. -/
theorem parts_of_relativeTo? (h : p.relativeTo? q = some s) :
    p.root = q.root ∧ p.parts = q.parts ++ s := by
  unfold relativeTo? at h
  split at h
  next hbelow =>
    rw [Bool.and_eq_true, beq_iff_eq, List.isPrefixOf_iff_prefix] at hbelow
    obtain ⟨hstart, hroot⟩ := hbelow
    have hparts : q.parts <+: p.parts := by
      unfold segments at hstart
      rw [hroot] at hstart
      split at hstart
      · exact hstart
      · exact (List.prefix_cons_inj _).mp hstart
    obtain ⟨rest, hrest⟩ := hparts
    rw [← hrest, List.drop_left, Option.some.injEq] at h
    exact ⟨hroot, by rw [← hrest, h]⟩
  next => cases h

/-! ## The path beside a path -/

def temporary (p : Path) : Path :=
  p.parent.child (p.name ++ ".tmp")

theorem parts_eq_of_name (h : p.name ≠ "") : p.parts = p.parts.dropLast ++ [p.name] := by
  have hne : p.parts ≠ [] := by
    intro hnil
    apply h
    rw [Path.name, hnil]
    rfl
  rw [Path.name, List.getLast?_eq_some_getLast hne, Option.getD_some, List.dropLast_concat_getLast]

theorem withName?_temporary (h : p.name ≠ "") :
    p.withName? (p.name ++ ".tmp") = some p.temporary := by
  have hparts : p.parts.isEmpty = false := by
    rw [parts_eq_of_name h]
    simp
  rw [withName?, hparts]
  rfl

theorem intercalate_concat (joint s t : String) (init : List String) :
    joint.intercalate (init ++ [s ++ t]) = joint.intercalate (init ++ [s]) ++ t := by
  apply String.toList_inj.mp
  simp only [String.toList_append, String.toList_intercalate, List.map_append,
    List.map_cons, List.map_nil]
  induction init with
  | nil => simp
  | cons x init ih => cases init <;> simp_all [List.intercalate_cons_cons]

theorem text_temporary (h : p.name ≠ "") : p.temporary.text = p.text ++ ".tmp" := by
  have hparts := parts_eq_of_name h
  have hplain : p.text = p.root ++ "/".intercalate (p.parts.dropLast ++ [p.name]) := by
    rw [← hparts, text, if_neg]
    · rfl
    · rw [hparts]
      simp
  have hbeside :
      p.temporary.text = p.root ++ "/".intercalate (p.parts.dropLast ++ [p.name ++ ".tmp"]) := by
    rw [text, if_neg]
    · rfl
    · simp [temporary, child]
  rw [hplain, hbeside, intercalate_concat, String.append_assoc]

/-! ## Null characters -/

theorem hasNull_eq_false_iff :
    p.hasNull = false ↔ Char.ofNat 0 ∉ p.root.toList ∧ ∀ s ∈ p.parts, Char.ofNat 0 ∉ s.toList := by
  have hjoined (parts : List String) :
      Char.ofNat 0 ∈ ("/".intercalate parts).toList ↔ ∃ s ∈ parts, Char.ofNat 0 ∈ s.toList := by
    rw [String.toList_intercalate]
    induction parts with
    | nil => simp
    | cons s parts ih =>
        cases parts with
        | nil => simp
        | cons t parts =>
            rw [List.map_cons, List.map_cons, List.intercalate_cons_cons, List.mem_append,
              List.mem_append, ← List.map_cons, ih]
            simp
  have htext : Char.ofNat 0 ∈ p.text.toList ↔ Char.ofNat 0 ∈ p.plainText.toList := by
    unfold text
    split
    · rename_i hempty
      rw [Bool.and_eq_true, beq_iff_eq, List.isEmpty_iff] at hempty
      rw [plainText, hempty.1, hempty.2]
      decide
    · rfl
  rw [hasNull, List.contains_eq_mem, decide_eq_false_iff_not, htext, plainText,
    String.toList_append, List.mem_append, hjoined]
  simp

theorem hasNull_parent (h : p.hasNull = false) : p.parent.hasNull = false := by
  obtain ⟨hroot, hparts⟩ := hasNull_eq_false_iff.mp h
  exact hasNull_eq_false_iff.mpr ⟨hroot, fun s hs => hparts s (List.dropLast_subset _ hs)⟩

theorem hasNull_join (h : p.hasNull = false) (hs : ∀ x ∈ s, Char.ofNat 0 ∉ x.toList) :
    (p.join { parts := s }).hasNull = false := by
  obtain ⟨hroot, hparts⟩ := hasNull_eq_false_iff.mp h
  exact hasNull_eq_false_iff.mpr ⟨hroot, List.forall_mem_append.mpr ⟨hparts, hs⟩⟩

/-! ## The order of paths -/

theorem not_before : (!q.before p) = true ↔ ¬ q.segments < p.segments := by
  simp [before]

theorem lt_of_append_lt_append {a b l : List String} (h : l ++ a < l ++ b) : a < b := by
  induction l with
  | nil => exact h
  | cons x l ih =>
      rcases List.cons_lt_cons_iff.mp h with hlt | ⟨-, hlt⟩
      · exact absurd hlt (String.lt_irrefl x)
      · exact ih hlt

theorem lt_of_join_lt_join
    (h : (p.join { parts := s }).segments < (p.join { parts := t }).segments) : s < t := by
  rw [segments_join, segments_join] at h
  exact lt_of_append_lt_append h

end ImportAudit.Path
