import ImportAudit.Import.Verdict
import Mathlib.Data.List.Basic
import Mathlib.Data.List.TakeWhile

/-!
# The verdict on imports

An import is judged by the last segment of its name and by whether it is static, against the names
that the file refers to. The two lists of a verdict share out the declared ones.
-/

namespace ImportAudit

/-! ## Simple names -/

/-- A text is what follows the last dot of a name, or the whole name if there is no dot in it. -/
def IsLastSegment (name segment : String) : Prop :=
  '.' ∉ segment.toList ∧ (name = segment ∨ ∃ before, name = before ++ "." ++ segment)

/-- A name has one last segment. -/
theorem IsLastSegment.eq {name s t : String} (hs : IsLastSegment name s)
    (ht : IsLastSegment name t) : s = t := by
  have hlast : ∀ {u}, IsLastSegment name u →
      u.toList = (name.toList.reverse.takeWhile (· != '.')).reverse := by
    rintro u ⟨hdot, hname⟩
    have hfree : ∀ c ∈ u.toList.reverse, (c != '.') = true := by
      intro c hc
      simpa using ne_of_mem_of_not_mem (List.mem_reverse.mp hc) hdot
    rcases hname with rfl | ⟨before, rfl⟩
    · rw [List.takeWhile_eq_self_iff.mpr hfree, List.reverse_reverse]
    · simp [List.takeWhile_append_of_pos hfree]
  exact String.toList_injective ((hlast hs).trans (hlast ht).symm)

namespace ImportDeclaration

theorem segments_spec (name : List Char) :
    ∃ before last, segments name = before ++ [last] ∧ '.' ∉ last ∧
    (before = [] ∧ name = last ∨ before ≠ [] ∧ ∃ front, name = front ++ '.' :: last) := by
  fun_induction segments name with
  | case1 => exact ⟨[], [], rfl, List.not_mem_nil, .inl ⟨rfl, rfl⟩⟩
  | case2 cs ih =>
      obtain ⟨before, last, hsegments, hdot, hname⟩ := ih
      refine ⟨[] :: before, last, by rw [hsegments]; rfl, hdot, .inr ⟨List.cons_ne_nil _ _, ?_⟩⟩
      rcases hname with ⟨-, rfl⟩ | ⟨-, front, rfl⟩
      · exact ⟨[], rfl⟩
      · exact ⟨'.' :: front, rfl⟩
  | case3 c cs hc hnil ih =>
      obtain ⟨before, last, hsegments, -, -⟩ := ih
      rw [hsegments] at hnil
      exact absurd hnil (List.append_ne_nil_of_right_ne_nil before (List.cons_ne_nil last []))
  | case4 c cs hc first rest hcons ih =>
      obtain ⟨before, last, hsegments, hdot, hname⟩ := ih
      rw [hcons] at hsegments
      rcases hname with ⟨rfl, rfl⟩ | ⟨hbefore, front, rfl⟩
      · obtain ⟨rfl, rfl⟩ := List.cons.inj hsegments
        have hnew : '.' ≠ c := fun heq => hc heq.symm
        exact ⟨[], c :: first, rfl, by simp [hnew, hdot], .inl ⟨rfl, rfl⟩⟩
      · obtain ⟨head, tail, rfl⟩ := List.exists_cons_of_ne_nil hbefore
        obtain ⟨rfl, rfl⟩ := List.cons.inj hsegments
        exact ⟨(c :: first) :: tail, last, rfl, hdot, .inr ⟨List.cons_ne_nil _ _, c :: front, rfl⟩⟩

theorem isLastSegment_simpleName (d : ImportDeclaration) :
    IsLastSegment d.qualifiedName d.simpleName := by
  obtain ⟨before, last, hsegments, hdot, hname⟩ := segments_spec d.qualifiedName.toList
  have hsimple : d.simpleName.toList = last := by
    simp [simpleName, hsegments]
  refine ⟨hsimple ▸ hdot, ?_⟩
  rcases hname with ⟨-, hwhole⟩ | ⟨-, front, hfront⟩
  · exact .inl (String.toList_injective (hwhole.trans hsimple.symm))
  · refine .inr ⟨String.ofList front, String.toList_injective ?_⟩
    rw [hfront]
    simp [hsimple]

end ImportDeclaration

/-! ## References -/

/-- Whether two files refer to the same names in the same ways, whatever the
order and however often. -/
def References.SameNames (r s : References) : Prop :=
  (∀ name, name ∈ r.names ↔ name ∈ s.names) ∧ (∀ name, name ∈ r.types ↔ name ∈ s.types) ∧
  (∀ name, name ∈ r.annotations ↔ name ∈ s.annotations) ∧
  (∀ name, name ∈ r.calls ↔ name ∈ s.calls) ∧ (∀ name, name ∈ r.fields ↔ name ∈ s.fields)

/-- Whether a file refers to a name in a way that counts for an import. -/
def References.Uses (r : References) (isStatic : Bool) (name : String) : Prop :=
  isStatic = true ∧ (name ∈ r.calls ∨ name ∈ r.fields) ∨
  isStatic = false ∧ (name ∈ r.names ∨ name ∈ r.types ∨ name ∈ r.annotations)

theorem References.SameNames.uses_iff {r s : References} (h : r.SameNames s) (isStatic : Bool)
    (name : String) :
    r.Uses isStatic name ↔ s.Uses isStatic name := by
  obtain ⟨hnames, htypes, hannotations, hcalls, hfields⟩ := h
  rw [Uses, Uses, hnames, htypes, hannotations, hcalls, hfields]

theorem isUsed_iff {d : ImportDeclaration} {r : References} :
    d.isUsed (.ofReferences r) = true ↔ r.Uses d.isStatic d.simpleName := by
  unfold ImportDeclaration.isUsed
  cases hstatic : d.isStatic with
  | true =>
      simp [References.Uses, UsageIndex.refersToMember, UsageIndex.ofReferences, List.mem_eraseDups]
  | false =>
      simp [References.Uses, UsageIndex.refersToTypeOrName, UsageIndex.ofReferences,
        List.mem_eraseDups, or_assoc]

namespace Verdict

variable {imports : List ImportDeclaration} {r : References} {d : ImportDeclaration}

theorem mem_used : d ∈ (classify imports (.ofReferences r)).used ↔
    d ∈ imports ∧ r.Uses d.isStatic d.simpleName := by
  rw [classify, List.mem_filter, isUsed_iff]

theorem mem_unused : d ∈ (classify imports (.ofReferences r)).unused ↔
    d ∈ imports ∧ ¬r.Uses d.isStatic d.simpleName := by
  rw [classify, List.mem_filter, Bool.not_eq_true', ← isUsed_iff, Bool.not_eq_true]

theorem used_iff_used {others : List ImportDeclaration} {s : References} {e : ImportDeclaration}
    (hrefs : r.SameNames s) (hd : d ∈ imports) (he : e ∈ others)
    (hname : d.simpleName = e.simpleName) (hstatic : d.isStatic = e.isStatic) :
    d ∈ (classify imports (.ofReferences r)).used ↔
      e ∈ (classify others (.ofReferences s)).used := by
  rw [mem_used, mem_used, and_iff_right hd, and_iff_right he, hname, hstatic, hrefs.uses_iff]

theorem unused_iff_not_used (hd : d ∈ imports) :
    d ∈ (classify imports (.ofReferences r)).unused ↔
      d ∉ (classify imports (.ofReferences r)).used := by
  rw [mem_used, mem_unused, and_iff_right hd, and_iff_right hd]

theorem not_sameImport {e : ImportDeclaration} (hd : d ∈ (classify imports (.ofReferences r)).used)
    (he : e ∈ (classify imports (.ofReferences r)).unused) : ¬d.SameImport e := by
  rintro ⟨hname, hstatic⟩
  have hsimple : d.simpleName = e.simpleName := by
    unfold ImportDeclaration.simpleName
    rw [hname]
  have huses := (mem_used.mp hd).2
  rw [hsimple, hstatic] at huses
  exact (mem_unused.mp he).2 huses

end Verdict

/-- The verdict on the imports of a file, for any declarations and any references: an import is used
if and only if its simple name is referred to in a way that fits it. Both lists keep the order of
the declared ones and all repetitions, and share them out; what they say of a declaration depends on
its simple name and on whether it is static, and of the references only on which names occur. -/
theorem verdict_shares_out_imports (imports : List ImportDeclaration) (r : References) :
    let v := Verdict.classify imports (.ofReferences r)
    (∀ d ∈ imports, IsLastSegment d.qualifiedName d.simpleName ∧
      (d ∈ v.used ↔
        d.isStatic = true ∧ (d.simpleName ∈ r.calls ∨ d.simpleName ∈ r.fields) ∨
        d.isStatic = false ∧
          (d.simpleName ∈ r.names ∨ d.simpleName ∈ r.types ∨ d.simpleName ∈ r.annotations)) ∧
      (d ∈ v.unused ↔ d ∉ v.used)) ∧
    (v.used.Sublist imports ∧ ∀ d ∈ v.used, v.used.count d = imports.count d) ∧
    (v.unused.Sublist imports ∧ ∀ d ∈ v.unused, v.unused.count d = imports.count d) ∧
    v.used.length + v.unused.length = imports.length ∧
    (∀ d ∈ v.used, ∀ e ∈ v.unused, ¬d.SameImport e) ∧
    (∀ others s, r.SameNames s → ∀ d ∈ imports, ∀ e ∈ others,
      d.simpleName = e.simpleName → d.isStatic = e.isStatic →
      (d ∈ v.used ↔ e ∈ (Verdict.classify others (.ofReferences s)).used)) := by
  intro v
  refine ⟨fun d hd => ⟨d.isLastSegment_simpleName, ?_, Verdict.unused_iff_not_used hd⟩,
    ⟨List.filter_sublist, fun d hd => ?_⟩, ⟨List.filter_sublist, fun d hd => ?_⟩, ?_,
    fun d hd e he => Verdict.not_sameImport hd he, ?_⟩
  · exact Verdict.mem_used.trans (and_iff_right hd)
  · exact List.count_filter (List.mem_filter.mp hd).2
  · exact List.count_filter (List.mem_filter.mp hd).2
  · exact List.length_eq_length_filter_add _ |>.symm
  · intro others s hrefs d hd e he hname hstatic
    exact Verdict.used_iff_used hrefs hd he hname hstatic

/-- One simple name in two files that refer to it twice and once: both imports are
used, and a static one is not. -/
theorem verdict_on_one_simple_name :
    let util : ImportDeclaration := ⟨"java.util.List", false, some 1⟩
    let member : ImportDeclaration := ⟨"java.util.List", true, some 2⟩
    let awt : ImportDeclaration := ⟨"java.awt.List", false, some 3⟩
    let v := Verdict.classify [util, member, util] (.ofReferences { types := ["List", "List"] })
    util ∈ v.used ∧ v.used.count util = 2 ∧ member ∈ v.unused ∧
      awt ∈ (Verdict.classify [awt] (.ofReferences { types := ["List"] })).used := by
  intro util member awt v
  obtain ⟨hverdict, ⟨-, hcount⟩, -, -, -, halike⟩ :=
    verdict_shares_out_imports [util, member, util] { types := ["List", "List"] }
  have hutil : util ∈ v.used := (hverdict util (by decide)).2.1.mpr (by decide)
  have hnames : References.SameNames { types := ["List", "List"] } { types := ["List"] } := by
    simp [References.SameNames]
  have hawt := halike [awt] _ hnames util (by decide) awt (by decide) (by decide) rfl
  exact ⟨hutil, hcount util hutil, (hverdict member (by decide)).2.2.mpr (by decide), hawt.mp hutil⟩

end ImportAudit
