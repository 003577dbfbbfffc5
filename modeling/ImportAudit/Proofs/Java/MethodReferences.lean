import ImportAudit.Proofs.Import.Verdict
import ImportAudit.Proofs.Java.Shapes

/-!
# Method references

A method reference has an owner and a member. The owner is referred to; the member is told from it
by the double colon, and only as long as nothing stands between the two.
-/

namespace ImportAudit.Java

open ImportAudit.Java.Tree

namespace Cursor

/-- Whether a place is that of the member of a method reference, which comes last in it. -/
def isMember (c : Cursor) : Bool :=
  c.trail.head?.any fun crumb => crumb.parent.kind = .methodReference && crumb.after.isEmpty

theorem previous?_child (p : Cursor) (before : List Tree) (t : Tree) (after : List Tree) :
    (p.child before t after).previous? = before.getLast? :=
  List.head?_reverse

/-- An identifier in a method reference is a reference unless it comes directly
after the double colon. -/
theorem name?_child {p : Cursor} {before after : List Tree} {t : Tree}
    (hparent : p.focus.kind = .methodReference) (hkind : t.kind = .identifier)
    (hrole : t.role = none) :
    (p.child before t after).name? = if before.getLast?.any isDoubleColon then none
      else some t.text := by
  have hreference : (p.child before t after).isReference = !before.getLast?.any isDoubleColon := by
    have hfocus : (p.child before t after).focus.role = none := hrole
    have hkind' : (p.child before t after).parentKind? = some .methodReference :=
      congrArg some hparent
    rw [isReference, hfocus, hkind', previous?_child]
    rfl
  have hfocus : (p.child before t after).focus.kind = .identifier := hkind
  rw [name?, hreference, hfocus]
  cases before.getLast?.any isDoubleColon <;> rfl

end Cursor

theorem IsReferenceGap.not_isDoubleColon {ts : List Tree} (h : IsReferenceGap ts) :
    ∀ t ∈ ts, t.isDoubleColon = false := by
  obtain ⟨gap, arguments, gap', rfl, hgap, hgap', harguments⟩ := h
  have hcomment : ∀ {ts}, AreComments ts → ∀ t ∈ ts, t.isDoubleColon = false := fun hts t ht => by
    obtain ⟨line, text, rfl, -⟩ := hts t ht
    rfl
  simp only [List.forall_mem_append]
  refine ⟨hcomment hgap, ?_, hcomment hgap'⟩
  rcases harguments with rfl | ⟨t, rfl, hkind⟩
  · exact fun t ht => absurd ht List.not_mem_nil
  · exact List.forall_mem_singleton.mpr (by simp [isDoubleColon, hkind])

/-- What comes directly before the member is the double colon if and only if
nothing stands between the two. -/
theorem any_isDoubleColon_getLast? {ts between : List Tree} (line : Nat)
    (h : IsReferenceGap between) :
    ((ts ++ leaf .token line "::" :: between).getLast?.any isDoubleColon = true) ↔
      between = [] := by
  rcases List.eq_nil_or_concat between with rfl | ⟨init, last, rfl⟩
  · simp [isDoubleColon, leaf, kind, ownText]
  · have hlast := h.not_isDoubleColon last (by simp)
    rw [List.concat_eq_append, ← List.cons_append, ← List.append_assoc, List.getLast?_concat,
      Option.any_some, hlast]
    simp

theorem IsMember.role_eq {t : Tree} (h : IsMember t) : t.role = none := by
  obtain ⟨line, ⟨word, -, rfl⟩ | rfl⟩ := h <;> rfl

theorem isMethodReference_of_mem_walk {source : String} {c : Cursor}
    (hc : c ∈ Cursor.walk (parse source)) (hkind : c.focus.kind = .methodReference) :
    IsMethodReference c.focus.children := by
  have hshape := (allShaped_parse source c.focus (focus_mem_of_walk hc)).shape
  rw [hkind] at hshape
  exact hshape

theorem name?_of_isMember {source : String} {c : Cursor} (hc : c ∈ Cursor.walk (parse source))
    (hmember : c.isMember = true) (hkind : c.focus.kind = .identifier) :
    c.name? = if c.previous?.any isDoubleColon then none else some c.focus.text := by
  rcases Cursor.exists_parent_of_mem_walk hc with rfl | ⟨p, hp, before, after, hchildren, hchild⟩
  · cases hmember
  · rw [hchild] at hmember
    obtain ⟨hparent, hlast⟩ : p.focus.kind = .methodReference ∧ after = [] := by
      simpa [Cursor.isMember, Cursor.child] using hmember
    obtain ⟨owner, gap, line, between, member, hshape, -, -, -, hmember⟩ :=
      isMethodReference_of_mem_walk hp hparent
    have hfocus : c.focus = member := by
      have hends :
          before ++ [c.focus] = owner :: (gap ++ leaf .token line "::" :: between) ++ [member] := by
        simpa [hlast] using hchildren.symm.trans hshape
      exact List.head_eq_of_cons_eq (List.append_inj' hends rfl).2
    have hrole : c.focus.role = none := hfocus ▸ hmember.role_eq
    rw [hchild, Cursor.name?_child hparent hkind hrole, Cursor.previous?_child]
    rfl

theorem mem_names_iff {source name : String} : name ∈ (parse source).references.names ↔
    (∃ c ∈ Cursor.walk (parse source), c.isMember = false ∧ c.name? = some name) ∨
    ∃ c ∈ Cursor.walk (parse source), c.isMember = true ∧ c.focus.kind = .identifier ∧
      c.focus.text = name ∧
      c.previous?.any isDoubleColon = false := by
  have hnames : name ∈ (parse source).references.names ↔ ∃ c ∈ Cursor.walk (parse source),
      c.name? = some name :=
    List.mem_filterMap
  rw [hnames]
  constructor
  · rintro ⟨c, hc, hname⟩
    cases hmember : c.isMember with
    | false => exact .inl ⟨c, hc, hmember, hname⟩
    | true =>
        have hkind : c.focus.kind = .identifier := by
          unfold Cursor.name? at hname
          split at hname
          next h => exact of_decide_eq_true ((Bool.and_eq_true _ _).mp h).1
          next => cases hname
        rw [name?_of_isMember hc hmember hkind] at hname
        split at hname
        next => cases hname
        next hcolon =>
          exact .inr ⟨c, hc, hmember, hkind, Option.some.inj hname, by simpa using hcolon⟩
  · rintro (⟨c, hc, -, hname⟩ | ⟨c, hc, hmember, hkind, htext, hcolon⟩)
    · exact ⟨c, hc, hname⟩
    · exact ⟨c, hc, by rw [name?_of_isMember hc hmember hkind, hcolon, htext]; rfl⟩

/-- What a source refers to by its method references. Each of them has an owner, the double colon
and a member, with comments anywhere between them and type arguments before the member. An owner
that is an identifier is referred to by its name. The name of the member counts as a reference as
well if and only if comments or type arguments stand between it and the double colon; so whether
an import that is not static is used depends on members of that kind, and on no other ones. -/
theorem references_of_method_references (source : String) :
    (∀ c ∈ Cursor.walk (parse source), c.focus.kind = .methodReference →
      ∃ owner gap line between member,
        c.focus.children = owner :: (gap ++ leaf .token line "::" :: (between ++ [member])) ∧
        AreComments gap ∧ IsReferenceGap between ∧ IsMember member ∧
        c.child [] owner (gap ++ leaf .token line "::" :: (between ++ [member])) ∈
          Cursor.walk (parse source) ∧
        (owner.kind = .identifier →
          (c.child [] owner (gap ++ leaf .token line "::" :: (between ++ [member]))).name? =
            some owner.text) ∧
        c.child (owner :: (gap ++ leaf .token line "::" :: between)) member [] ∈
          Cursor.walk (parse source) ∧
        (member.kind = .identifier →
          (c.child (owner :: (gap ++ leaf .token line "::" :: between)) member []).name? =
            if between = [] then none else some member.text)) ∧
    ∀ d ∈ (parse source).imports, d.isStatic = false →
      (d ∈
        (Verdict.classify (parse source).imports (.ofReferences (parse source).references)).used ↔
        d.simpleName ∈ (parse source).references.types ∨
          d.simpleName ∈ (parse source).references.annotations ∨
        (∃ c ∈ Cursor.walk (parse source), c.isMember = false ∧ c.name? = some d.simpleName) ∨
        ∃ c ∈ Cursor.walk (parse source), c.isMember = true ∧ c.focus.kind = .identifier ∧
          c.focus.text = d.simpleName ∧
          c.previous?.any isDoubleColon = false) := by
  refine ⟨fun c hc hkind => ?_, fun d hd hstatic => ?_⟩
  · obtain ⟨owner, gap, line, between, member, hchildren, howner, hgap, hbetween, hmember⟩ :=
      isMethodReference_of_mem_walk hc hkind
    have hlast : c.focus.children = (owner :: (gap ++ leaf .token line "::" :: between)) ++
        member :: [] := by
      simp [hchildren]
    refine ⟨owner, gap, line, between, member, hchildren, hgap, hbetween, hmember,
      Cursor.child_mem_walk hc hchildren, fun hidentifier =>
        Cursor.name?_child hkind hidentifier howner, Cursor.child_mem_walk hc hlast,
        fun hidentifier => ?_⟩
    rw [Cursor.name?_child hkind hidentifier hmember.role_eq, ← List.cons_append]
    simp only [any_isDoubleColon_getLast? line hbetween]
  · rw [Verdict.mem_used, and_iff_right hd, hstatic, References.Uses, mem_names_iff]
    simp only [Bool.false_eq_true, false_and, true_and, false_or]
    rw [or_comm, or_assoc]

/-- Two method references, one of them with type arguments: the import named like its member is
taken for used, and that is for want of a double colon directly before the member. -/
theorem references_of_separated_member :
    let source :=
      "import b.sort;\nimport c.map;\n" ++
      "class R \x7b Object f = Util::<String>sort, g = Util::map; \x7d"
    let verdict := Verdict.classify (parse source).imports (.ofReferences (parse source).references)
    ⟨"b.sort", false, some 1⟩ ∈ verdict.used ∧ ⟨"c.map", false, some 2⟩ ∈ verdict.unused ∧
      (∃ c ∈ Cursor.walk (parse source), c.focus.kind = .methodReference ∧
        ∃ before member, IsMember member ∧ c.child before member [] ∈ Cursor.walk (parse source)) ∧
      ∃ c ∈ Cursor.walk (parse source), c.isMember = true ∧ c.focus.text = "sort" ∧
        c.previous?.any isDoubleColon = false := by
  intro source verdict
  obtain ⟨hused, hunused, hreference, htypes, hothers⟩ :
      ⟨"b.sort", false, some 1⟩ ∈ verdict.used ∧ ⟨"c.map", false, some 2⟩ ∈ verdict.unused ∧
      ((Cursor.walk (parse source)).any fun c => c.focus.kind = .methodReference) = true ∧
      "sort" ∉ (parse source).references.types ++ (parse source).references.annotations ∧
      ((Cursor.walk (parse source)).any fun c => !c.isMember && c.name? == some "sort") =
        false := by decide +kernel
  obtain ⟨hreferences, himports⟩ := references_of_method_references source
  obtain ⟨c, hc, hkind⟩ := List.any_eq_true.mp hreference
  have hkind : c.focus.kind = .methodReference := of_decide_eq_true hkind
  obtain ⟨owner, gap, line, between, member, -, -, -, hmember, -, -, hplace, -⟩ :=
    hreferences c hc hkind
  refine ⟨hused, hunused, ⟨c, hc, hkind, _, member, hmember, hplace⟩, ?_⟩
  have hsimple : (⟨"b.sort", false, some 1⟩ : ImportDeclaration).simpleName = "sort" := by
    decide +kernel
  have hcases := (himports _ (Verdict.mem_used.mp hused).1 rfl).mp hused
  rw [hsimple] at hcases
  rcases hcases with h | h | ⟨c, hc, hmember, hname⟩ | ⟨c, hc, hmember, -, htext, hcolon⟩
  · exact absurd (List.mem_append_left _ h) htypes
  · exact absurd (List.mem_append_right _ h) htypes
  · have hnone := List.any_eq_false.mp hothers c hc
    simp [hmember, hname] at hnone
  · exact ⟨c, hc, hmember, htext, hcolon⟩

end ImportAudit.Java
