import ImportAudit.Proofs.Java.Shapes
import Mathlib.Data.List.Basic

/-!
# Names that are introduced

An identifier that introduces a name, for a class, a method, a variable, a parameter or a label, is
no reference. Patterns are the exception: the variable of a type pattern, or of a component of a
record pattern, is taken for a reference.
-/

namespace ImportAudit.Java

open ImportAudit.Java.Tree

namespace Cursor

variable {c : Cursor}

def introducesName (c : Cursor) : Bool :=
  c.focus.kind = .identifier && c.trail.head?.any fun crumb =>
    crumb.parent.kind.introductions.any fun p => p.Admits crumb.before.reverse crumb.after

/-- Whether the cursor is directly in a type pattern or in a component of a record pattern. -/
def inPattern (c : Cursor) : Bool :=
  c.parentKind?.any fun k => k ∈ patternKinds

theorem isReference_of_parentKind? {k : Kind} (hparent : c.parentKind? = some k)
    (hk : k ≠ .methodReference) :
    c.isReference = (c.focus.role.isNone && !namingKinds.contains k) := by
  unfold isReference
  rw [hparent]
  cases c.focus.role with
  | some role => rfl
  | none =>
      simp only [Option.isSome_none, Bool.false_eq_true, if_false, Option.isNone_none,
        Bool.true_and]

/-- An identifier that introduces a name is not referred to, unless it is the
variable of a pattern. -/
theorem name?_of_introducesName {source : String} (hc : c ∈ walk (parse source))
    (h : c.introducesName = true) :
    c.name? = if c.inPattern then some c.focus.text else none := by
  rcases exists_parent_of_mem_walk hc with rfl | ⟨p, hp, before, after, hchildren, hchild⟩
  · simp [introducesName, root] at h
  · have hshape : p.focus.WellShaped := allShaped_parse source p.focus (focus_mem_of_walk hp)
    have htrail : c.trail = ⟨p.focus, before.reverse, after⟩ :: p.trail := by rw [hchild]; rfl
    obtain ⟨hkind, position, hposition, hadmits⟩ : c.focus.kind = .identifier ∧
        ∃ position, p.focus.kind.introductions = some position ∧
          position.Admits before after = true := by
      simpa [introducesName, htrail, Option.any_eq_true] using h
    have hparent : c.parentKind? = some p.focus.kind := by simp [parentKind?, htrail]
    have hother : p.focus.kind ≠ .methodReference := by
      intro hreference
      rw [hreference] at hposition
      cases hposition
    have hpattern : c.inPattern = decide (p.focus.kind ∈ patternKinds) := by
      simp [inPattern, hparent]
    rw [name?, isReference_of_parentKind? hparent hother, hkind, hpattern]
    by_cases hpatterns : p.focus.kind ∈ patternKinds
    · have hfree : ∀ k ∈ patternKinds, .plain ∈ k.demands ∧ k ∉ namingKinds := by decide
      obtain ⟨hplain, hnaming⟩ := hfree _ hpatterns
      have hrole : c.focus.role = none := hshape.traits .plain hplain c.focus (by simp [hchildren])
      simp [hpatterns, hnaming, hrole]
    · by_cases hnaming : p.focus.kind ∈ namingKinds
      · simp [hpatterns, hnaming]
      · have hrole :=
          hshape.introduced position hposition hnaming hpatterns before c.focus after
            hchildren hadmits hkind
        simp [hpatterns, hrole]

end Cursor

/-- No name that a program introduces is a reference, but for the variables of patterns: of all
identifiers that introduce the name of a class, a method, a constructor, a field, an element, a
constant, a variable, a parameter of any kind, a resource or a label, exactly those in type patterns
and in components of record patterns count. So the names that the program refers to are gathered at
the places that introduce nothing, and at those in patterns. -/
theorem names_without_introductions (source : String) :
    (∀ c ∈ Cursor.walk (parse source), c.introducesName = true →
      c.name? = if c.inPattern then some c.focus.text else none) ∧
    (parse source).references.names =
      ((Cursor.walk (parse source)).filter fun c => !c.introducesName || c.inPattern).filterMap
        Cursor.name? := by
  refine ⟨fun c hc h => Cursor.name?_of_introducesName hc h, ?_⟩
  rw [List.filterMap_filter]
  refine List.filterMap_congr fun c hc => ?_
  cases hintroduces : c.introducesName with
  | false => simp
  | true =>
      rw [Cursor.name?_of_introducesName hc hintroduces]
      cases c.inPattern <;> rfl

/-- A class, a method, a parameter, a label, the variable of a loop, the parameter of a lambda
expression and two variables of patterns: only the last two are taken for references. -/
theorem names_with_pattern_variables :
    let source :=
      "class A \x7b int f(Object o) \x7b l: for (var v : o) g(w -> w); " ++
      "if (o instanceof P(int x)) h(); switch (o) \x7b case Foo b -> k(); \x7d \x7d \x7d"
    let introduced := (Cursor.walk (parse source)).filter Cursor.introducesName
    introduced.map (·.focus.text) = ["A", "f", "o", "l", "v", "w", "x", "b"] ∧
      introduced.filterMap Cursor.name? = ["x", "b"] ∧
      (∀ c ∈ introduced, c.inPattern = false → c.name? = none) ∧
      (parse source).references.names = ["o", "w", "o", "P", "x", "o", "b"] := by
  intro source introduced
  obtain ⟨htexts, hnames, hall⟩ :
      introduced.map (·.focus.text) = ["A", "f", "o", "l", "v", "w", "x", "b"] ∧
      introduced.filterMap Cursor.name? = ["x", "b"] ∧
      (parse source).references.names = ["o", "w", "o", "P", "x", "o", "b"] := by decide +kernel
  refine ⟨htexts, hnames, fun c hc hpattern => ?_, hall⟩
  obtain ⟨hwalk, hintroduces⟩ := List.mem_filter.mp hc
  rw [(names_without_introductions source).1 c hwalk hintroduces, hpattern]
  rfl

end ImportAudit.Java
