import ImportAudit.Proofs.Import.Verdict
import ImportAudit.Proofs.Java.ParseTrees

/-!
# References and imports do not mix

What a program refers to is read off its tree as a whole, import declarations included.
Still no name in an import is taken for a reference, so that the verdict on an import is
about the rest of the program.
-/

namespace ImportAudit.Java

/-- Imports never make a reference. In the tree of every source they stand in their places; and two
trees in which they do, and which are the same but for their imports, refer to the same names in the
same order. So the verdict on an import is the same whatever other imports there are, and is a
matter of the tree that has none of them. -/
theorem references_independent_of_imports :
    (∀ source, (parse source).ImportsInPlace) ∧
    ∀ t u : Tree, t.ImportsInPlace → u.ImportsInPlace → t.withoutImports = u.withoutImports →
      t.references = u.references ∧
      UsageIndex.ofReferences t.references = UsageIndex.ofReferences u.references ∧
      (∀ d ∈ t.imports, ∀ e ∈ u.imports, d.SameImport e →
        (d ∈ (Verdict.classify t.imports (.ofReferences t.references)).used ↔
          e ∈ (Verdict.classify u.imports (.ofReferences u.references)).used)) ∧
      (t.kind ≠ .importDeclaration → t.withoutImports.imports = []) ∧
      (∀ d ∈ t.imports, d ∈ (Verdict.classify t.imports (.ofReferences t.references)).used ↔
        d.isUsed (.ofReferences t.withoutImports.references) = true) := by
  refine ⟨fun source => (imports_of_parse source).1, fun t u ht hu hsame => ?_⟩
  have hrefs : t.references = u.references := by
    rw [← Tree.references_withoutImports ht, hsame, Tree.references_withoutImports hu]
  refine ⟨hrefs, by rw [hrefs], fun d hd e he himport => ?_, fun hkind => ?_, fun d hd => ?_⟩
  · have hname : d.simpleName = e.simpleName := by
      unfold ImportDeclaration.simpleName
      rw [himport.1]
    rw [Verdict.mem_used, Verdict.mem_used, and_iff_right hd, and_iff_right he, hname,
      himport.2, hrefs]
  · exact Tree.imports_eq_nil (Tree.importFree_withoutImports t hkind)
  · rw [Tree.references_withoutImports ht, Verdict.mem_used, and_iff_right hd, isUsed_iff]

/-- A type that is imported, beside other imports of its simple name or alone: both sources refer to
it once, and in both its import is used. -/
theorem references_beside_other_imports :
    let alone := parse "import java.util.List;\nclass C \x7b List x; \x7d"
    let beside :=
      parse "import static a. /* ; */ List.*;\nimport java.util.List;\n\nclass C \x7b List x; \x7d"
    alone.withoutImports = beside.withoutImports ∧ alone.references = beside.references ∧
      beside.references.types = ["List"] ∧
      ∃ d ∈ alone.imports, ∃ e ∈ beside.imports, d.SameImport e ∧
        d ∈ (Verdict.classify alone.imports (.ofReferences alone.references)).used ∧
        e ∈ (Verdict.classify beside.imports (.ofReferences beside.references)).used := by
  intro alone beside
  have hsame : alone.withoutImports = beside.withoutImports := by decide +kernel
  have he : (⟨"java.util.List", false, some 2⟩ : ImportDeclaration) ∈ beside.imports := by
    decide +kernel
  have hused : (⟨"java.util.List", false, some 1⟩ : ImportDeclaration) ∈
      (Verdict.classify alone.imports (.ofReferences alone.references)).used := by decide +kernel
  have hd := (Verdict.mem_used.mp hused).1
  obtain ⟨hplace, hindependent⟩ := references_independent_of_imports
  obtain ⟨hrefs, -, hverdict, -⟩ := hindependent alone beside (hplace _) (hplace _) hsame
  exact ⟨hsame, hrefs, by decide +kernel, _, hd, _, he, ⟨rfl, rfl⟩, hused,
    (hverdict _ hd _ he ⟨rfl, rfl⟩).mp hused⟩

end ImportAudit.Java
