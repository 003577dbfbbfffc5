import ImportAudit.Proofs.Analysis.File
import ImportAudit.Proofs.Import.Verdict
import ImportAudit.Proofs.Java.ParseTrees

/-!
# Cells of imports

A cell lists qualified names, one a line. No name is empty or has a blank in it, so that the lines
of a cell are the names that went into it.
-/

namespace ImportAudit

namespace Verdict

variable {ds : List ImportDeclaration} {isBreak : Char → Bool}

def names (ds : List ImportDeclaration) : List String :=
  ds.map (·.qualifiedName)

/-- The entries of a cell are its lines, and an empty cell has none. `isBreak`
says what ends a line. -/
def entries (isBreak : Char → Bool) (cell : String) : List String :=
  if cell = "" then [] else (Text.splitList isBreak cell.toList).map String.ofList

/-- Whether a class of characters can end lines: the line feed does, and no other than a blank. -/
def EndsLines (isBreak : Char → Bool) : Prop :=
  isBreak '\n' = true ∧ ∀ c, isBreak c = true → Text.isBlank c = true

def IsUnbroken (name : String) : Prop :=
  name ≠ "" ∧ ∀ c ∈ name.toList, Text.isBlank c = false

theorem endsLines_lineFeed : EndsLines (· == '\n') := by
  refine ⟨rfl, fun c hc => ?_⟩
  rw [eq_of_beq hc]
  rfl

theorem entries_cell (hbreak : EndsLines isBreak) (h : ∀ d ∈ ds, IsUnbroken d.qualifiedName) :
    entries isBreak (cell ds) = names ds := by
  by_cases hne : ds = []
  · rw [hne]
    rfl
  · have hfree : ∀ cs ∈ (names ds).map String.toList, ∀ c ∈ cs, isBreak c = false := by
      intro cs hcs c hc
      obtain ⟨name, hname, rfl⟩ := List.mem_map.mp hcs
      obtain ⟨d, hd, rfl⟩ := List.mem_map.mp hname
      have hblank := (h d hd).2 c hc
      exact Bool.eq_false_iff.mpr fun hends => by simp [hbreak.2 c hends] at hblank
    have hsplit : Text.splitList isBreak (cell ds).toList = (names ds).map String.toList := by
      rw [cell, String.toList_intercalate]
      exact Text.splitList_intercalate (by simpa [names] using hne) hfree hbreak.1
    have hcell : cell ds ≠ "" := by
      intro hempty
      rw [hempty] at hsplit
      -- An empty text is one empty piece, which would be the name of an import.
      have hpiece : [] ∈ (names ds).map String.toList := hsplit ▸ List.mem_singleton_self []
      obtain ⟨name, hname, hnil⟩ := List.mem_map.mp hpiece
      obtain ⟨d, hd, rfl⟩ := List.mem_map.mp hname
      exact (h d hd).1 (String.toList_eq_nil_iff.mp hnil)
    rw [entries, if_neg hcell, hsplit, List.map_map]
    simp [Function.comp_def]

/-! ## Each name once -/

theorem mem_of_mem_go {seen : List String} {d : ImportDeclaration}
    (h : d ∈ distinctNames.go seen ds) : d ∈ ds := by
  fun_induction distinctNames.go seen ds with
  | case1 seen => exact h
  | case2 seen e ds hseen ih => exact List.mem_cons_of_mem e (ih h)
  | case3 seen e ds hseen ih => exact List.mem_cons.mpr ((List.mem_cons.mp h).imp_right ih)

theorem mem_go {seen : List String} {name : String} :
    name ∈ names (distinctNames.go seen ds) ↔ name ∈ names ds ∧ name ∉ seen := by
  fun_induction distinctNames.go seen ds with
  | case1 seen => simp [names]
  | case2 seen d ds hseen ih =>
      have hd : d.qualifiedName ∈ seen := by simpa using hseen
      rw [ih, names, names, List.map_cons, List.mem_cons]
      constructor
      · exact fun h => ⟨.inr h.1, h.2⟩
      · rintro ⟨rfl | hname, hnew⟩
        · exact absurd hd hnew
        · exact ⟨hname, hnew⟩
  | case3 seen d ds hseen ih =>
      have hd : d.qualifiedName ∉ seen := by simpa using hseen
      have hcons : name ∈ names (d :: distinctNames.go (d.qualifiedName :: seen) ds) ↔
          name = d.qualifiedName ∨
            name ∈ names (distinctNames.go (d.qualifiedName :: seen) ds) := List.mem_cons
      rw [hcons, ih, names, names, List.map_cons, List.mem_cons, List.mem_cons, not_or]
      grind

theorem pairwise_go (seen : List String) (ds : List ImportDeclaration) :
    (names (distinctNames.go seen ds)).Pairwise fun a b =>
      (names ds).idxOf a < (names ds).idxOf b := by
  -- A name that is still to come is not the one that was just seen, so that it is one place further
  -- on.
  have hlater {d : ImportDeclaration} {ds : List ImportDeclaration} {name : String}
      (hne : name ≠ d.qualifiedName) :
      (names (d :: ds)).idxOf name = (names ds).idxOf name + 1 := by
    rw [names, List.map_cons, List.idxOf_cons_ne _ hne.symm]
    rfl
  fun_induction distinctNames.go seen ds with
  | case1 seen => exact List.Pairwise.nil
  | case2 seen d ds hseen ih =>
      have hd : d.qualifiedName ∈ seen := by simpa using hseen
      refine ih.imp_of_mem fun {a b} ha hb hlt => ?_
      have hane : a ≠ d.qualifiedName := fun heq => (mem_go.mp ha).2 (heq ▸ hd)
      have hbne : b ≠ d.qualifiedName := fun heq => (mem_go.mp hb).2 (heq ▸ hd)
      rw [hlater hane, hlater hbne]
      exact Nat.succ_lt_succ hlt
  | case3 seen d ds hseen ih =>
      have hne {a : String} (ha : a ∈ names (distinctNames.go (d.qualifiedName :: seen) ds)) :
          a ≠ d.qualifiedName :=
        fun heq => (mem_go.mp ha).2 (heq ▸ List.mem_cons_self)
      refine List.pairwise_cons.mpr ⟨fun b hb => ?_, ih.imp_of_mem fun {a b} ha hb hlt => ?_⟩
      · rw [hlater (hne hb), names, List.map_cons, List.idxOf_cons_self]
        exact Nat.succ_pos _
      · rw [hlater (hne ha), hlater (hne hb)]
        exact Nat.succ_lt_succ hlt

end Verdict

/-- The cells of a file give its imports back. The imports of every source that fits the grammar
have names with something in them and no blank; so the lines of the cells for used and for unused
imports are their names, in order and with repetitions, whatever blanks besides the line feed are
taken to end lines. The cell for all imports has the names of both, each once and in the order in
which they first occur among the used ones and then the unused ones. -/
theorem cells_give_imports_back (file source : String) (tree : Java.Tree)
    (htree : parseSource file source = .ok tree) (isBreak : Char → Bool)
    (hbreak : Verdict.EndsLines isBreak) :
    let v := Verdict.classify tree.imports (.ofReferences tree.references)
    (∀ d ∈ tree.imports, Verdict.IsUnbroken d.qualifiedName) ∧
    ∃ used unused all, v.cells = [("used", used), ("unused", unused), ("all", all)] ∧
      Verdict.entries isBreak used = v.used.map (·.qualifiedName) ∧
      Verdict.entries isBreak unused = v.unused.map (·.qualifiedName) ∧
      (Verdict.entries isBreak all).Nodup ∧
      (∀ name, name ∈ Verdict.entries isBreak all ↔
        name ∈ Verdict.entries isBreak used ∨ name ∈ Verdict.entries isBreak unused) ∧
      (Verdict.entries isBreak all).Pairwise fun a b =>
        (Verdict.entries isBreak used ++ Verdict.entries isBreak unused).idxOf a <
          (Verdict.entries isBreak used ++ Verdict.entries isBreak unused).idxOf b := by
  intro v
  have hsource : tree = Java.parse source := (parseSource_eq_ok_iff.mp htree).1
  have hnames : ∀ d ∈ tree.imports, Verdict.IsUnbroken d.qualifiedName := fun d hd =>
    Java.qualifiedName_of_parse (hsource ▸ hd)
  have hused : ∀ d ∈ v.used, Verdict.IsUnbroken d.qualifiedName :=
    fun d hd => hnames d (Verdict.mem_used.mp hd).1
  have hunused : ∀ d ∈ v.unused, Verdict.IsUnbroken d.qualifiedName :=
    fun d hd => hnames d (Verdict.mem_unused.mp hd).1
  have hall : ∀ d ∈ v.all, Verdict.IsUnbroken d.qualifiedName := fun d hd =>
    (List.mem_append.mp (Verdict.mem_of_mem_go hd)).elim (hused d) (hunused d)
  have hboth :
      Verdict.names v.used ++ Verdict.names v.unused = Verdict.names (v.used ++ v.unused) :=
    List.map_append.symm
  have horder := Verdict.pairwise_go [] (v.used ++ v.unused)
  refine ⟨hnames, _, _, _, rfl, Verdict.entries_cell hbreak hused,
    Verdict.entries_cell hbreak hunused, ?_⟩
  rw [Verdict.entries_cell hbreak hused, Verdict.entries_cell hbreak hunused,
    Verdict.entries_cell hbreak hall]
  refine ⟨horder.imp fun hlt heq => ?_, fun name => ?_, by rw [hboth]; exact horder⟩
  · rw [heq] at hlt
    exact Nat.lt_irrefl _ hlt
  · rw [← List.mem_append, hboth]
    exact Verdict.mem_go.trans (and_iff_left List.not_mem_nil)

/-- One name is imported as a type, which is used, and as a member, which is not, and is broken over
lines with a comment in it: both cells list it, and the cell for all imports has it once. -/
theorem cells_of_broken_name :
    let source :=
      "import a // c\n . B;\nimport static a//c\n.\tB; import a//c\n.B; import x.*;\n" ++
      "class C \x7b B b; \x7d"
    let tree := Java.parse source
    parseSource "C.java" source = .ok tree ∧ Verdict.EndsLines Text.isBlank ∧
      ∃ used unused all, (Verdict.classify tree.imports (.ofReferences tree.references)).cells =
          [("used", used), ("unused", unused), ("all", all)] ∧
        Verdict.entries Text.isBlank used = ["a//c.B", "a//c.B"] ∧
        Verdict.entries Text.isBlank unused = ["a//c.B", "x.*"] ∧
        (Verdict.entries Text.isBlank all).Nodup ∧ "a//c.B" ∈ Verdict.entries Text.isBlank all := by
  intro source tree
  have htree : parseSource "C.java" source = .ok tree :=
    parseSource_eq_ok_iff.mpr ⟨rfl, by decide +kernel⟩
  have hblank : Verdict.EndsLines Text.isBlank := ⟨rfl, fun _ h => h⟩
  obtain ⟨-, used, unused, all, hcells, hused, hunused, hnodup, hall, -⟩ :=
    cells_give_imports_back "C.java" source tree htree Text.isBlank hblank
  have hnames :
      (Verdict.classify tree.imports (.ofReferences tree.references)).used.map (·.qualifiedName) =
      ["a//c.B", "a//c.B"] := by decide +kernel
  have hothers :
      (Verdict.classify tree.imports (.ofReferences tree.references)).unused.map (·.qualifiedName) =
      ["a//c.B", "x.*"] := by decide +kernel
  refine ⟨htree, hblank, used, unused, all, hcells, hused.trans hnames,
    hunused.trans hothers, hnodup, ?_⟩
  exact (hall _).mpr (.inl ((hused.trans hnames) ▸ List.mem_cons_self))

end ImportAudit
