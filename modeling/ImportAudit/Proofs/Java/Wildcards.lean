import ImportAudit.Proofs.Java.AddedDeclarations

/-!
# Imports of everything

An import of everything under a name has an asterisk for a simple name. All that a program refers to
are words, so that no use is ever found for it.
-/

namespace ImportAudit

/-! ## The asterisk -/

theorem ImportDeclaration.isWildcard_iff (d : ImportDeclaration) : d.isWildcard = true ↔
    IsLastSegment d.qualifiedName "*" := by
  have hdot : '.' ∉ "*".toList := by decide
  rw [isWildcard, Bool.or_eq_true, beq_iff_eq, beq_iff_eq, IsLastSegment, and_iff_right hdot]
  refine or_congr_right ⟨fun htake => ?_, ?_⟩
  · have hreverse := List.take_append_drop 2 d.qualifiedName.toList.reverse
    rw [htake] at hreverse
    refine ⟨String.ofList (d.qualifiedName.toList.reverse.drop 2).reverse,
      String.toList_injective ?_⟩
    rw [← List.reverse_reverse d.qualifiedName.toList, ← hreverse]
    simp
  · rintro ⟨before, hname⟩
    simp [hname]

theorem ImportDeclaration.isWildcard_iff_simpleName (d : ImportDeclaration) : d.isWildcard = true ↔
    d.simpleName = "*" := by
  rw [isWildcard_iff]
  refine ⟨fun h => d.isLastSegment_simpleName.eq h, fun h => ?_⟩
  rw [← h]
  exact d.isLastSegment_simpleName

namespace Java

/-! ## References are words -/

namespace Tree

variable {t : Tree}

theorem AllShaped.child (h : t.AllShaped) {c : Tree} (hc : c ∈ t.children) : c.AllShaped :=
  (allShaped_iff.mp h).2 c hc

theorem AllShaped.isWord_text (h : t.AllShaped)
    (hk : t.kind = .identifier ∨ t.kind = .typeIdentifier) : IsWord t.text := by
  have hshape := (allShaped_iff.mp h).1.shape
  cases t with
  | node k r l s cs =>
      obtain ⟨hword, rfl⟩ : IsWord s ∧ cs = [] := by
        rcases hk with rfl | rfl <;> exact hshape
      simpa [text, textAll] using hword

theorem lastSegment_dotted {w : String} (hw : IsWord w) : lastSegment.dotted w = w := by
  have hsegment : IsLastSegment w w := ⟨hw.not_mem (by decide) (by decide), .inl rfl⟩
  have hlast : String.ofList ((ImportDeclaration.segments w.toList).getLast?.getD []) = w :=
    (ImportDeclaration.isLastSegment_simpleName ⟨w, false, none⟩).eq hsegment
  have hends : Text.FreeEnds Text.isBlank w.toList :=
    ⟨fun c hc => hw.not_isBlank (List.mem_of_mem_head? hc), fun c hc =>
      hw.not_isBlank (List.mem_of_getLast? hc)⟩
  rw [lastSegment.dotted, hlast, Text.trim, Text.trimWith, Text.trimList_of_freeEnds hends,
    String.ofList_toList]

theorem AllShaped.isWord_lastSegment (h : t.AllShaped) (hname : t.isPlainName = true) :
    IsWord t.lastSegment := by
  have hshape := (allShaped_iff.mp h).1.shape
  unfold lastSegment
  rcases (Bool.or_eq_true _ _).mp hname with hk | hk
  · have hk : t.kind = .identifier := of_decide_eq_true hk
    have hword := h.isWord_text (.inl hk)
    rw [if_neg (by simp [hk]), lastSegment_dotted hword]
    exact hword
  · have hk : t.kind = .scopedIdentifier := of_decide_eq_true hk
    rw [hk] at hshape
    obtain ⟨-, scope, gap, dot, gap', line, word, hchildren, -, hrole, hgap, hgap', hword⟩ := hshape
    have hfind : t.childWithRole? .name = some ((leaf .identifier line word).withRole .name) := by
      rw [childWithRole?, hchildren, List.find?_cons_of_neg (by simp [hrole]), List.find?_append,
        find?_role_eq_none hgap, Option.none_or, List.find?_cons_of_neg (by simp [leaf, role]),
        List.find?_append, find?_role_eq_none hgap']
      rfl
    rw [if_pos hk, hfind]
    simpa [leaf, withRole, text, textAll] using hword

end Tree

namespace Cursor

variable {c : Cursor} {name : String}

theorem isWord_of_annotationName? (hc : c.focus.AllShaped) (h : c.annotationName? = some name) :
    IsWord name := by
  unfold annotationName? at h
  split at h
  next hkind =>
    have hshape := (Tree.allShaped_iff.mp hc).1.shape
    obtain ⟨child, hchild, hplain⟩ : ∃ child, c.focus.childWithRole? .name = some child ∧
        child.isPlainName = true := by
      simp only [Bool.or_eq_true, decide_eq_true_eq] at hkind
      rcases hkind with hkind | hkind <;> (rw [hkind] at hshape; exact hshape)
    rw [hchild] at h
    cases h
    exact (hc.child (List.mem_of_find?_eq_some hchild)).isWord_lastSegment hplain
  next => cases h

theorem isWord_of_call? (hc : c.focus.AllShaped) (h : c.call? = some name) : IsWord name := by
  unfold call? at h
  split at h
  next hkind =>
    obtain ⟨child, hchild, rfl⟩ := Option.map_eq_some_iff.mp h
    have hcalled : Trait.called ∈ c.focus.kind.demands := by
      rw [hkind]
      exact List.mem_singleton_self _
    obtain ⟨hmem, hrole⟩ := Tree.role_of_childWithRole? hchild
    exact (hc.child hmem).isWord_text
      (.inl ((Tree.allShaped_iff.mp hc).1.traits .called hcalled child hmem hrole))
  next => cases h

theorem isWord_of_field? (hc : c.focus.AllShaped) (h : c.field? = some name) : IsWord name := by
  unfold field? at h
  split at h
  next =>
    obtain ⟨child, hchild, hmember⟩ := Option.bind_eq_some_iff.mp h
    split at hmember
    next hkind =>
      cases hmember
      exact (hc.child (List.mem_of_find?_eq_some hchild)).isWord_text (.inl hkind)
    next => cases hmember
  next => cases h

theorem isWord_of_name? (hc : c.focus.AllShaped) (h : c.name? = some name) : IsWord name := by
  unfold name? at h
  split at h
  next hname =>
    cases h
    exact hc.isWord_text (.inl (of_decide_eq_true ((Bool.and_eq_true _ _).mp hname).1))
  next => cases h

theorem isWord_of_type? (hc : c.focus.AllShaped) (h : c.type? = some name) : IsWord name := by
  unfold type? at h
  split at h
  next htype =>
    cases h
    exact hc.isWord_text (.inr (of_decide_eq_true ((Bool.and_eq_true _ _).mp htype).1))
  next => cases h

end Cursor

/-- All names that a tree refers to are words, if it is made as the grammar makes it. -/
theorem isWord_of_mem_references {t : Tree} (ht : t.AllShaped) {list : References → List String}
    (hlist : list ∈ References.lists) {name : String} (h : name ∈ list t.references) :
    IsWord name := by
  have hwalk : ∀ c ∈ Cursor.walk t, c.focus.AllShaped := fun c hc n hn =>
    ht n (Tree.mem_preorder_trans hn (Tree.focus_mem_of_walk hc))
  simp only [References.lists, List.mem_cons, List.not_mem_nil, or_false] at hlist
  rcases hlist with rfl | rfl | rfl | rfl | rfl
  all_goals obtain ⟨c, hc, hname⟩ := List.mem_filterMap.mp h
  · exact Cursor.isWord_of_name? (hwalk c hc) hname
  · exact Cursor.isWord_of_type? (hwalk c hc) hname
  · exact Cursor.isWord_of_annotationName? (hwalk c hc) hname
  · exact Cursor.isWord_of_call? (hwalk c hc) hname
  · exact Cursor.isWord_of_field? (hwalk c hc) hname

/-! ## Declarations with an asterisk -/

theorem isWildcard_of_word {start word : String} (hword : IsWord word) (isStatic : Bool)
    (line : Option Nat) :
    (⟨start ++ word, isStatic, line⟩ : ImportDeclaration).isWildcard = false := by
  refine Bool.eq_false_iff.mpr fun h => ?_
  obtain ⟨before, hbefore⟩ : ∃ before, (start ++ word).toList = before ++ ['*'] := by
    rcases ((ImportDeclaration.isWildcard_iff _).mp h).2 with hname | ⟨before, hname⟩
    · exact ⟨[], congrArg String.toList hname⟩
    · exact ⟨(before ++ ".").toList, by rw [show start ++ word = _ from hname]; simp⟩
  rw [String.toList_append] at hbefore
  rcases List.eq_nil_or_concat word.toList with hnil | ⟨init, last, hlast⟩
  · exact hword.ne_empty (String.toList_injective hnil)
  · rw [hlast, List.concat_eq_append, ← List.append_assoc] at hbefore
    obtain ⟨-, hstar⟩ := List.append_inj' hbefore rfl
    obtain rfl : last = '*' := List.head_eq_of_cons_eq hstar
    exact hword.not_mem (c := '*') (by decide) (by decide) (by simp [hlast])

theorem isWildcard_toImport {source : String} {n : Tree} (hn : n ∈ (parse source).preorder)
    (hkind : n.kind = .importDeclaration) :
    n.toImport.isWildcard = n.children.any (fun c => c.kind = .asterisk) := by
  obtain ⟨front, name, back, isStatic, isWildcard, hchildren, hname, hshaped, hfront,
      hback, himport⟩ :=
    exists_parts_of_import hn hkind
  obtain ⟨start, word, hword, htext⟩ := exists_word_of_isPlainName hshaped hname
  rw [any_asterisk_of_parts hchildren hname hfront hback, himport, htext]
  cases isWildcard with
  | false => simpa using isWildcard_of_word hword isStatic (some n.line)
  | true =>
      refine (ImportDeclaration.isWildcard_iff _).mpr ⟨by decide, .inr ⟨start ++ word, ?_⟩⟩
      simp [String.append_assoc]

theorem toImport_mem_imports {t n : Tree} (hn : n ∈ t.preorder)
    (hkind : n.kind = .importDeclaration) :
    n.toImport ∈ t.imports := by
  obtain ⟨c, hc, rfl⟩ := Tree.exists_place_of_mem_preorder hn []
  rw [Tree.imports, Cursor.walk_eq_places]
  exact List.mem_filterMap.mpr ⟨c, hc, if_pos hkind⟩

/-- Imports of everything are never used. A declaration is one if and only if its simple name is the
asterisk; an import declaration in the tree of a source gives one if and only if it has an asterisk;
and no name that the source refers to in any way is an asterisk. So each such import, static or not,
is among the unused ones and not among the used ones. -/
theorem wildcard_imports_unused (source : String) :
    (∀ d : ImportDeclaration, d.isWildcard = true ↔ d.simpleName = "*") ∧
    (∀ set ∈ UsageIndex.sets, "*" ∉ set (.ofReferences (parse source).references)) ∧
    (∀ d ∈ (parse source).imports, d.isWildcard = true →
      d ∈
        (Verdict.classify (parse source).imports (.ofReferences (parse source).references)).unused ∧
      d ∉
        (Verdict.classify (parse source).imports (.ofReferences (parse source).references)).used) ∧
    ∀ n ∈ (parse source).preorder, n.kind = .importDeclaration →
      n.toImport ∈ (parse source).imports ∧
      (n.toImport.isWildcard = true ↔ ∃ c ∈ n.children, c.kind = .asterisk) := by
  have hnone : ∀ list ∈ References.lists, "*" ∉ list (parse source).references :=
    fun list hlist hmem =>
    (isWord_of_mem_references (allShaped_parse source) hlist hmem).not_mem (c := '*') (by decide)
      (by decide) (by decide)
  simp only [References.lists, List.forall_mem_cons] at hnone
  obtain ⟨hnames, htypes, hannotations, hcalls, hfields, -⟩ := hnone
  refine ⟨ImportDeclaration.isWildcard_iff_simpleName, fun set hset => ?_, fun d hd hwildcard => ?_,
    fun n hn hkind => ⟨toImport_mem_imports hn hkind, ?_⟩⟩
  · simp only [UsageIndex.sets, List.mem_cons, List.not_mem_nil, or_false] at hset
    rcases hset with rfl | rfl | rfl | rfl
    · simpa [UsageIndex.ofReferences, List.mem_eraseDups] using hnames
    · simpa [UsageIndex.ofReferences, List.mem_eraseDups] using htypes
    · simpa [UsageIndex.ofReferences, List.mem_eraseDups] using hannotations
    · simp [UsageIndex.ofReferences, List.mem_eraseDups, hcalls, hfields]
  · have hunused : ¬(parse source).references.Uses d.isStatic d.simpleName := by
      rw [d.isWildcard_iff_simpleName.mp hwildcard]
      simp [References.Uses, hnames, htypes, hannotations, hcalls, hfields]
    exact ⟨Verdict.mem_unused.mpr ⟨hd, hunused⟩, fun h => hunused (Verdict.mem_used.mp h).2⟩
  · simp [isWildcard_toImport hn hkind]

/-- Two imports of everything, one of them static, in a program that uses the third import. -/
theorem wildcard_imports_beside_used :
    let source :=
      "import static a.B.*;\nimport c . /* * */ *;\nimport d.E;\n" ++
      "@f.G class C \x7b E e = B.c(); \x7d"
    let verdict := Verdict.classify (parse source).imports (.ofReferences (parse source).references)
    ⟨"a.B.*", true, some 1⟩ ∈ verdict.unused ∧ ⟨"c.*", false, some 2⟩ ∈ verdict.unused ∧
      ⟨"d.E", false, some 3⟩ ∈ verdict.used := by
  intro source verdict
  obtain ⟨himports, hused⟩ : (parse source).imports =
      [⟨"a.B.*", true, some 1⟩, ⟨"c.*", false, some 2⟩, ⟨"d.E", false, some 3⟩] ∧
      ⟨"d.E", false, some 3⟩ ∈ verdict.used := by decide +kernel
  obtain ⟨-, -, hunused, -⟩ := wildcard_imports_unused source
  exact ⟨(hunused _ (by simp [himports]) (by decide)).1,
    (hunused _ (by simp [himports]) (by decide)).1, hused⟩

end Java

end ImportAudit
