import ImportAudit.Proofs.Java.Wildcards

/-!
# The names of imports

An import is named by the text of its name in the source, blanks removed. That is the dotted name of
its words as long as no comment stands between them; a comment stays in the name.
-/

namespace ImportAudit.Java

/-! ## Leaves of a declaration -/

def withoutComments (ls : List Leaf) : List Leaf :=
  ls.filter fun l => l.1 ≠ .comment

def wordsOf (ls : List Leaf) : List String :=
  (ls.filter fun l => l.1 = .identifier).map (·.2)

theorem withoutComments_append (ls ms : List Leaf) :
    withoutComments (ls ++ ms) = withoutComments ls ++ withoutComments ms :=
  List.filter_append ls ms

theorem wordsOf_append (ls ms : List Leaf) : wordsOf (ls ++ ms) = wordsOf ls ++ wordsOf ms := by
  simp [wordsOf]

theorem withoutComments_token (text : String) (ls : List Leaf) :
    withoutComments ((.token, text) :: ls) = (.token, text) :: withoutComments ls := rfl

theorem wordsOf_token (text : String) (ls : List Leaf) :
    wordsOf ((.token, text) :: ls) = wordsOf ls := rfl

namespace AreCommentLeaves

variable {ls : List Leaf}

theorem withoutComments_eq (h : AreCommentLeaves ls) : withoutComments ls = [] :=
  List.filter_eq_nil_iff.mpr fun l hl => by simp [(h l hl).1]

theorem wordsOf_eq (h : AreCommentLeaves ls) : wordsOf ls = [] := by
  rw [wordsOf, List.filter_eq_nil_iff.mpr fun l hl => by simp [(h l hl).1], List.map_nil]

end AreCommentLeaves

theorem mem_leafText {ls : List Leaf} {l : Leaf} {c : Char} (hl : l ∈ ls) (hc : c ∈ l.2.toList) :
    c ∈ (leafText ls).toList := by
  induction ls with
  | nil => exact absurd hl List.not_mem_nil
  | cons m ls ih =>
      rw [leafText, String.toList_append, List.mem_append]
      rcases List.mem_cons.mp hl with rfl | hl
      · exact .inl hc
      · exact .inr (ih hl)

theorem slash_mem_removeBlanks {ls : List Leaf} {l : Leaf} (hl : l ∈ ls)
    (hcomment : IsComment l.2) :
    '/' ∈ (Text.removeBlanks (leafText ls)).toList := by
  obtain ⟨cs, hcs⟩ := hcomment
  rw [Text.removeBlanks, String.toList_ofList]
  exact List.mem_filter.mpr ⟨mem_leafText hl (by simp [hcs]), by decide⟩

/-! ## Dotted names and comments -/

namespace IsDottedName

variable {ls : List Leaf} {ws : List String}

theorem ne_nil (h : IsDottedName ls ws) : ws ≠ [] := by
  cases h <;> simp

theorem wordsOf_eq (h : IsDottedName ls ws) : wordsOf ls = ws := by
  induction h with
  | word hw => rfl
  | @dot ls gap gap' ws w _ hgap hgap' hw ih =>
      rw [wordsOf_append, wordsOf_append, ← List.singleton_append, wordsOf_append, wordsOf_append,
        ih, hgap.wordsOf_eq, hgap'.wordsOf_eq]
      rfl

/-- Without comments the text of a dotted name is that of its words, with dots between them. -/
theorem text_eq (h : IsDottedName ls ws) (hfree : ∀ l ∈ ls, l.1 ≠ .comment) :
    Text.removeBlanks (leafText ls) = ".".intercalate ws := by
  induction h with
  | word hw => simp [leafText, hw.removeBlanks_eq]
  | @dot ls gap gap' ws w h hgap hgap' hw ih =>
      have hnone : ∀ {gap : List Leaf}, AreCommentLeaves gap → (∀ l ∈ gap, l.1 ≠ .comment) →
          gap = [] := fun hgap hfree =>
        List.eq_nil_iff_forall_not_mem.mpr fun l hl => hfree l hl (hgap l hl).1
      simp only [List.forall_mem_append, List.forall_mem_cons] at hfree
      obtain ⟨hfirst, hgapfree, -, hgapfree', -⟩ := hfree
      obtain rfl := hnone hgap hgapfree
      obtain rfl := hnone hgap' hgapfree'
      have hdot : Text.removeBlanks "." = "." := by decide
      rw [leafText_append, Text.removeBlanks_append, ih hfirst,
        String.intercalate_append_of_ne_nil h.ne_nil (by simp)]
      simp [leafText, Text.removeBlanks_append, hw.removeBlanks_eq, hdot, String.append_assoc]

theorem slash_not_mem (h : IsDottedName ls ws) : '/' ∉ (".".intercalate ws).toList := by
  induction h with
  | word hw => simpa using hw.not_mem (by decide) (by decide)
  | dot h _ _ hw ih =>
      have hlast := hw.not_mem (c := '/') (by decide) (by decide)
      rw [String.intercalate_append_of_ne_nil h.ne_nil (by simp), String.toList_append,
        String.toList_append, List.mem_append, List.mem_append, String.intercalate_singleton]
      rintro ((hslash | hslash) | hslash)
      · exact ih hslash
      · exact absurd hslash (by decide)
      · exact hlast hslash

theorem isComment (h : IsDottedName ls ws) : ∀ l ∈ ls, l.1 = .comment → IsComment l.2 := by
  induction h with
  | word hw => exact List.forall_mem_singleton.mpr Kind.noConfusion
  | dot _ hgap hgap' _ ih =>
      simp only [List.forall_mem_append, List.forall_mem_cons]
      exact ⟨ih, fun l hl _ => (hgap l hl).2, Kind.noConfusion, fun l hl _ => (hgap' l hl).2,
        Kind.noConfusion, fun _ hl => absurd hl List.not_mem_nil⟩

/-- The text of a dotted name is that of its words if and only if there is no comment in it. -/
theorem text_eq_iff (h : IsDottedName ls ws) :
    Text.removeBlanks (leafText ls) = ".".intercalate ws ↔ ∀ l ∈ ls, l.1 ≠ .comment := by
  refine ⟨fun htext l hl hcomment => ?_, h.text_eq⟩
  have hslash := slash_mem_removeBlanks hl (h.isComment l hl hcomment)
  rw [htext] at hslash
  exact h.slash_not_mem hslash

end IsDottedName

/-! ## Simple names -/

/-- The simple name of an import whose name ends with a word is that word if it
follows a dot or nothing. -/
theorem simpleName_eq_iff {start word : String} (hword : IsWord word) (isStatic : Bool)
    (line : Option Nat) :
    (⟨start ++ word, isStatic, line⟩ : ImportDeclaration).simpleName = word ↔
      start = "" ∨ start.toList.getLast? = some '.' := by
  have hdot : '.' ∉ word.toList := hword.not_mem (by decide) (by decide)
  have hsimple := ImportDeclaration.isLastSegment_simpleName ⟨start ++ word, isStatic, line⟩
  constructor
  · intro heq
    rw [heq] at hsimple
    rcases hsimple.2 with hname | ⟨before, hname⟩
    · left
      simpa using hname
    · right
      have hstart : start = before ++ "." := by simpa using hname
      simp [hstart]
  · rintro (rfl | hlast)
    · exact hsimple.eq ⟨hdot, .inl (by simp)⟩
    · refine hsimple.eq ⟨hdot, .inr ⟨String.ofList start.toList.dropLast, ?_⟩⟩
      apply String.toList_injective
      simp [List.dropLast_append_getLast? '.' hlast]

/-- Whether a word in a dotted name follows a dot or nothing, by the comments before it. -/
theorem follows_dot_iff {init gap : List Leaf} (hgap : AreCommentLeaves gap)
    (hinit : init = [] ∧ gap = [] ∨ ∃ before, init = before ++ [(.token, ".")]) :
    (Text.removeBlanks (leafText init) ++ Text.removeBlanks (leafText gap) = "" ∨
      (Text.removeBlanks (leafText init) ++ Text.removeBlanks (leafText gap)).toList.getLast? =
        some '.') ↔
    gap = [] ∨ (Text.removeBlanks (leafText gap)).toList.getLast? = some '.' := by
  rcases gap with - | ⟨comment, gap⟩
  · have hdot : Text.removeBlanks "." = "." := by decide
    rcases hinit with ⟨rfl, -⟩ | ⟨before, rfl⟩
    · simp [leafText, Text.removeBlanks]
    · simp [leafText_append, Text.removeBlanks_append, leafText, hdot, Text.removeBlanks_of_free]
  · have hslash :=
      slash_mem_removeBlanks (List.mem_cons_self (l := gap)) (hgap comment List.mem_cons_self).2
    have hne : (Text.removeBlanks (leafText (comment :: gap))).toList ≠ [] :=
      List.ne_nil_of_mem hslash
    obtain ⟨last, hlast⟩ := Option.isSome_iff_exists.mp (List.getLast?_isSome.mpr hne)
    have hnonempty : Text.removeBlanks (leafText (comment :: gap)) ≠ "" :=
      fun h => hne (congrArg String.toList h)
    simp [hlast, hnonempty]

/-! ## Import declarations -/

open ImportAudit.Java.Tree

theorem leavesAll_importFront {isStatic : Bool} {ts : List Tree} (h : IsImportFront isStatic ts) :
    withoutComments (leavesAll ts) = (.token, "import") ::
      (if isStatic then [(.token, "static")] else []) ∧
      wordsOf (leavesAll ts) = [] := by
  obtain ⟨line, gap, line', gap', hgap, hgap', rfl⟩ := h
  obtain ⟨hcomments, -⟩ := hgap.leavesAll
  obtain ⟨hcomments', -⟩ := hgap'.leavesAll
  cases isStatic <;>
    simp [leavesAll_cons, leavesAll_append, leaves_leaf, withoutComments_token,
      withoutComments_append, wordsOf_token, wordsOf_append, hcomments.withoutComments_eq,
      hcomments'.withoutComments_eq, hcomments.wordsOf_eq, hcomments'.wordsOf_eq]

theorem leavesAll_importBack {isWildcard : Bool} {ts : List Tree} (h : IsImportBack isWildcard ts) :
    withoutComments (leavesAll ts) = (if isWildcard then [(.token, "."), (.token, "*")] else []) ++
      [(.token, ";")] ∧
      wordsOf (leavesAll ts) = [] := by
  obtain ⟨gap, line, gap', line', gap'', line'', hgap, hgap', hgap'', rfl⟩ := h
  obtain ⟨hcomments, -⟩ := hgap.leavesAll
  obtain ⟨hcomments', -⟩ := hgap'.leavesAll
  obtain ⟨hcomments'', -⟩ := hgap''.leavesAll
  have hasterisk : (Tree.inner .asterisk [leaf .token line' "*"]).leaves = [(.token, "*")] := by
    rw [Tree.inner, leaves_node (List.cons_ne_nil _ _)]
    rfl
  have hnil : withoutComments [] = [] ∧ wordsOf [] = [] := ⟨rfl, rfl⟩
  cases isWildcard <;>
    simp [leavesAll_cons, leavesAll_append, leavesAll_nil, leaves_leaf, hasterisk, hnil,
      withoutComments_token, withoutComments_append, wordsOf_token, wordsOf_append,
      hcomments.withoutComments_eq, hcomments'.withoutComments_eq,
      hcomments''.withoutComments_eq, hcomments.wordsOf_eq, hcomments'.wordsOf_eq,
      hcomments''.wordsOf_eq]

/-- The name of an import is read off the text of its declaration. The leaves of a declaration are
its keywords, a dotted name, a dot and an asterisk if it imports everything, and the semicolon, with
comments anywhere between them. The import is static and one of everything as the keywords and the
asterisk say. Its qualified name is the text of the dotted name without blanks: the words with dots
between them if and only if no comment stands among them. Its simple name is the asterisk; or else
it is the last word if and only if no comment stands directly before that word, or the comments
there end with a dot. -/
theorem importName_of_declaration (source : String) (n : Tree) (hn : n ∈ (parse source).preorder)
    (hkind : n.kind = .importDeclaration) :
    ∃ front name back,
      n.leaves = front ++ (name ++ back) ∧
      withoutComments front = (.token, "import") ::
        (if n.toImport.isStatic then [(.token, "static")] else []) ∧
      IsDottedName name (wordsOf n.leaves) ∧
      withoutComments back =
        (if n.toImport.isWildcard then [(.token, "."), (.token, "*")] else []) ++ [(.token, ";")] ∧
      n.toImport.qualifiedName =
        Text.removeBlanks (leafText name) ++ (if n.toImport.isWildcard then ".*" else "") ∧
      (n.toImport.qualifiedName = ".".intercalate (wordsOf n.leaves) ++
        (if n.toImport.isWildcard then ".*" else "") ↔
        ∀ l ∈ name, l.1 ≠ .comment) ∧
      (n.toImport.isWildcard = true → n.toImport.simpleName = "*") ∧
      (n.toImport.isWildcard = false → ∃ init gap word,
        name = init ++ (gap ++ [(.identifier, word)]) ∧
        AreCommentLeaves gap ∧ (init = [] ∧ gap = [] ∨ init.getLast? = some (.token, ".")) ∧
        (wordsOf n.leaves).getLast? = some word ∧
        (n.toImport.simpleName = word ↔
          gap = [] ∨ (Text.removeBlanks (leafText gap)).toList.getLast? = some '.')) := by
  obtain ⟨front, name, back, isStatic, isWildcard, hchildren, hname, hshaped, hfront,
      hback, himport⟩ :=
    exists_parts_of_import hn hkind
  obtain ⟨⟨ws, hws⟩, htext⟩ := isDottedName_leaves hshaped hname
  obtain ⟨hfrontleaves, hfrontwords⟩ := leavesAll_importFront hfront
  obtain ⟨hbackleaves, hbackwords⟩ := leavesAll_importBack hback
  have hwildcard : n.toImport.isWildcard = isWildcard := by
    rw [isWildcard_toImport hn hkind, any_asterisk_of_parts hchildren hname hfront hback]
  have hstatic : n.toImport.isStatic = isStatic := by rw [himport]
  have hleaves : n.leaves = leavesAll front ++ (name.leaves ++ leavesAll back) := by
    cases n with
    | node k r l s cs =>
        obtain rfl : cs = front ++ name :: back := hchildren
        rw [leaves_node (by simp), leavesAll_append, leavesAll_cons]
  have hwords : wordsOf n.leaves = ws := by
    rw [hleaves, wordsOf_append, wordsOf_append, hfrontwords, hbackwords, hws.wordsOf_eq,
      List.nil_append, List.append_nil]
  have hqualified : n.toImport.qualifiedName =
      Text.removeBlanks (leafText name.leaves) ++ (if isWildcard then ".*" else "") := by
    rw [himport, htext]
  rw [hwords, hwildcard, hstatic]
  refine ⟨leavesAll front, name.leaves, leavesAll back, hleaves, hfrontleaves, hws, hbackleaves,
    hqualified, ?_, fun h => ?_, fun h => ?_⟩
  · rw [hqualified, ← hws.text_eq_iff]
    exact ⟨fun h => by simpa using h, fun h => by rw [h]⟩
  · exact n.toImport.isWildcard_iff_simpleName.mp (hwildcard.trans h)
  · obtain ⟨init, gap, word, hlast, hgap, hword, hend, hinit⟩ := hws.exists_last
    refine ⟨init, gap, word, hlast, hgap, ?_, hend, ?_⟩
    · rcases hinit with hnone | ⟨before, rfl⟩
      · exact .inl hnone
      · exact .inr (by simp)
    · have hname : n.toImport =
          ⟨Text.removeBlanks (leafText init) ++ Text.removeBlanks (leafText gap) ++ word,
            isStatic, some n.line⟩ := by
        rw [himport, htext, hlast, h]
        simp [leafText_append, Text.removeBlanks_append, leafText, hword.removeBlanks_eq,
          String.append_assoc]
      rw [hname, simpleName_eq_iff hword, follows_dot_iff hgap hinit]

/-- A comment between the dot and the last word stays in both names, so that the import of a type
that is used is taken for an unused one. -/
theorem importName_with_comment :
    let source := "import a./*x*/B;\nclass C \x7b B b; \x7d"
    let n := Tree.inner .importDeclaration
      [leaf .token 1 "import",
        Tree.inner .scopedIdentifier [leaf .identifier 1 "a", leaf .token 1 ".",
          leaf .comment 1 "/*x*/", (leaf .identifier 1 "B").withRole .name],
        leaf .token 1 ";"]
    n ∈ (parse source).preorder ∧ n.kind = .importDeclaration ∧ wordsOf n.leaves = ["a", "B"] ∧
      n.toImport.qualifiedName = "a./*x*/B" ∧ n.toImport.simpleName = "/*x*/B" ∧
      (∃ name, IsDottedName name ["a", "B"] ∧ ∃ l ∈ name, l.1 = .comment) ∧
      n.toImport ∈
        (Verdict.classify (parse source).imports
          (.ofReferences (parse source).references)).unused := by
  intro source n
  have hn : n ∈ (parse source).preorder := by decide +kernel
  have hwords : wordsOf n.leaves = ["a", "B"] := by decide +kernel
  have hname : n.toImport.qualifiedName = "a./*x*/B" := by decide +kernel
  obtain ⟨-, name, -, -, -, hdotted, -, -, hiff, -⟩ := importName_of_declaration source n hn rfl
  have hcomment : ∃ l ∈ name, l.1 = .comment := by
    by_contra hnone
    have hfree : ∀ l ∈ name, l.1 ≠ .comment := fun l hl h => hnone ⟨l, hl, h⟩
    rw [hwords, hname] at hiff
    exact absurd (hiff.mpr hfree) (by decide +kernel)
  exact ⟨hn, rfl, hwords,
    hname, by decide +kernel, ⟨name, hwords ▸ hdotted, hcomment⟩, by decide +kernel⟩

end ImportAudit.Java
