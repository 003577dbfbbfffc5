import ImportAudit.Proofs.Java.DottedNames

/-!
# Imports in parsed sources

The grammar puts import declarations where statements stand and nowhere else, and gives each of them
a name. The sorts of trees here are what the rules are checked against.
-/

namespace ImportAudit.Java

namespace Tree

variable {t : Tree}

/-! ## Sorts of trees -/

/-- How far imports are kept out of a tree. -/
inductive ImportSort
  /-- A keyword, a symbol or a comment. -/
  | mark
  /-- A part of an import declaration. -/
  | part
  /-- Without any import. -/
  | free
  /-- With imports in their places, but no import itself. -/
  | plain
  | any
  deriving DecidableEq

namespace ImportSort

def Has : ImportSort → Tree → Prop
  | mark, t => t.children = [] ∧ (t.kind = .token ∨ t.kind = .comment)
  | part, t => t.IsImportPart
  | free, t => t.ImportFree
  | plain, t => t.kind ≠ .importDeclaration ∧ t.ImportsInPlace
  | any, t => t.ImportsInPlace

def rank : ImportSort → Nat
  | mark => 0
  | part => 1
  | free => 2
  | plain => 3
  | any => 4

def mayHoldImports (kind : Kind) : Bool :=
  kind ∉ [.importDeclaration, .identifier, .typeIdentifier, .methodReference]

def inside : ImportSort → Kind → List ImportSort
  | mark, _ => []
  | part, kind =>
      if kind = .scopedIdentifier then [part] else if kind = .asterisk then [mark] else []
  | free, kind => if kind = .importDeclaration then [] else [free]
  | plain, kind => if mayHoldImports kind then [any] else []
  | any, kind =>
      if mayHoldImports kind then [any] else if kind = .importDeclaration then [part] else []

def closes : ImportSort → Kind → Bool
  | mark, _ => false
  | part, kind => kind = .scopedIdentifier
  | free, kind => kind ≠ .importDeclaration
  | plain, kind => mayHoldImports kind || kind = .methodReference
  | any, kind => mayHoldImports kind

def named : ImportSort → Role → List ImportSort
  | mark, _ => []
  | part, _ => [part]
  | free, _ => [free]
  | plain, r | any, r => if r = .name || r = .field then [free] else [plain]

def words : ImportSort → Kind → Bool
  | mark, _ => false
  | part, kind => kind = .identifier
  | _, kind => kind ≠ .importDeclaration

/-! ### Wider sorts -/

theorem part_of_mark (h : Has mark t) : Has part t := by
  cases t with
  | node k r l s cs =>
      obtain ⟨hleaf, hkind⟩ := h
      rw [children] at hleaf
      subst hleaf
      exact .leaf (hkind.imp id .inl)

theorem free_of_part (h : Has part t) : Has free t := by
  induction h with
  | leaf hk =>
      refine forall_preorder_iff.mpr ⟨?_, fun c hc => absurd hc List.not_mem_nil⟩
      rcases hk with rfl | rfl | rfl <;> simp [kind]
  | dotted hcs ih => exact forall_preorder_iff.mpr ⟨by simp [kind], ih⟩
  | asterisk hcs =>
      refine forall_preorder_iff.mpr ⟨by simp [kind], fun c hc => ?_⟩
      obtain ⟨hleaf, hkind⟩ := hcs c hc
      refine forall_preorder_iff.mpr ⟨?_, fun d hd => absurd (hleaf ▸ hd) List.not_mem_nil⟩
      rcases hkind with hkind | hkind <;> simp [hkind]

theorem plain_of_free (h : Has free t) : Has plain t :=
  ⟨ImportFree.kind_ne h, ImportFree.importsInPlace h⟩

theorem any_of_plain (h : Has plain t) : Has any t := h.2

theorem has_of_rank_le {i m : ImportSort} (hle : i.rank ≤ m.rank) (h : Has i t) : Has m t := by
  have hpart : Has mark t → Has part t := part_of_mark
  have hfree : Has part t → Has free t := free_of_part
  have hplain : Has free t → Has plain t := plain_of_free
  have hany : Has plain t → Has any t := any_of_plain
  cases i <;> cases m <;> grind [rank]

/-! ### Leaves and nodes -/

theorem has_mark_leaf {k : Kind} (hk : k = .token ∨ k = .comment) (m : ImportSort) (line : Nat)
    (text : String) :
    Has m (leaf k line text) :=
  has_of_rank_le (i := mark) (Nat.zero_le m.rank) ⟨rfl, hk⟩

theorem importFree_node {k : Kind} {r : Option Role} {l : Nat} {s : String} {cs : List Tree}
    (hk : k ≠ .importDeclaration) (hcs : ∀ c ∈ cs, c.ImportFree) : (node k r l s cs).ImportFree :=
  forall_preorder_iff.mpr ⟨hk, hcs⟩

theorem has_word {m : ImportSort} {k : Kind} {line : Nat} {text : String} (h : m.words k = true) :
    Has m (leaf k line text) := by
  cases m with
  | mark => cases h
  | part => exact .leaf (.inr (.inr (of_decide_eq_true h)))
  | free | plain | any =>
      have hfree : Has free (leaf k line text) := importFree_node (of_decide_eq_true h) (by simp)
      exact has_of_rank_le (by decide) hfree

theorem plain_inner {k : Kind} {ts : List Tree} (hk : mayHoldImports k = true)
    (hts : ∀ t ∈ ts, Has any t) :
    Has plain (Tree.inner k ts) := by
  simp only [mayHoldImports, List.mem_cons, not_or, List.not_mem_nil, decide_eq_true_eq] at hk
  obtain ⟨himport, hidentifier, htype, hreference, -⟩ := hk
  have hroot : (Tree.inner k ts).KeepsImportsApart := by
    refine ⟨fun h => absurd h himport, fun h => absurd h hreference, fun h => ?_⟩
    rcases h with h | h | h | h
    · exact absurd h hidentifier
    · exact absurd h htype
    · cases h
    · cases h
  exact ⟨himport, forall_preorder_iff.mpr ⟨hroot, hts⟩⟩

theorem plain_methodReference {ts : List Tree} (hts : ∀ t ∈ ts, Has plain t) :
    Has plain (Tree.inner .methodReference ts) := by
  have hroot : (Tree.inner .methodReference ts).KeepsImportsApart := by
    refine ⟨fun h => (nomatch h), fun _ c hc => (hts c hc).1, fun h => ?_⟩
    rcases h with h | h | h | h <;> cases h
  exact ⟨by simp [Tree.inner, kind], forall_preorder_iff.mpr ⟨hroot, fun c hc => (hts c hc).2⟩⟩

theorem any_importDeclaration {ts : List Tree} (hts : ∀ t ∈ ts, Has part t) :
    Has any (Tree.inner .importDeclaration ts) := by
  have hroot : (Tree.inner .importDeclaration ts).KeepsImportsApart := by
    refine ⟨fun _ => hts, fun h => (nomatch h), fun h => ?_⟩
    rcases h with h | h | h | h <;> cases h
  exact forall_preorder_iff.mpr ⟨hroot, fun c hc => (free_of_part (hts c hc)).importsInPlace⟩

theorem has_inside {i m : ImportSort} {k : Kind} {ts : List Tree} (hi : i ∈ m.inside k)
    (hts : ∀ t ∈ ts, Has i t) :
    Has m (Tree.inner k ts) := by
  cases m with
  | mark => cases hi
  | part =>
      simp only [inside] at hi
      split at hi
      next hk =>
        subst hk
        cases List.mem_singleton.mp hi
        exact .dotted hts
      next =>
        split at hi
        next hk =>
          subst hk
          cases List.mem_singleton.mp hi
          exact .asterisk hts
        next => cases hi
  | free =>
      simp only [inside] at hi
      split at hi
      next => cases hi
      next hk =>
        cases List.mem_singleton.mp hi
        exact importFree_node hk hts
  | plain =>
      simp only [inside] at hi
      split at hi
      next hk =>
        cases List.mem_singleton.mp hi
        exact plain_inner hk hts
      next => cases hi
  | any =>
      simp only [inside] at hi
      split at hi
      next hk =>
        cases List.mem_singleton.mp hi
        exact any_of_plain (plain_inner hk hts)
      next =>
        split at hi
        next hk =>
          subst hk
          cases List.mem_singleton.mp hi
          exact any_importDeclaration hts
        next => cases hi

theorem has_closes {m : ImportSort} {k : Kind} {ts : List Tree} (h : m.closes k = true)
    (hts : ∀ t ∈ ts, Has m t) :
    Has m (Tree.inner k ts) := by
  cases m with
  | mark => cases h
  | part =>
      have hk : k = .scopedIdentifier := of_decide_eq_true h
      subst hk
      exact .dotted hts
  | free => exact importFree_node (of_decide_eq_true h) hts
  | plain =>
      rcases (Bool.or_eq_true _ _).mp h with hk | hk
      · exact plain_inner hk fun t ht => any_of_plain (hts t ht)
      · have hk : k = .methodReference := of_decide_eq_true hk
        subst hk
        exact plain_methodReference hts
  | any => exact any_of_plain (plain_inner h hts)

/-! ### Roles -/

theorem part_withRole {r : Role} (h : Has part t) : Has part (t.withRole r) := by
  cases h with
  | leaf hk => exact .leaf hk
  | dotted hcs => exact .dotted hcs
  | asterisk hcs => exact .asterisk hcs

theorem free_withRole {r : Role} (h : Has free t) : Has free (t.withRole r) := by
  cases t
  exact importFree_node (ImportFree.kind_ne h) fun c hc => ImportFree.child h hc

theorem plain_withRole {r : Role} (hr : ¬(r = .name ∨ r = .field)) (h : Has plain t) :
    Has plain (t.withRole r) := by
  cases t with
  | node k r' l s cs =>
      obtain ⟨hkind, hplace⟩ := h
      have hroot : (node k (some r) l s cs).KeepsImportsApart := by
        refine ⟨hplace.root.parts, hplace.root.reference, fun hname => ?_⟩
        rcases hname with hk | hk | hrole | hrole
        · exact importFree_node hkind fun c hc => (hplace.root.name (.inl hk)).child hc
        · exact importFree_node hkind fun c hc => (hplace.root.name (.inr (.inl hk))).child hc
        · exact absurd (.inl (Option.some.inj hrole)) hr
        · exact absurd (.inr (Option.some.inj hrole)) hr
      exact ⟨hkind, forall_preorder_iff.mpr ⟨hroot, fun c hc => hplace.child hc⟩⟩

theorem has_named {i m : ImportSort} {r : Role} (hi : i ∈ m.named r) (h : Has i t) :
    Has m (t.withRole r) := by
  cases m with
  | mark => cases hi
  | part =>
      cases List.mem_singleton.mp hi
      exact part_withRole h
  | free =>
      cases List.mem_singleton.mp hi
      exact free_withRole h
  | plain | any =>
      simp only [named] at hi
      split at hi
      next =>
        cases List.mem_singleton.mp hi
        exact has_of_rank_le (by decide) (free_withRole h)
      next hr =>
        cases List.mem_singleton.mp hi
        exact has_of_rank_le (by decide) (plain_withRole (by simpa using hr) h)

end ImportSort

end Tree

/-! ## The rules of the grammar -/

open ImportAudit.Java.Tree

/-- The sort of the trees that a rule builds: statements may be imports, and
names are parts of imports. -/
def Rule.importSort : Rule → ImportSort
  | .name => .part
  | .program | .statement | .forStatement | .importDeclaration => .any
  | _ => .plain

def importSorting : Sorting Rule ImportSort where
  Has := ImportSort.Has
  rule := Rule.importSort
  single := Rule.single
  below i m := i.rank ≤ m.rank
  words := ImportSort.words
  inside := ImportSort.inside
  closes := ImportSort.closes
  named := ImportSort.named
  calls _ _ _ := false
  has_comment m := ImportSort.has_mark_leaf (.inr rfl) m
  has_token m := ImportSort.has_mark_leaf (.inl rfl) m
  has_of_below h := ImportSort.has_of_rank_le (of_decide_eq_true h)
  has_word h _ := ImportSort.has_word h
  has_inside := ImportSort.has_inside
  has_closes := ImportSort.has_closes
  has_named := ImportSort.has_named
  has_calls h _ := absurd h Bool.false_ne_true

theorem fits_binaryRule (level : Nat) (label : Bool) :
    importSorting.fits (binaryRule level label) .plain = true := by
  have hoperand :
      importSorting.fits
        (.call (if level < lastLevel then .binary (level + 1) label else .unary label))
      .plain = true := by
    split <;> rfl
  have hrest : importSorting.fits (Gram.all [anySymbol (binaryOperators level),
      .call (if level < lastLevel then .binary (level + 1) label else .unary label),
      .close .binary]) .plain = true := by
    simp only [Gram.all, Sorting.fits, Bool.and_eq_true]
    exact ⟨fits_anySymbol _ _ _, hoperand, rfl⟩
  simp only [binaryRule, Sorting.fits, Bool.and_eq_true]
  refine ⟨hoperand, ?_⟩
  split
  next => exact (Bool.and_eq_true _ _).mpr ⟨hrest, rfl⟩
  next => exact hrest

theorem fits_body (rule : Rule) : importSorting.fits rule.body rule.importSort = true := by
  cases rule with
  | binary level label => exact fits_binaryRule level label
  | unary label => cases label <;> rfl
  | _ => rfl

structure Rule.Sorted (rule : Rule) (b : List Tree) : Prop where
  all : importSorting.All rule.importSort b
  single : rule.single = true → ∃ t, b = [t]

theorem describes_sorted : importSorting.Describes Rule.Sorted where
  all _ _ h := h.all
  single _ _ hsingle h := h.single hsingle

theorem sorted_of_body (rule : Rule) (b : List Tree) (h : rule.body.Yields Rule.Sorted true [] b) :
    rule.Sorted b where
  all := Sorting.all_of_yields describes_sorted (fits_body rule) Sorting.all_nil h
  single hsingle :=
    Gram.exists_of_leavesOne describes_sorted.single (leavesOne_body hsingle) ⟨rfl, rfl⟩ h

theorem parseTokens_any {ts : List Token} {trees : List Tree} (hts : ∀ t ∈ ts, t.Sound)
    (h : parseTokens ts = .ok trees) : ∀ t ∈ trees, ImportSort.Has .any t := by
  have hprogram := yields_of_parseTokens sorted_of_body hts h
  have hall := Sorting.all_of_yields describes_sorted (fits_body .program) Sorting.all_nil hprogram
  exact fun t ht => hall t (List.mem_reverse.mpr ht)

/-- In the tree of a source all import declarations stand in their places, and
each is made as one. -/
theorem imports_of_parse (source : String) :
    (parse source).ImportsInPlace ∧ ∀ n ∈ (parse source).preorder, n.kind = .importDeclaration →
      IsImport n.children := by
  have hprogram : ImportSort.Has .plain (parse source) := by
    unfold parse
    dsimp only
    split
    next trees htrees =>
      exact ImportSort.plain_inner rfl (parseTokens_any (sound_tokens source) htrees)
    next place _ =>
      refine ImportSort.plain_inner rfl fun t ht => ?_
      rcases List.mem_append.mp ht with ht | ht
      · obtain ⟨token, -, rfl⟩ := List.mem_map.mp ht
        exact ImportSort.has_mark_leaf (.inl rfl) _ _ _
      · cases List.mem_singleton.mp ht
        have hfault : ImportSort.Has .free (faultAt place (tokens source)) := by
          unfold faultAt
          dsimp only
          split
          · split
            · exact ImportSort.importFree_node (by decide) (by simp)
            · exact ImportSort.importFree_node (by decide) (by simp)
          · exact ImportSort.importFree_node (by decide) (by simp)
        exact ImportSort.has_of_rank_le (by decide) hfault
  refine ⟨hprogram.2, fun n hn hkind => ?_⟩
  have hshape := (allShaped_parse source n hn).shape
  rw [hkind] at hshape
  exact hshape

/-! ## The names of imports -/

/-- A name in a parsed tree ends with a word. -/
theorem exists_word_of_isPlainName {t : Tree} (ht : t.AllShaped) (hname : t.isPlainName = true) :
    ∃ start word, IsWord word ∧ Text.removeBlanks t.text = start ++ word := by
  obtain ⟨⟨ws, hws⟩, htext⟩ := isDottedName_leaves ht hname
  obtain ⟨init, gap, word, hls, -, hword, -⟩ := hws.exists_last
  refine ⟨Text.removeBlanks (leafText (init ++ gap)), word, hword, ?_⟩
  rw [htext, hls, ← List.append_assoc, leafText_append, Text.removeBlanks_append]
  simp [leafText, hword.removeBlanks_eq]

/-! ### The parts of a declaration -/

theorem Tree.AreComments.any_eq_false {ts : List Tree} (h : AreComments ts) {p : Tree → Bool}
    (hcomment : ∀ line text, p (leaf .comment line text) = false) : ts.any p = false := by
  refine List.any_eq_false.mpr fun t ht => ?_
  obtain ⟨line, text, rfl, -⟩ := h t ht
  rw [hcomment]
  exact Bool.false_ne_true

section

variable {ts : List Tree} {isStatic isWildcard : Bool} {p : Tree → Bool} {q : String → Bool}

theorem IsImportFront.any_eq (h : IsImportFront isStatic ts)
    (hcomment : ∀ line text, p (leaf .comment line text) = false)
    (htoken : ∀ line text, p (leaf .token line text) = q text) :
    ts.any p = (q "import" || (isStatic && q "static")) := by
  obtain ⟨line, gap, line', gap', hgap, hgap', rfl⟩ := h
  cases isStatic
  · simp [htoken, hgap.any_eq_false hcomment]
  · simp [htoken, hgap.any_eq_false hcomment, hgap'.any_eq_false hcomment]

theorem IsImportBack.any_eq (h : IsImportBack isWildcard ts)
    (hcomment : ∀ line text, p (leaf .comment line text) = false)
    (htoken : ∀ line text, p (leaf .token line text) = q text) {star : Bool}
    (hasterisk : ∀ us, p (Tree.inner .asterisk us) = star) :
    ts.any p = ((isWildcard && (q "." || star)) || q ";") := by
  obtain ⟨gap, line, gap', line', gap'', line'', hgap, hgap', hgap'', rfl⟩ := h
  cases isWildcard
  · simp [htoken, hgap''.any_eq_false hcomment]
  · simp [htoken, hasterisk, hgap.any_eq_false hcomment, hgap'.any_eq_false hcomment,
      hgap''.any_eq_false hcomment, Bool.or_assoc]

end

section

variable {n name : Tree} {front back : List Tree} {isStatic isWildcard : Bool}

theorem kind_ne_of_isPlainName {k : Kind} (hname : name.isPlainName = true) (hk : k ≠ .identifier)
    (hk' : k ≠ .scopedIdentifier) : name.kind ≠ k := by
  rintro rfl
  rcases (Bool.or_eq_true _ _).mp hname with h | h
  · exact hk (of_decide_eq_true h)
  · exact hk' (of_decide_eq_true h)

theorem any_asterisk_of_parts (hn : n.children = front ++ name :: back)
    (hname : name.isPlainName = true) (hfront : IsImportFront isStatic front)
    (hback : IsImportBack isWildcard back) :
    n.children.any (fun c => c.kind = .asterisk) = isWildcard := by
  have hfront' := hfront.any_eq (p := fun c => c.kind = .asterisk) (q := fun _ => false)
    (fun _ _ => rfl) fun _ _ => rfl
  have hback' := hback.any_eq (p := fun c => c.kind = .asterisk) (q := fun _ => false)
    (fun _ _ => rfl) (fun _ _ => rfl)
    fun _ => rfl
  have hname' : name.kind ≠ .asterisk := kind_ne_of_isPlainName hname (by decide) (by decide)
  rw [hn, List.any_append, List.any_cons, hfront', hback', decide_eq_false hname']
  simp

/-- The import that a declaration declares, read off its parts. -/
theorem toImport_of_parts (hn : n.children = front ++ name :: back)
    (hname : name.isPlainName = true) (hfront : IsImportFront isStatic front)
    (hback : IsImportBack isWildcard back) (htext : Text.removeBlanks name.text ≠ "") :
    n.toImport = ⟨Text.removeBlanks name.text ++ (if isWildcard then ".*" else ""), isStatic,
      some n.line⟩ := by
  have hnames :
      n.children.filter (fun c => c.kind = .identifier || c.kind = .scopedIdentifier) = [name] := by
    change n.children.filter isPlainName = [name]
    have hfront' := hfront.any_eq (p := isPlainName) (q := fun _ => false) (fun _ _ => rfl)
      fun _ _ => rfl
    have hback' := hback.any_eq (p := isPlainName) (q := fun _ => false) (fun _ _ => rfl)
      (fun _ _ => rfl) fun _ => rfl
    simp only [Bool.and_false, Bool.or_false, List.any_eq_false] at hfront' hback'
    rw [hn, List.filter_append, List.filter_cons_of_pos hname, List.filter_eq_nil_iff.mpr hfront',
      List.filter_eq_nil_iff.mpr hback', List.nil_append]
  have hstatic : n.children.any (fun c => c.kind = .token && c.ownText == "static") = isStatic := by
    have hfront' := hfront.any_eq (p := isMark "static") (q := (· == "static")) (fun _ _ => rfl)
      fun _ _ => rfl
    have hback' := hback.any_eq (p := isMark "static") (q := (· == "static")) (fun _ _ => rfl)
      (fun _ _ => rfl)
      fun _ => rfl
    have hname' : name.kind ≠ .token := kind_ne_of_isPlainName hname (by decide) (by decide)
    change n.children.any (isMark "static") = isStatic
    rw [hn, List.any_append, List.any_cons, hfront', hback', isMark, decide_eq_false hname']
    simp
  unfold Tree.toImport
  simp only [hnames, any_asterisk_of_parts hn hname hfront hback, hstatic, List.getLast?_singleton,
    Option.map_some, Option.getD_some]
  cases isWildcard with
  | false => simp
  | true => simp [htext]

end

theorem exists_parts_of_import {source : String} {n : Tree} (hn : n ∈ (parse source).preorder)
    (hkind : n.kind = .importDeclaration) :
    ∃ front name back isStatic isWildcard, n.children = front ++ name :: back ∧
      name.isPlainName = true ∧ name.AllShaped ∧
      IsImportFront isStatic front ∧ IsImportBack isWildcard back ∧
      n.toImport = ⟨Text.removeBlanks name.text ++ (if isWildcard then ".*" else ""), isStatic,
        some n.line⟩ := by
  obtain ⟨front, name, back, isStatic, isWildcard, hchildren, hname, -, hfront, hback⟩ :=
    (imports_of_parse source).2 n hn hkind
  have hshaped : name.AllShaped := fun m hm =>
    allShaped_parse source m
      (mem_preorder_trans (mem_preorder_iff.mpr (.inr ⟨name, by simp [hchildren], hm⟩)) hn)
  have htext : Text.removeBlanks name.text ≠ "" := by
    obtain ⟨start, word, hword, htext⟩ := exists_word_of_isPlainName hshaped hname
    simp [htext, hword.ne_empty]
  exact ⟨front, name, back, isStatic, isWildcard, hchildren, hname, hshaped, hfront, hback,
    toImport_of_parts hchildren hname hfront hback htext⟩

/-- The imports of a source have names, without a blank in them. -/
theorem qualifiedName_of_parse {source : String} {d : ImportDeclaration}
    (hd : d ∈ (parse source).imports) :
    d.qualifiedName ≠ "" ∧ ∀ c ∈ d.qualifiedName.toList, Text.isBlank c = false := by
  obtain ⟨c, hc, hdeclared⟩ := List.mem_filterMap.mp hd
  unfold Cursor.declaredImport? at hdeclared
  split at hdeclared
  next hkind =>
    obtain rfl := Option.some.inj hdeclared
    have hnode := Tree.focus_mem_of_walk hc
    obtain ⟨-, name, -, isStatic, isWildcard, -, hname, hshaped, -, -, himport⟩ :=
      exists_parts_of_import hnode hkind
    obtain ⟨start, word, hword, htext⟩ := exists_word_of_isPlainName hshaped hname
    rw [himport]
    refine ⟨by simp [htext, hword.ne_empty], fun d hd => ?_⟩
    rw [String.toList_append, List.mem_append] at hd
    rcases hd with hd | hd
    · exact Text.not_isBlank_of_mem_removeBlanks hd
    · cases isWildcard
      · cases hd
      · have hmark : d = '.' ∨ d = '*' := by simpa using hd
        rcases hmark with rfl | rfl <;> rfl
  next => cases hdeclared

end ImportAudit.Java
