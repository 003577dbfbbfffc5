import ImportAudit.Proofs.Java.Shapes

/-!
# The leaves of dotted names

A dotted name as the row of its leaves: words, dots between them and comments wherever they may
stand. Every name in a parsed tree is one, and its text is that of its leaves.
-/

namespace ImportAudit.Java

abbrev Leaf := Kind × String

def leafText : List Leaf → String
  | [] => ""
  | l :: ls => l.2 ++ leafText ls

theorem leafText_append (ls ms : List Leaf) : leafText (ls ++ ms) = leafText ls ++ leafText ms := by
  induction ls with
  | nil => simp [leafText]
  | cons l ls ih => rw [List.cons_append, leafText, leafText, ih, String.append_assoc]

def AreCommentLeaves (ls : List Leaf) : Prop :=
  ∀ l ∈ ls, l.1 = .comment ∧ IsComment l.2

/-- Whether leaves make a dotted name of the given words, with comments between words and dots. -/
inductive IsDottedName : List Leaf → List String → Prop
  | word {w : String} (hw : IsWord w) : IsDottedName [(.identifier, w)] [w]
  | dot {ls gap gap' : List Leaf} {ws : List String} {w : String} (h : IsDottedName ls ws)
      (hgap : AreCommentLeaves gap)
      (hgap' : AreCommentLeaves gap') (hw : IsWord w) :
      IsDottedName (ls ++ (gap ++ (.token, ".") :: (gap' ++ [(.identifier, w)]))) (ws ++ [w])

namespace Tree

def leaves (t : Tree) : List Leaf :=
  (t.preorder.filter fun n => n.children.isEmpty).map fun n => (n.kind, n.ownText)

def leavesAll (ts : List Tree) : List Leaf :=
  ts.flatMap leaves

variable {k : Kind} {r : Option Role} {l : Nat} {s : String} {ts us : List Tree}

theorem preorderAll_eq_flatMap (ts : List Tree) : preorderAll ts = ts.flatMap preorder := by
  induction ts with
  | nil => rfl
  | cons t ts ih => rw [preorderAll, List.flatMap_cons, ih]

theorem leaves_nil : (node k r l s []).leaves = [(k, s)] := by
  simp [leaves, preorder, preorderAll, children, kind, ownText]

theorem leaves_leaf : (leaf k l s).leaves = [(k, s)] :=
  leaves_nil

theorem leaves_node (hts : ts ≠ []) : (node k r l s ts).leaves = leavesAll ts := by
  have hempty : ts.isEmpty = false := by simpa using hts
  rw [leaves, preorder, preorderAll_eq_flatMap,
    List.filter_cons_of_neg (by simp [children, hempty]), List.filter_flatMap, List.map_flatMap]
  rfl

theorem leavesAll_append : leavesAll (ts ++ us) = leavesAll ts ++ leavesAll us :=
  List.flatMap_append

theorem leavesAll_cons (t : Tree) : leavesAll (t :: ts) = t.leaves ++ leavesAll ts :=
  List.flatMap_cons

theorem leavesAll_nil : leavesAll [] = [] := rfl

theorem textAll_append : textAll (ts ++ us) = textAll ts ++ textAll us := by
  induction ts with
  | nil => simp [textAll]
  | cons t ts ih => rw [List.cons_append, textAll, textAll, ih, String.append_assoc]

theorem AreComments.leavesAll (h : AreComments ts) :
    AreCommentLeaves (leavesAll ts) ∧ textAll ts = leafText (leavesAll ts) := by
  induction ts with
  | nil => exact ⟨fun l hl => absurd hl List.not_mem_nil, rfl⟩
  | cons t ts ih =>
      obtain ⟨ht, hts⟩ := List.forall_mem_cons.mp h
      obtain ⟨hleaves, htext⟩ := ih hts
      obtain ⟨line, text, rfl, hcomment⟩ := ht
      rw [leavesAll_cons, leaves_leaf]
      refine ⟨List.forall_mem_cons.mpr ⟨⟨rfl, hcomment⟩, hleaves⟩, ?_⟩
      rw [textAll, htext, leaf, Tree.text, textAll]
      simp [leafText]

theorem isDottedName_leaves {t : Tree} (ht : t.AllShaped) (hname : t.isPlainName = true) :
    (∃ ws, IsDottedName t.leaves ws) ∧ t.text = leafText t.leaves := by
  induction t using children_induction with
  | h t ih =>
      cases t with
      | node k r l s cs =>
          obtain ⟨hroot, hchildren⟩ := allShaped_iff.mp ht
          have hshape := hroot.shape
          rcases (Bool.or_eq_true _ _).mp hname with hk | hk
          · obtain rfl : k = .identifier := of_decide_eq_true hk
            obtain ⟨hword, rfl⟩ : IsWord s ∧ cs = [] := hshape
            rw [leaves_nil]
            exact ⟨⟨[s], .word hword⟩, by simp [Tree.text, textAll, leafText]⟩
          · obtain rfl : k = .scopedIdentifier := of_decide_eq_true hk
            obtain ⟨rfl, scope, gap, dot, gap', line, word, rfl, hscope, -, hgap, hgap', hword⟩ :
                s = "" ∧ IsDotted cs :=
              hshape
            have hmem :
                scope ∈ (node .scopedIdentifier r l "" (scope :: (gap ++ leaf .token dot "." ::
                (gap' ++ [(leaf .identifier line word).withRole .name])))).children :=
                  List.mem_cons_self
            obtain ⟨⟨ws, hws⟩, htext⟩ := ih scope hmem (hchildren scope hmem) hscope
            obtain ⟨hcomments, hgaptext⟩ := hgap.leavesAll
            obtain ⟨hcomments', hgaptext'⟩ := hgap'.leavesAll
            rw [leaves_node (List.cons_ne_nil _ _)]
            simp only [leavesAll_cons, leavesAll_append, leavesAll_nil, leaf, withRole, leaves_nil,
              List.append_nil, List.singleton_append]
            refine ⟨⟨ws ++ [word], hws.dot hcomments hcomments' hword⟩, ?_⟩
            simp [Tree.text, textAll, textAll_append, leafText, leafText_append, htext,
              hgaptext, hgaptext']

end Tree

/-! ## The last word -/

/-- The last word of a dotted name: the comments before it follow a dot, if
there is more than that word. -/
theorem IsDottedName.exists_last {ls : List Leaf} {ws : List String} (h : IsDottedName ls ws) :
    ∃ init gap w, ls = init ++ (gap ++ [(.identifier, w)]) ∧ AreCommentLeaves gap ∧ IsWord w ∧
      ws.getLast? = some w ∧
      (init = [] ∧ gap = [] ∨ ∃ before, init = before ++ [(.token, ".")]) := by
  cases h with
  | word hw =>
      exact ⟨[], [], _, rfl, fun l hl => absurd hl List.not_mem_nil, hw, rfl, .inl ⟨rfl, rfl⟩⟩
  | @dot ls gap gap' ws w h hgap hgap' hw =>
      refine ⟨ls ++ (gap ++ [(.token, ".")]), gap',
        w, by simp, hgap', hw, by simp, .inr ⟨ls ++ gap, by simp⟩⟩

end ImportAudit.Java
