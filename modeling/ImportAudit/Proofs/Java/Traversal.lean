import ImportAudit.Java.References
import ImportAudit.Proofs.Java.Walk
import Mathlib.Data.List.Lex

/-!
# A walk meets every node once

The walk over a tree is a loop that moves a cursor down, on and up again. It ends after two turns
for every node, and has then met the nodes in the order of their addresses. So what is gathered on
it is gathered in the order of the source.
-/

namespace ImportAudit.Java

namespace Cursor

open ImportAudit.Java.Tree

/-! ## The loop -/

/-- The loop of a walk, without a bound: from a place that is entered (`false`) or left (`true`) it
ends after a number of turns, and has met some places by then. -/
inductive Loops : Cursor → Bool → Nat → List Cursor → Prop
  | enter {c child : Cursor} {n : Nat} {cs : List Cursor} (hchild : c.firstChild? = some child)
      (rest : Loops child false n cs) :
      Loops c false (n + 1) (c :: cs)
  | leaf {c : Cursor} {n : Nat} {cs : List Cursor} (hchild : c.firstChild? = none)
      (rest : Loops c true n cs) :
      Loops c false (n + 1) (c :: cs)
  | next {c sibling : Cursor} {n : Nat} {cs : List Cursor} (hnext : c.nextSibling? = some sibling)
      (rest : Loops sibling false n cs) : Loops c true (n + 1) cs
  | up {c parent : Cursor} {n : Nat} {cs : List Cursor} (hnext : c.nextSibling? = none)
      (hparent : c.parent? = some parent)
      (rest : Loops parent true n cs) : Loops c true (n + 1) cs
  | stop {c : Cursor} (hnext : c.nextSibling? = none) (hparent : c.parent? = none) :
      Loops c true 1 []

variable {c : Cursor} {t : Tree} {done : Bool} {n m : Nat} {cs ds : List Cursor}

theorem Loops.unique (h : Loops c done n cs) (h' : Loops c done m ds) : n = m ∧ cs = ds := by
  induction h generalizing m ds with
  | enter hchild _ ih =>
      cases h' with
      | enter hchild' rest' =>
          obtain rfl := Option.some.inj (hchild.symm.trans hchild')
          obtain ⟨rfl, rfl⟩ := ih rest'
          exact ⟨rfl, rfl⟩
      | leaf hchild' => exact absurd (hchild.symm.trans hchild') (Option.some_ne_none _)
  | leaf hchild _ ih =>
      cases h' with
      | enter hchild' => exact absurd (hchild'.symm.trans hchild) (Option.some_ne_none _)
      | leaf _ rest' =>
          obtain ⟨rfl, rfl⟩ := ih rest'
          exact ⟨rfl, rfl⟩
  | next hnext _ ih =>
      cases h' with
      | next hnext' rest' =>
          obtain rfl := Option.some.inj (hnext.symm.trans hnext')
          obtain ⟨rfl, rfl⟩ := ih rest'
          exact ⟨rfl, rfl⟩
      | up hnext' => exact absurd (hnext.symm.trans hnext') (Option.some_ne_none _)
      | stop hnext' => exact absurd (hnext.symm.trans hnext') (Option.some_ne_none _)
  | up hnext hparent _ ih =>
      cases h' with
      | next hnext' => exact absurd (hnext'.symm.trans hnext) (Option.some_ne_none _)
      | up _ hparent' rest' =>
          obtain rfl := Option.some.inj (hparent.symm.trans hparent')
          obtain ⟨rfl, rfl⟩ := ih rest'
          exact ⟨rfl, rfl⟩
      | stop _ hparent' => exact absurd (hparent.symm.trans hparent') (Option.some_ne_none _)
  | stop hnext hparent =>
      cases h' with
      | next hnext' => exact absurd (hnext'.symm.trans hnext) (Option.some_ne_none _)
      | up _ hparent' => exact absurd (hparent'.symm.trans hparent) (Option.some_ne_none _)
      | stop => exact ⟨rfl, rfl⟩

mutual

/-- A loop that enters a tree meets its places before it leaves it: two turns for every node, of
which leaving the tree is the last. -/
theorem loops_tree (trail : List Crumb) : ∀ (t : Tree) (n : Nat) (cs : List Cursor),
    Loops ⟨t, trail⟩ true (n + 1) cs →
    Loops ⟨t, trail⟩ false (n + 2 * t.size) (t.places trail ++ cs)
  | .node k r l s [], n, cs, h => by
      rw [size, sizeAll, places, placesAll]
      exact .leaf rfl h
  | .node k r l s (c :: children), n, cs, h => by
      have hsiblings :=
        loops_siblings (.node k r l s (c :: children)) trail [] c children (n + 1) cs h
      have hchild :=
        loops_tree (⟨.node k r l s (c :: children), [], children⟩ :: trail) c _ _ hsiblings
      have hturns :
          n + 2 * (Tree.node k r l s (c :: children)).size = n + 1 + 2 * sizeAll children + 2 *
            c.size + 1 := by
        rw [size, sizeAll]
        omega
      rw [hturns, places, placesAll, List.cons_append, List.append_assoc]
      exact .enter rfl hchild

theorem loops_siblings (parent : Tree) (trail : List Crumb) :
    ∀ (before : List Tree) (t : Tree) (ts : List Tree) (n : Nat)
    (cs : List Cursor), Loops ⟨parent, trail⟩ true n cs →
      Loops ⟨t, ⟨parent, before, ts⟩ :: trail⟩ true (n + 2 * sizeAll ts + 1)
        (placesAll parent trail (t :: before) ts ++ cs)
  | before, t, [], n, cs, h => by
      rw [sizeAll, placesAll]
      exact .up rfl rfl h
  | before, t, s :: ss, n, cs, h => by
      have hsiblings := loops_siblings parent trail (t :: before) s ss n cs h
      have htree := loops_tree (⟨parent, t :: before, ss⟩ :: trail) s _ _ hsiblings
      have hturns : n + 2 * sizeAll (s :: ss) + 1 = n + 2 * sizeAll ss + 2 * s.size + 1 := by
        rw [sizeAll]
        omega
      rw [hturns, placesAll, List.append_assoc]
      exact .next rfl htree

end

theorem loops_root (t : Tree) : Loops (root t) false (2 * t.size) (t.places []) := by
  have hloops := loops_tree [] t 0 [] (.stop rfl rfl)
  rwa [Nat.zero_add, List.append_nil] at hloops

theorem loops_root_iff : Loops (root t) false n cs ↔ n = 2 * t.size ∧ cs = walk t := by
  rw [walk_eq_places]
  exact ⟨fun h => h.unique (loops_root t), fun ⟨hn, hcs⟩ => hn ▸ hcs ▸ loops_root t⟩

end Cursor

/-! ## Addresses -/

/-- The node at an address, which gives the number of the child to go to at
every step down from the root. -/
def Tree.at? (t : Tree) : List Nat → Option Tree
  | [] => some t
  | i :: address => t.children[i]?.bind fun c => c.at? address

def Crumb.address (trail : List Crumb) : List Nat :=
  (trail.map fun crumb => crumb.before.length).reverse

def Cursor.address (c : Cursor) : List Nat :=
  Crumb.address c.trail

theorem Crumb.address_cons (crumb : Crumb) (trail : List Crumb) :
    address (crumb :: trail) = address trail ++ [crumb.before.length] := by
  rw [address, address, List.map_cons, List.reverse_cons]

namespace Tree

mutual

/-- Every place in a tree is that of the node at its address. -/
theorem at?_of_mem_places : ∀ (t : Tree) (trail : List Crumb), ∀ c ∈ t.places trail,
    ∃ a, c.address = Crumb.address trail ++ a ∧ t.at? a = some c.focus
  | node k r l s cs, trail, c, hc => by
      rw [places] at hc
      rcases List.mem_cons.mp hc with rfl | hc
      · exact ⟨[], (List.append_nil _).symm, rfl⟩
      · obtain ⟨i, a, haddress, hat⟩ := at?_of_mem_placesAll cs _ trail [] c hc
        rw [List.length_nil, Nat.zero_add] at haddress
        exact ⟨i :: a, haddress, hat⟩

theorem at?_of_mem_placesAll :
    ∀ (ts : List Tree) (parent : Tree) (trail : List Crumb) (before : List Tree),
    ∀ c ∈ placesAll parent trail before ts, ∃ i a,
      c.address = Crumb.address trail ++ (before.length + i) :: a ∧
        (ts[i]?.bind fun t => t.at? a) = some c.focus
  | [], _, _, _, c, hc => absurd hc List.not_mem_nil
  | t :: ts, parent, trail, before, c, hc => by
      rw [placesAll] at hc
      rcases List.mem_append.mp hc with hc | hc
      · obtain ⟨a, haddress, hat⟩ := at?_of_mem_places t _ c hc
        rw [Crumb.address_cons, List.append_assoc, List.singleton_append] at haddress
        exact ⟨0, a, haddress, hat⟩
      · obtain ⟨i, a, haddress, hat⟩ := at?_of_mem_placesAll ts parent trail (t :: before) c hc
        rw [List.length_cons, Nat.add_right_comm] at haddress
        exact ⟨i + 1, a, haddress, hat⟩

end

theorem exists_place_of_at? {t n : Tree} {a : List Nat} (h : t.at? a = some n)
    (trail : List Crumb) :
    ∃ c ∈ t.places trail, c.address = Crumb.address trail ++ a ∧ c.focus = n := by
  induction a generalizing t trail with
  | nil =>
      obtain rfl := Option.some.inj h
      exact ⟨⟨t, trail⟩, self_mem_places t trail, (List.append_nil _).symm, rfl⟩
  | cons i a ih =>
      obtain ⟨child, hchild, hat⟩ := Option.bind_eq_some_iff.mp h
      obtain ⟨hlength, hget⟩ := List.getElem?_eq_some_iff.mp hchild
      have hsplit : t.children = t.children.take i ++ child :: t.children.drop (i + 1) := by
        rw [← hget, List.getElem_cons_drop, List.take_append_drop]
      have hplace :=
        child_mem_placesAll t trail child [] (t.children.drop (i + 1)) (t.children.take i)
      rw [← hsplit, List.append_nil] at hplace
      obtain ⟨c, hc, haddress, hfocus⟩ :=
        ih hat (⟨t, (t.children.take i).reverse, t.children.drop (i + 1)⟩ :: trail)
      refine ⟨c, ?_, ?_, hfocus⟩
      · rw [places_eq]
        exact List.mem_cons_of_mem _ (placesAll_subset _ t trail [] _ hplace hc)
      · rw [haddress, Crumb.address_cons, List.append_assoc, List.length_reverse, List.length_take,
          Nat.min_eq_left (Nat.le_of_lt hlength)]
        rfl

mutual

/-- The places of a tree come in the order of their addresses: a node before what is below it, and
one child with what is below it before the next. -/
theorem pairwise_address_places : ∀ (t : Tree) (trail : List Crumb),
    (t.places trail).Pairwise fun c d => List.Lex (· < ·) c.address d.address
  | node k r l s cs, trail => by
      rw [places]
      refine List.pairwise_cons.mpr ⟨fun c hc => ?_, pairwise_address_placesAll cs _ trail []⟩
      obtain ⟨i, a, haddress, -⟩ := at?_of_mem_placesAll cs _ trail [] c hc
      have hbelow :
          List.Lex (· < ·) (Crumb.address trail ++ []) (Crumb.address trail ++ (0 + i) :: a) :=
        List.Lex.append_left _ List.Lex.nil _
      rw [List.append_nil] at hbelow
      rw [haddress]
      exact hbelow

theorem pairwise_address_placesAll :
    ∀ (ts : List Tree) (parent : Tree) (trail : List Crumb) (before : List Tree),
    (placesAll parent trail before ts).Pairwise fun c d => List.Lex (· < ·) c.address d.address
  | [], _, _, _ => List.Pairwise.nil
  | t :: ts, parent, trail, before => by
      rw [placesAll]
      refine List.pairwise_append.mpr ⟨pairwise_address_places t _,
        pairwise_address_placesAll ts parent trail _, ?_⟩
      intro c hc d hd
      obtain ⟨a, hfirst, -⟩ := at?_of_mem_places t _ c hc
      obtain ⟨i, b, hsecond, -⟩ := at?_of_mem_placesAll ts parent trail (t :: before) d hd
      rw [hfirst, hsecond, Crumb.address_cons, List.append_assoc]
      refine List.Lex.append_left (· < ·) (List.Lex.rel ?_) _
      show before.length < before.length + 1 + i
      omega

end

mutual

theorem map_focus_places : ∀ (t : Tree) (trail : List Crumb),
    (t.places trail).map (·.focus) = t.preorder
  | node k r l s cs, trail => by rw [places, List.map_cons, map_focus_placesAll cs, preorder]

theorem map_focus_placesAll :
    ∀ (ts : List Tree) (parent : Tree) (trail : List Crumb) (before : List Tree),
    (placesAll parent trail before ts).map (·.focus) = preorderAll ts
  | [], _, _, _ => by rw [placesAll, preorderAll, List.map_nil]
  | t :: ts, parent, trail, before => by
      rw [placesAll, List.map_append, map_focus_places t, map_focus_placesAll ts, preorderAll]

end

end Tree

namespace Cursor

variable {t : Tree} {c : Cursor}

theorem map_focus_walk (t : Tree) : (walk t).map (·.focus) = t.preorder := by
  rw [walk_eq_places, Tree.map_focus_places]

theorem exists_mem_walk_iff {a : List Nat} {n : Tree} :
    (∃ c ∈ walk t, c.address = a ∧ c.focus = n) ↔ t.at? a = some n := by
  rw [walk_eq_places]
  constructor
  · rintro ⟨c, hc, rfl, rfl⟩
    obtain ⟨a, haddress, hat⟩ := Tree.at?_of_mem_places t [] c hc
    rw [haddress]
    exact hat
  · intro hat
    exact Tree.exists_place_of_at? hat []

theorem IsChildOf.address_eq {p : Cursor} {before after : List Tree}
    (h : c = p.child before c.focus after) :
    c.address = p.address ++ [before.length] := by
  rw [h, address, child, Crumb.address_cons, List.length_reverse]
  rfl

theorem surroundings_of_mem_walk (hc : c ∈ walk t) {a : List Nat} {i : Nat}
    (haddress : c.address = a ++ [i]) :
    ∃ p, t.at? a = some p ∧ p.children[i]? = some c.focus ∧ c.parentKind? = some p.kind ∧
      c.previous? = if i = 0 then none else p.children[i - 1]? := by
  rcases exists_parent_of_mem_walk hc with rfl | ⟨p, hp, before, after, hchildren, hchild⟩
  · exact absurd haddress.symm (List.append_ne_nil_of_right_ne_nil a (List.cons_ne_nil i []))
  · obtain ⟨rfl, hi⟩ := List.append_inj' (haddress.symm.trans (IsChildOf.address_eq hchild)) rfl
    obtain rfl := List.singleton_inj.mp hi
    refine ⟨p.focus, exists_mem_walk_iff.mp ⟨p, hp, rfl, rfl⟩, ?_, ?_, ?_⟩
    · rw [hchildren, List.getElem?_append_right (Nat.le_refl _), Nat.sub_self]
      rfl
    · rw [hchild]
      rfl
    · have hprevious : c.previous? = before.getLast? := by
        rw [hchild, ← List.head?_reverse]
        rfl
      rw [hprevious, List.getLast?_eq_getElem?, hchildren]
      split
      next hzero => rw [List.length_eq_zero_iff.mp hzero]; rfl
      next hzero => rw [List.getElem?_append_left (by omega)]

/-- Whether places are those of all nodes of a tree, each of them once and in pre-order, and each
with what it is to its parent. -/
structure Enumerates (cs : List Cursor) (t : Tree) : Prop where
  nodes : (cs.map fun c => (c.focus, c.focus.role)) = t.preorder.map fun n => (n, n.role)
  ordered : cs.Pairwise fun c d => List.Lex (· < ·) c.address d.address
  complete : ∀ a n, (∃ c ∈ cs, c.address = a ∧ c.focus = n) ↔ t.at? a = some n
  surroundings : ∀ c ∈ cs, ∀ a i, c.address = a ++ [i] → ∃ p, t.at? a = some p ∧
    p.children[i]? = some c.focus ∧
    c.parentKind? = some p.kind ∧ c.previous? = if i = 0 then none else p.children[i - 1]?

theorem enumerates_walk (t : Tree) : Enumerates (walk t) t where
  nodes := by
    rw [← map_focus_walk, List.map_map]
    rfl
  ordered := by
    rw [walk_eq_places]
    exact Tree.pairwise_address_places t []
  complete _ _ := exists_mem_walk_iff
  surroundings _ hc _ _ := surroundings_of_mem_walk hc

end Cursor

/-! ## Lines -/

namespace Tree

mutual

/-- Whether a tree is laid out between two lines: its nodes start there, none before its parent, and
each sibling ends before the next one starts. -/
def Spans (first last : Nat) : Tree → Prop
  | node _ _ line _ cs => first ≤ line ∧ SpansAll line last cs

def SpansAll (first last : Nat) : List Tree → Prop
  | [] => first ≤ last
  | t :: ts => ∃ finish, Spans first finish t ∧ SpansAll finish last ts

end

def InSourceOrder (t : Tree) : Prop :=
  ∃ first last, t.Spans first last

mutual

theorem Spans.lines : ∀ (t : Tree) {first last : Nat}, t.Spans first last → first ≤ last ∧
    (∀ n ∈ t.preorder, first ≤ n.line ∧ n.line ≤ last) ∧ t.preorder.Pairwise fun m n =>
      m.line ≤ n.line
  | node k r line s cs, first, last, h => by
      obtain ⟨hfirst, hbelow⟩ := h
      obtain ⟨hlast, hall, hordered⟩ := SpansAll.lines cs hbelow
      rw [preorder]
      refine ⟨Nat.le_trans hfirst hlast, List.forall_mem_cons.mpr ⟨⟨hfirst, hlast⟩, fun n hn => ?_⟩,
        List.pairwise_cons.mpr ⟨fun n hn => (hall n hn).1, hordered⟩⟩
      exact ⟨Nat.le_trans hfirst (hall n hn).1, (hall n hn).2⟩

theorem SpansAll.lines : ∀ (ts : List Tree) {first last : Nat}, SpansAll first last ts →
    first ≤ last ∧ (∀ n ∈ preorderAll ts, first ≤ n.line ∧ n.line ≤ last) ∧
      (preorderAll ts).Pairwise fun m n => m.line ≤ n.line
  | [], first, last, h => ⟨h, fun n hn => absurd hn List.not_mem_nil, List.Pairwise.nil⟩
  | t :: ts, first, last, h => by
      obtain ⟨finish, htree, hrest⟩ := h
      obtain ⟨hfinish, hin, hordered⟩ := Spans.lines t htree
      obtain ⟨hlast, hafter, hordered'⟩ := SpansAll.lines ts hrest
      rw [preorderAll]
      refine ⟨Nat.le_trans hfinish hlast, fun n hn => ?_,
        List.pairwise_append.mpr ⟨hordered, hordered', fun m hm n hn => ?_⟩⟩
      · rcases List.mem_append.mp hn with hn | hn
        · exact ⟨(hin n hn).1, Nat.le_trans (hin n hn).2 hlast⟩
        · exact ⟨Nat.le_trans hfinish (hafter n hn).1, (hafter n hn).2⟩
      · exact Nat.le_trans (hin m hm).2 (hafter n hn).1

end

theorem InSourceOrder.pairwise_line {t : Tree} (h : t.InSourceOrder) :
    t.preorder.Pairwise fun m n => m.line ≤ n.line := by
  obtain ⟨first, last, hspans⟩ := h
  exact (Spans.lines t hspans).2.2

/-! ## What is gathered -/

variable {α : Type}

/-- What is gathered of nodes alone is gathered in pre-order. -/
theorem filterMap_walk (t : Tree) (p : Tree → Bool) (f : Tree → Option α) :
    ((Cursor.walk t).filterMap fun c => if p c.focus = true then f c.focus else none) =
      (t.preorder.filter p).filterMap f := by
  rw [← Cursor.map_focus_walk, List.filterMap_filter, List.filterMap_map]
  rfl

theorem filterMap_ite_some (cs : List Cursor) (p : Cursor → Bool) (f : Cursor → α) :
    (cs.filterMap fun c => if p c = true then some (f c) else none) = (cs.filter p).map f := by
  rw [← List.filterMap_eq_map, List.filterMap_filter]
  rfl

/-- The lists that are gathered on a walk, each by the kind of its nodes. -/
structure GathersByKind (t : Tree) : Prop where
  imports : t.imports = (t.preorder.filter fun n => n.kind = .importDeclaration).map toImport
  names : t.references.names =
    ((Cursor.walk t).filter fun c => c.focus.kind = .identifier && c.isReference).map
      fun c => c.focus.text
  types : t.references.types =
    ((Cursor.walk t).filter fun c =>
        c.focus.kind = .typeIdentifier && c.parentKind? != some .typeParameter).map fun c =>
      c.focus.text
  annotations : t.references.annotations =
    (t.preorder.filter fun n =>
        n.kind = .annotationUse || n.kind = .markerAnnotationUse).filterMap fun n =>
      (n.childWithRole? .name).map lastSegment
  calls : t.references.calls =
    (t.preorder.filter fun n => n.kind = .methodInvocation).filterMap fun n =>
      (n.childWithRole? .name).map text
  fields : t.references.fields =
    (t.preorder.filter fun n => n.kind = .fieldAccess).filterMap fun n =>
      (n.childWithRole? .field).bind fun m => if m.kind = .identifier then some m.text else none

theorem gathersByKind (t : Tree) : t.GathersByKind where
  imports := by
    rw [← List.filterMap_eq_map, ← filterMap_walk]
    simp only [decide_eq_true_eq]
    rfl
  names := by
    rw [← filterMap_ite_some]
    rfl
  types := by
    rw [← filterMap_ite_some]
    rfl
  annotations := by
    rw [← filterMap_walk]
    rfl
  calls := by
    rw [← filterMap_walk]
    simp only [decide_eq_true_eq]
    rfl
  fields := by
    rw [← filterMap_walk]
    simp only [decide_eq_true_eq]
    rfl

theorem firstFaultLine?_eq (t : Tree) :
    t.firstFaultLine? = (t.preorder.find? isFault).map line := by
  rw [firstFaultLine?, ← Cursor.map_focus_walk, List.find?_map, Option.map_map]
  rfl

/-- In a tree that is laid out in the order of the source the first fault of a walk
is the first in the source. -/
theorem InSourceOrder.firstFaultLine?_eq_some_iff {t : Tree} (h : t.InSourceOrder) {line : Nat} :
    t.firstFaultLine? = some line ↔
      (∃ n ∈ t.preorder, n.isFault = true ∧ n.line = line) ∧ ∀ n ∈ t.preorder, n.isFault = true →
        line ≤ n.line := by
  have hleast : ∀ m, t.preorder.find? isFault = some m → ∀ n ∈ t.preorder, n.isFault = true →
      m.line ≤ n.line := by
    intro m hm n hn hfault
    obtain ⟨-, before, after, hsplit, hnone⟩ := List.find?_eq_some_iff_append.mp hm
    have hordered := h.pairwise_line
    rw [hsplit] at hn hordered
    rcases List.mem_append.mp hn with hn | hn
    · exact absurd hfault (by simpa using hnone n hn)
    · rcases List.mem_cons.mp hn with rfl | hn
      · exact Nat.le_refl _
      · exact (List.pairwise_cons.mp (List.pairwise_append.mp hordered).2.1).1 n hn
  rw [firstFaultLine?_eq, Option.map_eq_some_iff]
  constructor
  · rintro ⟨m, hm, rfl⟩
    exact ⟨⟨m, List.mem_of_find?_eq_some hm, List.find?_some hm, rfl⟩, hleast m hm⟩
  · rintro ⟨⟨n, hn, hfault, rfl⟩, hmin⟩
    obtain ⟨m, hm⟩ := Option.isSome_iff_exists.mp (List.find?_isSome.mpr ⟨n, hn, hfault⟩)
    refine ⟨m, hm,
      Nat.le_antisymm (hleast m hm n hn hfault)
        (hmin m (List.mem_of_find?_eq_some hm) (List.find?_some hm))⟩

theorem InSourceOrder.pairwise_imports {t : Tree} (h : t.InSourceOrder) :
    (t.imports.filterMap (·.line)).Pairwise (· ≤ ·) := by
  rw [(gathersByKind t).imports, List.filterMap_map, List.pairwise_filterMap]
  refine (h.pairwise_line.filter _).imp fun {m n} hle a ha b hb => ?_
  obtain rfl := Option.some.inj ha
  obtain rfl := Option.some.inj hb
  exact hle

end Tree

/-- The loop of a walk ends on every tree, after two turns for every node, and has then met all
nodes, each once and in pre-order and with the role that it has in its parent. So each list that is
gathered on a walk has what the nodes of its kind give, in pre-order, with one import
for every import declaration; and the line of the first fault is that of the first fault in
pre-order. In a tree whose children are laid out in the order of the source the imports come in
that order, and the first fault is on the smallest line that has one. -/
theorem walk_meets_every_node_once (t : Tree) :
    (∀ n cs, Cursor.Loops (.root t) false n cs ↔ n = 2 * t.size ∧ cs = Cursor.walk t) ∧
    Cursor.Enumerates (Cursor.walk t) t ∧
    t.GathersByKind ∧
    t.firstFaultLine? = (t.preorder.find? Tree.isFault).map Tree.line ∧
    (t.InSourceOrder → (t.imports.filterMap (·.line)).Pairwise (· ≤ ·) ∧
      ∀ line, t.firstFaultLine? = some line ↔
        (∃ n ∈ t.preorder, n.isFault = true ∧ n.line = line) ∧ ∀ n ∈ t.preorder, n.isFault = true →
          line ≤ n.line) :=
  ⟨fun _ _ => Cursor.loops_root_iff, Cursor.enumerates_walk t, t.gathersByKind,
    t.firstFaultLine?_eq, fun h => ⟨h.pairwise_imports, fun _ => h.firstFaultLine?_eq_some_iff⟩⟩

/-- Three faults, the first of them below a block that starts before it: seven nodes are met in
fourteen turns, and the fault on the third line is the first. -/
theorem walk_meets_nested_faults :
    let t : Tree :=
      .node .program none 1 "" [.node .importDeclaration none 1 "" [.leaf .identifier 1 "a"],
      .node .block none 2 "" [.leaf .error 3 "?", .leaf .missing 4 ""], .leaf .error 4 "!"]
    t.InSourceOrder ∧ Cursor.Loops (.root t) false 14 (Cursor.walk t) ∧
      (Cursor.walk t).map Cursor.address = [[], [0], [0, 0], [1], [1, 0], [1, 1], [2]] ∧
        t.firstFaultLine? = some 3 := by
  intro t
  have hordered : t.InSourceOrder :=
    ⟨1, 4, by decide, 1, ⟨by decide, 1, ⟨by decide, Nat.le_refl 1⟩, Nat.le_refl 1⟩, 4,
      ⟨by decide, 3, ⟨by decide, Nat.le_refl 3⟩, 4, ⟨by decide, Nat.le_refl 4⟩, Nat.le_refl 4⟩, 4,
      ⟨by decide, Nat.le_refl 4⟩, Nat.le_refl 4⟩
  obtain ⟨hloops, -, -, -, hlines⟩ := walk_meets_every_node_once t
  refine ⟨hordered,
    (hloops _ _).mpr ⟨rfl, rfl⟩, by decide, ((hlines hordered).2 3).mpr ⟨by decide, by decide⟩⟩

end ImportAudit.Java
