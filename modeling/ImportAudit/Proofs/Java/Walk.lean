import ImportAudit.Java.Cursor

/-!
# The places that a walk meets

A walk moves a cursor step by step. The places it meets are listed here by recursion on the tree
instead, so that what is gathered on a walk is known from the children of a node.
-/

namespace ImportAudit.Java

namespace Tree

mutual

def places (trail : List Crumb) : Tree → List Cursor
  | node k r l s cs => ⟨node k r l s cs, trail⟩ :: placesAll (node k r l s cs) trail [] cs

/-- The places in the children of a node; `before` are the children that come
before them, nearest first. -/
def placesAll (parent : Tree) (trail : List Crumb) (before : List Tree) : List Tree → List Cursor
  | [] => []
  | t :: ts => places (⟨parent, before, ts⟩ :: trail) t ++ placesAll parent trail (t :: before) ts

end

theorem places_eq (trail : List Crumb) (t : Tree) :
    t.places trail = ⟨t, trail⟩ :: placesAll t trail [] t.children := by
  cases t
  rw [places, children]

end Tree

namespace Cursor

open ImportAudit.Java.Tree

mutual

/-- A walk that enters a tree meets its places and then leaves it. -/
theorem walkFrom_tree (fuel : Nat) (trail : List Crumb) :
    ∀ t : Tree, walkFrom (fuel + 2 * t.size) ⟨t, trail⟩ false =
      t.places trail ++ walkFrom (fuel + 1) ⟨t, trail⟩ true
  | .node k r l s [] => by
      rw [size, sizeAll, places, placesAll]
      rfl
  | .node k r l s (c :: cs) => by
      let parent : Tree := .node k r l s (c :: cs)
      have hfirst := walkFrom_tree (fuel + 1 + 2 * sizeAll cs) (⟨parent, [], cs⟩ :: trail) c
      have hrest := walkFrom_siblings (fuel + 1) parent trail [] c cs
      have hfuel : fuel + 2 * parent.size = fuel + 1 + 2 * sizeAll cs + 2 * c.size + 1 := by
        simp only [parent, size, sizeAll]
        omega
      rw [hfuel, places, placesAll, List.cons_append, List.append_assoc, ← hrest, ← hfirst]
      rfl

theorem walkFrom_siblings (fuel : Nat) (parent : Tree) (trail : List Crumb) :
    ∀ (before : List Tree) (t : Tree) (ts : List Tree),
      walkFrom (fuel + 2 * sizeAll ts + 1) ⟨t, ⟨parent, before, ts⟩ :: trail⟩ true =
        placesAll parent trail (t :: before) ts ++ walkFrom fuel ⟨parent, trail⟩ true
  | before, t, [] => by
      rw [sizeAll, placesAll]
      rfl
  | before, t, s :: ss => by
      have htree := walkFrom_tree (fuel + 2 * sizeAll ss) (⟨parent, t :: before, ss⟩ :: trail) s
      have hrest := walkFrom_siblings fuel parent trail (t :: before) s ss
      have hfuel : fuel + 2 * sizeAll (s :: ss) + 1 = fuel + 2 * sizeAll ss + 2 * s.size + 1 := by
        rw [sizeAll]
        omega
      rw [hfuel, placesAll, List.append_assoc, ← hrest, ← htree]
      rfl

end

/-- The walk over a tree meets its places in order. -/
theorem walk_eq_places (t : Tree) : walk t = t.places [] := by
  have htree := walkFrom_tree 0 [] t
  rw [Nat.zero_add] at htree
  rw [walk, root, htree]
  exact List.append_nil _

/-! ## Parents and children -/

def child (p : Cursor) (before : List Tree) (t : Tree) (after : List Tree) : Cursor :=
  ⟨t, ⟨p.focus, before.reverse, after⟩ :: p.trail⟩

def IsChildOf (c p : Cursor) : Prop :=
  ∃ before after, p.focus.children = before ++ c.focus :: after ∧ c = p.child before c.focus after

end Cursor

namespace Tree

theorem self_mem_places (t : Tree) (trail : List Crumb) : ⟨t, trail⟩ ∈ t.places trail := by
  rw [places_eq]
  exact List.mem_cons_self

mutual

theorem places_subset : ∀ (t : Tree) (trail : List Crumb), ∀ c ∈ t.places trail,
    c.focus.places c.trail ⊆ t.places trail
  | node k r l s cs, trail, c, hc, d, hd => by
      rw [places] at hc
      rcases List.mem_cons.mp hc with rfl | hc
      · exact hd
      · rw [places]
        exact List.mem_cons_of_mem _ (placesAll_subset cs _ trail [] c hc hd)

theorem placesAll_subset :
    ∀ (ts : List Tree) (parent : Tree) (trail : List Crumb) (before : List Tree),
    ∀ c ∈ placesAll parent trail before ts,
      c.focus.places c.trail ⊆ placesAll parent trail before ts
  | [], _, _, _, c, hc => absurd hc List.not_mem_nil
  | t :: ts, parent, trail, before, c, hc => fun d hd => by
      rw [placesAll] at hc ⊢
      rcases List.mem_append.mp hc with hc | hc
      · exact List.mem_append_left _ (places_subset t _ c hc hd)
      · exact List.mem_append_right _ (placesAll_subset ts parent trail (t :: before) c hc hd)

end

theorem child_mem_placesAll (parent : Tree) (trail : List Crumb) (t : Tree)
    (before after xs : List Tree) :
    ⟨t, ⟨parent, xs.reverse ++ before, after⟩ :: trail⟩ ∈
      placesAll parent trail before (xs ++ t :: after) := by
  induction xs generalizing before with
  | nil =>
      rw [List.nil_append, placesAll]
      exact List.mem_append_left _ (self_mem_places t _)
  | cons x xs ih =>
      rw [List.cons_append, placesAll, List.reverse_cons, List.append_assoc]
      exact List.mem_append_right _ (ih (x :: before))

mutual

theorem exists_parent_of_places : ∀ (t : Tree) (trail : List Crumb), ∀ c ∈ t.places trail,
    c = ⟨t, trail⟩ ∨ ∃ p ∈ t.places trail, c.IsChildOf p
  | node k r l s cs, trail, c, hc => by
      rw [places] at hc ⊢
      rcases List.mem_cons.mp hc with rfl | hc
      · exact .inl rfl
      · right
        rcases exists_parent_of_placesAll cs (node k r l s cs) trail [] rfl c hc with hparent |
          ⟨p, hp, hchild⟩
        · exact ⟨_, List.mem_cons_self, hparent⟩
        · exact ⟨p, List.mem_cons_of_mem _ hp, hchild⟩

theorem exists_parent_of_placesAll :
    ∀ (ts : List Tree) (parent : Tree) (trail : List Crumb) (before : List Tree),
    parent.children = before.reverse ++ ts → ∀ c ∈ placesAll parent trail before ts,
      c.IsChildOf ⟨parent, trail⟩ ∨ ∃ p ∈ placesAll parent trail before ts, c.IsChildOf p
  | [], _, _, _, _, c, hc => absurd hc List.not_mem_nil
  | t :: ts, parent, trail, before, hparent, c, hc => by
      rw [placesAll] at hc ⊢
      rcases List.mem_append.mp hc with hc | hc
      · rcases exists_parent_of_places t _ c hc with rfl | ⟨p, hp, hchild⟩
        · exact .inl ⟨before.reverse, ts, hparent, by simp [Cursor.child]⟩
        · exact .inr ⟨p, List.mem_append_left _ hp, hchild⟩
      · have hrest : parent.children = (t :: before).reverse ++ ts := by simp [hparent]
        rcases exists_parent_of_placesAll ts parent trail (t :: before) hrest c hc with hchild |
          ⟨p, hp, hchild⟩
        · exact .inl hchild
        · exact .inr ⟨p, List.mem_append_right _ hp, hchild⟩

end

end Tree

namespace Cursor

open ImportAudit.Java.Tree

variable {t : Tree} {c p : Cursor}

theorem exists_parent_of_mem_walk (hc : c ∈ walk t) : c = root t ∨ ∃ p ∈ walk t, c.IsChildOf p := by
  rw [walk_eq_places] at hc ⊢
  exact exists_parent_of_places t [] c hc

theorem child_mem_walk (hp : p ∈ walk t) {before after : List Tree} {u : Tree}
    (hchildren : p.focus.children = before ++ u :: after) : p.child before u after ∈ walk t := by
  rw [walk_eq_places] at hp ⊢
  refine places_subset t [] p hp ?_
  rw [places_eq, hchildren]
  have hmem := child_mem_placesAll p.focus p.trail u [] after before
  rw [List.append_nil] at hmem
  exact List.mem_cons_of_mem _ hmem

end Cursor

end ImportAudit.Java
