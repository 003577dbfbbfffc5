import ImportAudit.Java.Tree

/-!
# Walking a tree

A cursor stands on a node of a tree and knows the way back to the root. Walking goes to the first
child where there is one, else to the next sibling, else back up until there is a next sibling, and
so meets every node once, parents first.
-/

namespace ImportAudit.Java

/-- A step on the way from the root: the parent, the siblings before (nearest
first) and those after. -/
structure Crumb where
  parent : Tree
  before : List Tree
  after : List Tree

structure Cursor where
  focus : Tree
  trail : List Crumb

namespace Cursor

def root (t : Tree) : Cursor := ⟨t, []⟩

def firstChild? (c : Cursor) : Option Cursor :=
  match c.focus.children with
  | [] => none
  | t :: ts => some ⟨t, ⟨c.focus, [], ts⟩ :: c.trail⟩

def nextSibling? (c : Cursor) : Option Cursor :=
  match c.trail with
  | ⟨p, before, t :: ts⟩ :: up => some ⟨t, ⟨p, c.focus :: before, ts⟩ :: up⟩
  | _ => none

def parent? (c : Cursor) : Option Cursor :=
  match c.trail with
  | crumb :: up => some ⟨crumb.parent, up⟩
  | [] => none

def parentKind? (c : Cursor) : Option Kind :=
  c.trail.head?.map fun crumb => crumb.parent.kind

def previous? (c : Cursor) : Option Tree :=
  c.trail.head?.bind fun crumb => crumb.before.head?

/-- The cursors that a walk meets from here on; `done` says that the children of the focus have been
met. A walk enters and leaves each node at most once, which bounds the fuel. -/
def walkFrom : Nat → Cursor → Bool → List Cursor
  | 0, _, _ => []
  | fuel + 1, c, false =>
    c :: match c.firstChild? with
      | some child => walkFrom fuel child false
      | none => walkFrom fuel c true
  | fuel + 1, c, true =>
    match c.nextSibling? with
    | some sibling => walkFrom fuel sibling false
    | none =>
      match c.parent? with
      | some up => walkFrom fuel up true
      | none => []

def walk (t : Tree) : List Cursor :=
  walkFrom (2 * t.size) (root t) false

end Cursor

end ImportAudit.Java
