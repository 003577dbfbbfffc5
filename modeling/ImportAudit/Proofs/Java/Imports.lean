import ImportAudit.Java.References
import ImportAudit.Proofs.Java.Walk

/-!
# Trees and their import declarations

The import declarations of a tree can be taken out of it. Where they are made of names
and marks only, stand in no name and in no method reference, nothing that the tree
refers to is lost or gained by that.
-/

namespace ImportAudit.Java

namespace Tree

variable {t : Tree} {P : Tree → Prop}

/-! ## Nodes of a tree -/

theorem mem_preorder_self (t : Tree) : t ∈ t.preorder := by
  cases t
  rw [preorder]
  exact List.mem_cons_self

theorem mem_preorderAll {ts : List Tree} {n : Tree} : n ∈ preorderAll ts ↔
    ∃ t ∈ ts, n ∈ t.preorder := by
  induction ts with
  | nil => simp [preorderAll]
  | cons t ts ih => simp [preorderAll, ih]

theorem mem_preorder_iff {n : Tree} : n ∈ t.preorder ↔
    n = t ∨ ∃ c ∈ t.children, n ∈ c.preorder := by
  cases t
  rw [preorder, List.mem_cons, mem_preorderAll]
  rfl

mutual

theorem children_induction (h : ∀ t : Tree, (∀ c ∈ t.children, P c) → P t) : (t : Tree) → P t
  | node _ _ _ _ cs => h _ (children_inductionAll h cs)

theorem children_inductionAll (h : ∀ t : Tree, (∀ c ∈ t.children, P c) → P t) :
    (ts : List Tree) → ∀ c ∈ ts, P c
  | [] => fun _ hc => absurd hc List.not_mem_nil
  | t :: ts => List.forall_mem_cons.mpr ⟨children_induction h t, children_inductionAll h ts⟩

end

theorem mem_preorder_trans {m n : Tree} (hm : m ∈ n.preorder) (hn : n ∈ t.preorder) :
    m ∈ t.preorder := by
  induction t using children_induction with
  | h t ih =>
      rcases mem_preorder_iff.mp hn with rfl | ⟨c, hc, hn⟩
      · exact hm
      · exact mem_preorder_iff.mpr (.inr ⟨c, hc, ih c hc hn⟩)

theorem forall_preorder_iff :
    (∀ n ∈ t.preorder, P n) ↔ P t ∧ ∀ c ∈ t.children, ∀ n ∈ c.preorder, P n := by
  constructor
  · intro h
    exact ⟨h t t.mem_preorder_self, fun c hc n hn => h n (mem_preorder_iff.mpr (.inr ⟨c, hc, hn⟩))⟩
  · rintro ⟨hroot, hchildren⟩ n hn
    rcases mem_preorder_iff.mp hn with rfl | ⟨c, hc, hn⟩
    · exact hroot
    · exact hchildren c hc n hn

mutual

def decEq : (t u : Tree) → Decidable (t = u)
  | node k r l s cs, node k' r' l' s' cs' =>
    if h : k = k' ∧ r = r' ∧ l = l' ∧ s = s' then
      match decEqAll cs cs' with
      | .isTrue hcs => .isTrue (by rw [h.1, h.2.1, h.2.2.1, h.2.2.2, hcs])
      | .isFalse hcs => .isFalse fun heq => hcs (node.inj heq).2.2.2.2
    else .isFalse fun heq =>
      h (by obtain ⟨hk, hr, hl, hs, -⟩ := node.inj heq; exact ⟨hk, hr, hl, hs⟩)

def decEqAll : (ts us : List Tree) → Decidable (ts = us)
  | [], [] => .isTrue rfl
  | [], _ :: _ => .isFalse fun h => nomatch h
  | _ :: _, [] => .isFalse fun h => nomatch h
  | t :: ts, u :: us =>
    match decEq t u, decEqAll ts us with
    | .isTrue ht, .isTrue hts => .isTrue (by rw [ht, hts])
    | .isFalse ht, _ => .isFalse fun h => ht (List.cons.inj h).1
    | _, .isFalse hts => .isFalse fun h => hts (List.cons.inj h).2

end

instance : DecidableEq Tree := decEq

/-! ## Taking imports out -/

mutual

/-- The tree without the import declarations in it. Lines are left out too: what comes after
an import stands on another line without it. -/
def withoutImports : Tree → Tree
  | node k r _ s cs => node k r 0 s (withoutImportsAll cs)

def withoutImportsAll : List Tree → List Tree
  | [] => []
  | t :: ts =>
    if t.kind = .importDeclaration then withoutImportsAll ts
    else withoutImports t :: withoutImportsAll ts

end

@[simp] theorem kind_withoutImports (t : Tree) : t.withoutImports.kind = t.kind := by
  cases t
  rw [withoutImports, kind, kind]

@[simp] theorem role_withoutImports (t : Tree) : t.withoutImports.role = t.role := by
  cases t
  rw [withoutImports, role, role]

@[simp] theorem ownText_withoutImports (t : Tree) : t.withoutImports.ownText = t.ownText := by
  cases t
  rw [withoutImports, ownText, ownText]

theorem children_withoutImports (t : Tree) :
    t.withoutImports.children = withoutImportsAll t.children := by
  cases t
  rw [withoutImports, children, children]

def ImportFree (t : Tree) : Prop :=
  ∀ n ∈ t.preorder, n.kind ≠ .importDeclaration

theorem ImportFree.kind_ne (h : t.ImportFree) : t.kind ≠ .importDeclaration :=
  h t t.mem_preorder_self

theorem ImportFree.child (h : t.ImportFree) {c : Tree} (hc : c ∈ t.children) : c.ImportFree :=
  (forall_preorder_iff.mp h).2 c hc

mutual

theorem importFree_withoutImports : ∀ t : Tree, t.kind ≠ .importDeclaration →
    t.withoutImports.ImportFree
  | node k r l s cs, hkind => by
      refine forall_preorder_iff.mpr ⟨by rwa [kind_withoutImports], fun c hc => ?_⟩
      rw [children_withoutImports] at hc
      exact importFree_withoutImportsAll cs c hc

theorem importFree_withoutImportsAll : ∀ (ts : List Tree), ∀ c ∈ withoutImportsAll ts, c.ImportFree
  | [], c, hc => absurd hc List.not_mem_nil
  | t :: ts, c, hc => by
      rw [withoutImportsAll] at hc
      by_cases hkind : t.kind = .importDeclaration
      · rw [if_pos hkind] at hc
        exact importFree_withoutImportsAll ts c hc
      · rw [if_neg hkind] at hc
        rcases List.mem_cons.mp hc with rfl | hc
        · exact importFree_withoutImports t hkind
        · exact importFree_withoutImportsAll ts c hc

end

mutual

theorem text_withoutImports : ∀ t : Tree, t.ImportFree → t.withoutImports.text = t.text
  | node k r l s cs, hfree => by
      rw [withoutImports, text, text, textAll_withoutImports cs fun c hc => hfree.child hc]

theorem textAll_withoutImports : ∀ ts : List Tree, (∀ t ∈ ts, t.ImportFree) →
    textAll (withoutImportsAll ts) = textAll ts
  | [], _ => rfl
  | t :: ts, hfree => by
      have ht := hfree t List.mem_cons_self
      rw [withoutImportsAll, if_neg ht.kind_ne, textAll, textAll, text_withoutImports t ht,
        textAll_withoutImports ts fun u hu => hfree u (List.mem_cons_of_mem t hu)]

end

/-- A child with a role is found where the children with that role are no imports. -/
theorem childWithRole?_withoutImports {r : Role}
    (h : ∀ c ∈ t.children, c.role = some r → c.kind ≠ .importDeclaration) :
    t.withoutImports.childWithRole? r = (t.childWithRole? r).map withoutImports := by
  unfold childWithRole?
  rw [children_withoutImports]
  generalize t.children = cs at h
  induction cs with
  | nil => rfl
  | cons c cs ih =>
      have hrest := ih fun d hd => h d (List.mem_cons_of_mem c hd)
      rw [withoutImportsAll]
      by_cases hrole : c.role = some r
      · rw [if_neg (h c List.mem_cons_self hrole)]
        simp [hrole]
      · by_cases hkind : c.kind = .importDeclaration
        · rw [if_pos hkind, hrest]
          simp [hrole]
        · rw [if_neg hkind]
          simpa [hrole] using hrest

/-! ## Imports that are declared -/

mutual

theorem focus_mem_of_places : ∀ (t : Tree) (trail : List Crumb), ∀ c ∈ t.places trail,
    c.focus ∈ t.preorder
  | node k r l s cs, trail, c, hc => by
      rw [places] at hc
      rcases List.mem_cons.mp hc with rfl | hc
      · exact mem_preorder_self _
      · exact mem_preorder_iff.mpr (.inr (focus_mem_of_placesAll cs _ trail [] c hc))

theorem focus_mem_of_placesAll :
    ∀ (ts : List Tree) (parent : Tree) (trail : List Crumb) (before : List Tree),
    ∀ c ∈ placesAll parent trail before ts, ∃ t ∈ ts, c.focus ∈ t.preorder
  | [], _, _, _, c, hc => absurd hc List.not_mem_nil
  | t :: ts, parent, trail, before, c, hc => by
      rw [placesAll] at hc
      rcases List.mem_append.mp hc with hc | hc
      · exact ⟨t, List.mem_cons_self, focus_mem_of_places t _ c hc⟩
      · obtain ⟨u, hu, hfocus⟩ := focus_mem_of_placesAll ts parent trail (t :: before) c hc
        exact ⟨u, List.mem_cons_of_mem t hu, hfocus⟩

end

theorem focus_mem_of_walk {c : Cursor} (hc : c ∈ Cursor.walk t) : c.focus ∈ t.preorder := by
  rw [Cursor.walk_eq_places] at hc
  exact focus_mem_of_places t [] c hc

theorem exists_place_of_mem_preorder {n : Tree} (hn : n ∈ t.preorder) (trail : List Crumb) :
    ∃ c ∈ t.places trail, c.focus = n := by
  induction t using children_induction generalizing trail with
  | h t ih =>
      rcases mem_preorder_iff.mp hn with rfl | ⟨child, hchild, hn⟩
      · exact ⟨_, self_mem_places n trail, rfl⟩
      · obtain ⟨before, after, hchildren⟩ := List.append_of_mem hchild
        obtain ⟨c, hc, hfocus⟩ := ih child hchild hn (⟨t, before.reverse ++ [], after⟩ :: trail)
        have hplace : ⟨child, ⟨t, before.reverse ++ [], after⟩ :: trail⟩ ∈ t.places trail := by
          rw [places_eq, hchildren]
          exact List.mem_cons_of_mem _ (child_mem_placesAll t trail child [] after before)
        exact ⟨c, places_subset t trail _ hplace hc, hfocus⟩

theorem imports_eq_nil (h : t.ImportFree) : t.imports = [] := by
  unfold imports
  rw [Cursor.walk_eq_places, List.filterMap_eq_nil_iff]
  intro c hc
  exact if_neg (h c.focus (focus_mem_of_places t [] c hc))

/-! ## Where imports stand -/

/-- A part of an import declaration: a keyword, a symbol, a comment, a simple or
dotted name, or the asterisk. -/
inductive IsImportPart : Tree → Prop
  | leaf {k r l s} (hk : k = .token ∨ k = .comment ∨ k = .identifier) : IsImportPart
      (node k r l s [])
  | dotted {r l s cs} (hcs : ∀ c ∈ cs, IsImportPart c) :
      IsImportPart (node .scopedIdentifier r l s cs)
  | asterisk {r l s cs} (hcs : ∀ c ∈ cs, c.children = [] ∧ (c.kind = .token ∨ c.kind = .comment)) :
      IsImportPart (node .asterisk r l s cs)

/-- Whether a node gives a name: an identifier, or what is in the place of a
name or of a selected member. -/
def IsName (t : Tree) : Prop :=
  t.kind = .identifier ∨ t.kind = .typeIdentifier ∨ t.role = some .name ∨ t.role = some .field

/-- A node that keeps imports apart from references. -/
structure KeepsImportsApart (t : Tree) : Prop where
  parts : t.kind = .importDeclaration → ∀ c ∈ t.children, c.IsImportPart
  reference : t.kind = .methodReference → ∀ c ∈ t.children, c.kind ≠ .importDeclaration
  name : t.IsName → t.ImportFree

def ImportsInPlace (t : Tree) : Prop :=
  ∀ n ∈ t.preorder, n.KeepsImportsApart

theorem ImportFree.importsInPlace (h : t.ImportFree) : t.ImportsInPlace := by
  intro n hn
  have hfree : n.ImportFree := by
    intro m hm
    exact h m (mem_preorder_trans hm hn)
  exact ⟨fun hkind => absurd hkind hfree.kind_ne, fun _ c hc => (hfree.child hc).kind_ne,
    fun _ => hfree⟩

theorem ImportsInPlace.root (h : t.ImportsInPlace) : t.KeepsImportsApart :=
  h t t.mem_preorder_self

theorem ImportsInPlace.child (h : t.ImportsInPlace) {c : Tree} (hc : c ∈ t.children) :
    c.ImportsInPlace :=
  (forall_preorder_iff.mp h).2 c hc

theorem ImportsInPlace.importFree_of_role (h : t.ImportsInPlace) {r : Role}
    (hr : r = .name ∨ r = .field) {c : Tree} (hc : c ∈ t.children) (hrole : c.role = some r) :
    c.ImportFree := by
  refine (h.child hc).root.name ?_
  rcases hr with rfl | rfl
  · exact .inr (.inr (.inl hrole))
  · exact .inr (.inr (.inr hrole))

theorem role_of_childWithRole? {r : Role} {c : Tree} (h : t.childWithRole? r = some c) :
    c ∈ t.children ∧ c.role = some r :=
  ⟨List.mem_of_find?_eq_some h, by simpa using List.find?_some h⟩

theorem ImportsInPlace.bind_childWithRole? {α : Type} (h : t.ImportsInPlace) {r : Role}
    (hr : r = .name ∨ r = .field) {f : Tree → Option α}
    (hf : ∀ c : Tree, c.ImportFree → f c.withoutImports = f c) :
    (t.withoutImports.childWithRole? r).bind f = (t.childWithRole? r).bind f := by
  rw [childWithRole?_withoutImports fun c hc hrole => (h.importFree_of_role hr hc hrole).kind_ne]
  cases hchild : t.childWithRole? r with
  | none => rfl
  | some c =>
      obtain ⟨hc, hrole⟩ := role_of_childWithRole? hchild
      exact hf c (h.importFree_of_role hr hc hrole)

theorem ImportsInPlace.map_childWithRole? {α : Type} (h : t.ImportsInPlace) {r : Role}
    (hr : r = .name ∨ r = .field) {f : Tree → α}
    (hf : ∀ c : Tree, c.ImportFree → f c.withoutImports = f c) :
    (t.withoutImports.childWithRole? r).map f = (t.childWithRole? r).map f := by
  rw [Option.map_eq_bind, Option.map_eq_bind]
  exact h.bind_childWithRole? hr fun c hc => congrArg some (hf c hc)

theorem lastSegment_withoutImports (hfree : t.ImportFree) :
    t.withoutImports.lastSegment = t.lastSegment := by
  have hname := hfree.importsInPlace.map_childWithRole? (.inl rfl) text_withoutImports
  unfold lastSegment
  rw [kind_withoutImports, text_withoutImports t hfree]
  split
  next =>
    cases hchild : t.childWithRole? .name <;>
      cases hchild' : t.withoutImports.childWithRole? .name <;>
      simp_all
  next => rfl

end Tree

/-! ## What a walk gathers -/

namespace Cursor

open ImportAudit.Java.Tree

def importKinds : List Kind :=
  [.importDeclaration, .token, .comment, .asterisk, .scopedIdentifier]

def IsImportPlace (c : Cursor) : Prop :=
  c.focus.kind ∈ importKinds ∨
  c.focus.kind = .identifier ∧
    (c.parentKind? = some .importDeclaration ∨ c.parentKind? = some .scopedIdentifier)

/-- Whether a place is the same as another but for the imports around and below it. -/
structure Matches (c d : Cursor) : Prop where
  focus : d.focus = c.focus.withoutImports
  parent : d.parentKind? = c.parentKind?
  previous : c.parentKind? = some .methodReference →
    d.previous?.any isDoubleColon = c.previous?.any isDoubleColon

/-- Whether what is gathered from places does not depend on imports. -/
structure OverlooksImports {α : Type} (q : Cursor → Option α) : Prop where
  silent : ∀ c, c.IsImportPlace → q c = none
  same : ∀ c d, c.focus.ImportsInPlace → c.Matches d → q d = q c

namespace OverlooksImports

variable {α : Type} {q : Cursor → Option α}

/-! ### Import declarations -/

theorem places_of_silent {t : Tree} {trail : List Crumb} (h : q ⟨t, trail⟩ = none) :
    (t.places trail).filterMap q = (placesAll t trail [] t.children).filterMap q := by
  rw [places_eq, List.filterMap_cons_none h]

theorem placesAll_eq_nil {parent : Tree} {trail : List Crumb} {before ts : List Tree}
    (h : ∀ t ∈ ts, ∀ crumb : Crumb, crumb.parent = parent →
      (t.places (crumb :: trail)).filterMap q = []) :
    (placesAll parent trail before ts).filterMap q = [] := by
  induction ts generalizing before with
  | nil => rfl
  | cons t ts ih =>
      rw [placesAll, List.filterMap_append, h t List.mem_cons_self _ rfl,
        ih fun u hu => h u (List.mem_cons_of_mem t hu)]
      rfl

/-- Nothing is gathered from a part of an import declaration, however deep the name in it. -/
theorem places_of_part (hq : OverlooksImports q) {t : Tree} (ht : t.IsImportPart) {crumb : Crumb}
    (hcrumb : crumb.parent.kind = .importDeclaration ∨ crumb.parent.kind = .scopedIdentifier)
    (trail : List Crumb) : (t.places (crumb :: trail)).filterMap q = [] := by
  induction ht generalizing crumb trail with
  | @leaf k r l s hk =>
      have hplace : IsImportPlace ⟨node k r l s [], crumb :: trail⟩ := by
        rcases hk with rfl | rfl | rfl
        · exact .inl (by simp [kind, importKinds])
        · exact .inl (by simp [kind, importKinds])
        · exact .inr ⟨rfl, hcrumb.imp (congrArg some) (congrArg some)⟩
      rw [places_of_silent (hq.silent _ hplace)]
      rfl
  | @dotted r l s cs hcs ih =>
      rw [places_of_silent (hq.silent _ (.inl (by simp [kind, importKinds])))]
      apply placesAll_eq_nil
      intro c hc crumb hparent
      refine ih c hc (.inr ?_) _
      rw [hparent, kind]
  | @asterisk r l s cs hcs =>
      rw [places_of_silent (hq.silent _ (.inl (by simp [kind, importKinds])))]
      apply placesAll_eq_nil
      intro c hc crumb _
      obtain ⟨hleaf, hkind⟩ := hcs c hc
      have hplace : ∀ trail, IsImportPlace ⟨c, trail⟩ := by
        intro trail
        rcases hkind with hkind | hkind
        · exact .inl (by simp [hkind, importKinds])
        · exact .inl (by simp [hkind, importKinds])
      rw [places_of_silent (hq.silent _ (hplace _)), hleaf]
      rfl

theorem places_of_import (hq : OverlooksImports q) {t : Tree} (ht : t.ImportsInPlace)
    (hkind : t.kind = .importDeclaration) (trail : List Crumb) :
    (t.places trail).filterMap q = [] := by
  rw [places_of_silent (hq.silent _ (.inl (by simp [hkind, importKinds])))]
  apply placesAll_eq_nil
  intro c hc crumb hparent
  exact hq.places_of_part (ht.root.parts hkind c hc) (.inl (hparent ▸ hkind)) trail

/-! ### Trees with and without imports -/

mutual

/-- The same is gathered from a tree with and without its imports, wherever it stands. -/
theorem places_withoutImports (hq : OverlooksImports q) : ∀ (t : Tree) (trail trail' : List Crumb),
    t.ImportsInPlace → Matches ⟨t, trail⟩ ⟨t.withoutImports, trail'⟩ →
    (t.withoutImports.places trail').filterMap q = (t.places trail).filterMap q
  | node k r l s cs, trail, trail', ht, hmatches => by
      have hroot := hq.same _ _ ht hmatches
      have hchildren :=
        placesAll_withoutImports hq cs (node k r l s cs) (node k r l s cs).withoutImports
        trail trail' [] [] (kind_withoutImports _) (fun c hc => ht.child hc) fun hkind =>
          ⟨fun c hc => ht.root.reference hkind c hc, rfl⟩
      rw [places_eq, places_eq, List.filterMap_cons, List.filterMap_cons, hroot,
        children_withoutImports]
      cases q ⟨node k r l s cs, trail⟩ with
      | none => exact hchildren
      | some a => exact congrArg (a :: ·) hchildren

/-- The same of siblings, of which only those of a method reference count for
what comes after them. -/
theorem placesAll_withoutImports (hq : OverlooksImports q) :
    ∀ (ts : List Tree) (parent parent' : Tree)
    (trail trail' : List Crumb) (before before' : List Tree), parent'.kind = parent.kind →
    (∀ t ∈ ts, t.ImportsInPlace) →
    (parent.kind = .methodReference → (∀ t ∈ ts, t.kind ≠ .importDeclaration) ∧
      before'.head?.any isDoubleColon = before.head?.any isDoubleColon) →
    (placesAll parent' trail' before' (withoutImportsAll ts)).filterMap q =
      (placesAll parent trail before ts).filterMap q
  | [], _, _, _, _, _, _, _, _, _ => rfl
  | t :: ts, parent, parent', trail, trail', before, before', hparent, hts, hreference => by
      have ht := hts t List.mem_cons_self
      have hrest := fun u hu => hts u (List.mem_cons_of_mem t hu)
      rw [withoutImportsAll, placesAll, List.filterMap_append]
      by_cases hkind : t.kind = .importDeclaration
      · rw [if_pos hkind, hq.places_of_import ht hkind, List.nil_append]
        refine placesAll_withoutImports hq ts parent parent' trail trail' _ _ hparent hrest
          fun href => ?_
        exact absurd hkind ((hreference href).1 t List.mem_cons_self)
      · have hmatches : Matches ⟨t, ⟨parent, before, ts⟩ :: trail⟩
            ⟨t.withoutImports, ⟨parent', before', withoutImportsAll ts⟩ :: trail'⟩ :=
          ⟨rfl, congrArg some hparent, fun href => (hreference (Option.some.inj href)).2⟩
        rw [if_neg hkind, placesAll, List.filterMap_append,
          places_withoutImports hq t _ _ ht hmatches,
          placesAll_withoutImports hq ts parent parent' trail trail' (t :: before)
            (t.withoutImports :: before')
            hparent hrest fun href =>
              ⟨fun u hu => (hreference href).1 u (List.mem_cons_of_mem t hu), ?_⟩]
        simp [isDoubleColon]

end

/-- A walk gathers the same with and without imports. -/
theorem walk_withoutImports (hq : OverlooksImports q) {t : Tree} (ht : t.ImportsInPlace) :
    (walk t.withoutImports).filterMap q = (walk t).filterMap q := by
  rw [walk_eq_places, walk_eq_places]
  exact hq.places_withoutImports t [] [] ht ⟨rfl, rfl, fun h => by cases h⟩

end OverlooksImports

/-! ## References -/

theorem isReference_of_matches {c d : Cursor} (h : c.Matches d) :
    d.isReference = c.isReference := by
  unfold isReference
  rw [h.focus, role_withoutImports, h.parent]
  split
  next => rfl
  next =>
    split
    next => rfl
    next href => rw [h.previous href]
    next => rfl

theorem isReference_eq_false {c : Cursor}
    (h : c.parentKind? = some .importDeclaration ∨ c.parentKind? = some .scopedIdentifier) :
    c.isReference = false := by
  unfold isReference
  rcases h with h | h <;> rw [h] <;> simp [namingKinds]

theorem IsImportPlace.kind_ne {c : Cursor} (h : c.IsImportPlace) {k : Kind}
    (hk : k ∉ Kind.identifier :: importKinds) : c.focus.kind ≠ k := by
  rintro rfl
  rcases h with hkind | ⟨hkind, -⟩
  · exact hk (List.mem_cons_of_mem _ hkind)
  · exact hk (hkind ▸ List.mem_cons_self)

theorem overlooksImports_name? : OverlooksImports name? where
  silent c hc := by
    unfold name?
    rcases hc with hkind | ⟨-, hparent⟩
    · have hne : c.focus.kind ≠ .identifier := by
        intro heq
        rw [heq] at hkind
        revert hkind
        decide
      simp [hne]
    · simp [isReference_eq_false hparent]
  same c d hc h := by
    unfold name?
    rw [isReference_of_matches h, h.focus, kind_withoutImports]
    by_cases hkind : c.focus.kind = .identifier
    · rw [text_withoutImports _ (hc.root.name (.inl hkind))]
    · simp [hkind]

theorem overlooksImports_type? : OverlooksImports type? where
  silent c hc := by
    have hne : c.focus.kind ≠ .typeIdentifier := hc.kind_ne (by decide)
    simp [type?, hne]
  same c d hc h := by
    unfold type?
    rw [h.parent, h.focus, kind_withoutImports]
    by_cases hkind : c.focus.kind = .typeIdentifier
    · rw [text_withoutImports _ (hc.root.name (.inr (.inl hkind)))]
    · simp [hkind]

theorem overlooksImports_annotationName? : OverlooksImports annotationName? where
  silent c hc := by
    have hne : c.focus.kind ≠ .annotationUse := hc.kind_ne (by decide)
    have hne' : c.focus.kind ≠ .markerAnnotationUse := hc.kind_ne (by decide)
    simp [annotationName?, hne, hne']
  same c d hc h := by
    unfold annotationName?
    rw [h.focus, kind_withoutImports, hc.map_childWithRole? (.inl rfl) fun m hm =>
      lastSegment_withoutImports hm]

theorem overlooksImports_call? : OverlooksImports call? where
  silent c hc := by
    have hne : c.focus.kind ≠ .methodInvocation := hc.kind_ne (by decide)
    simp [call?, hne]
  same c d hc h := by
    unfold call?
    rw [h.focus, kind_withoutImports, hc.map_childWithRole? (.inl rfl) text_withoutImports]

theorem overlooksImports_field? : OverlooksImports field? where
  silent c hc := by
    have hne : c.focus.kind ≠ .fieldAccess := hc.kind_ne (by decide)
    simp [field?, hne]
  same c d hc h := by
    unfold field?
    rw [h.focus, kind_withoutImports, hc.bind_childWithRole? (.inr rfl) fun m hm => ?_]
    rw [kind_withoutImports, text_withoutImports m hm]

end Cursor

theorem Tree.references_withoutImports {t : Tree} (ht : t.ImportsInPlace) :
    t.withoutImports.references = t.references := by
  simp only [references]
  rw [Cursor.overlooksImports_name?.walk_withoutImports ht,
    Cursor.overlooksImports_type?.walk_withoutImports ht,
    Cursor.overlooksImports_annotationName?.walk_withoutImports ht,
    Cursor.overlooksImports_call?.walk_withoutImports ht,
    Cursor.overlooksImports_field?.walk_withoutImports ht]

end ImportAudit.Java
