import ImportAudit.Proofs.Import.Verdict
import ImportAudit.Proofs.Java.ParseTrees

/-!
# Programs with further declarations

What is gathered at a place depends on the node, on the kind of its parent, and on the sibling
before it in a method reference. None of this goes beyond a declaration at the top of a program, so
a program refers to what its declarations refer to, one after the other.
-/

namespace ImportAudit

namespace Java

/-! ## Trees up to lines -/

namespace Tree

mutual

def withoutLines : Tree → Tree
  | node k r _ s cs => node k r 0 s (withoutLinesAll cs)

def withoutLinesAll : List Tree → List Tree
  | [] => []
  | t :: ts => withoutLines t :: withoutLinesAll ts

end

theorem withoutLinesAll_eq_map (ts : List Tree) : withoutLinesAll ts = ts.map withoutLines := by
  induction ts with
  | nil => rfl
  | cons t ts ih => rw [withoutLinesAll, ih, List.map_cons]

@[simp] theorem kind_withoutLines (t : Tree) : t.withoutLines.kind = t.kind := by
  cases t
  rw [withoutLines, kind, kind]

@[simp] theorem role_withoutLines (t : Tree) : t.withoutLines.role = t.role := by
  cases t
  rw [withoutLines, role, role]

@[simp] theorem ownText_withoutLines (t : Tree) : t.withoutLines.ownText = t.ownText := by
  cases t
  rw [withoutLines, ownText, ownText]

theorem children_withoutLines (t : Tree) :
    t.withoutLines.children = t.children.map withoutLines := by
  cases t
  rw [withoutLines, children, children, withoutLinesAll_eq_map]

mutual

@[simp] theorem text_withoutLines : ∀ t : Tree, t.withoutLines.text = t.text
  | node k r l s cs => by rw [withoutLines, text, text, textAll_withoutLines cs]

theorem textAll_withoutLines : ∀ ts : List Tree, textAll (withoutLinesAll ts) = textAll ts
  | [] => rfl
  | t :: ts => by rw [withoutLinesAll, textAll, textAll, text_withoutLines t,
    textAll_withoutLines ts]

end

theorem childWithRole?_withoutLines (t : Tree) (r : Role) :
    t.withoutLines.childWithRole? r = (t.childWithRole? r).map withoutLines := by
  unfold childWithRole?
  rw [children_withoutLines, List.find?_map]
  simp only [Function.comp_def, role_withoutLines]

theorem lastSegment_withoutLines (t : Tree) : t.withoutLines.lastSegment = t.lastSegment := by
  unfold lastSegment
  rw [kind_withoutLines, text_withoutLines, childWithRole?_withoutLines]
  cases t.childWithRole? .name with
  | none => rfl
  | some c => simp only [Option.map_some, text_withoutLines]

theorem toImport_withoutLines (t : Tree) : t.withoutLines.toImport.SameImport t.toImport := by
  have hname :
      (t.withoutLines.children.filter fun c =>
        c.kind = .identifier || c.kind = .scopedIdentifier).getLast?.map text =
      (t.children.filter fun c =>
        c.kind = .identifier || c.kind = .scopedIdentifier).getLast?.map text := by
    rw [children_withoutLines, List.filter_map, List.getLast?_map, Option.map_map]
    simp [Function.comp_def]
  have hwildcard : (t.withoutLines.children.any fun c => c.kind = .asterisk) =
      t.children.any fun c => c.kind = .asterisk := by
    rw [children_withoutLines, List.any_map]
    simp [Function.comp_def]
  have hstatic : (t.withoutLines.children.any fun c => c.kind = .token && c.ownText == "static") =
      t.children.any fun c => c.kind = .token && c.ownText == "static" := by
    rw [children_withoutLines, List.any_map]
    simp [Function.comp_def]
  unfold toImport ImportDeclaration.SameImport
  dsimp only
  rw [hname, hwildcard, hstatic]
  exact ⟨rfl, rfl⟩

end Tree

/-! ## What is gathered at alike places -/

namespace Cursor

open ImportAudit.Java.Tree

/-- Whether two places are alike for all that is gathered on a walk. -/
structure Alike (c d : Cursor) : Prop where
  focus : c.focus.withoutLines = d.focus.withoutLines
  parent : c.parentKind? = d.parentKind?
  previous : c.parentKind? = some .methodReference →
    c.previous?.any isDoubleColon = d.previous?.any isDoubleColon

/-- Whether what is gathered at a place is the same at every place that is alike. -/
def IsLocal {α : Type} (q : Cursor → Option α) : Prop :=
  ∀ c d : Cursor, c.Alike d → q c = q d

namespace Alike

variable {c d : Cursor}

theorem kind_eq (h : c.Alike d) : c.focus.kind = d.focus.kind := by
  rw [← kind_withoutLines, h.focus, kind_withoutLines]

theorem role_eq (h : c.Alike d) : c.focus.role = d.focus.role := by
  rw [← role_withoutLines, h.focus, role_withoutLines]

theorem text_eq (h : c.Alike d) : c.focus.text = d.focus.text := by
  rw [← text_withoutLines, h.focus, text_withoutLines]

theorem bind_child {α : Type} (h : c.Alike d) (r : Role) {f : Tree → Option α}
    (hf : ∀ t, f t.withoutLines = f t) :
    (c.focus.childWithRole? r).bind f = (d.focus.childWithRole? r).bind f := by
  have herased :
      ∀ t : Tree, (t.withoutLines.childWithRole? r).bind f = (t.childWithRole? r).bind f := by
    intro t
    rw [childWithRole?_withoutLines]
    cases t.childWithRole? r with
    | none => rfl
    | some child => exact hf child
  rw [← herased, h.focus, herased]

theorem map_child {α : Type} (h : c.Alike d) (r : Role) {f : Tree → α}
    (hf : ∀ t, f t.withoutLines = f t) :
    (c.focus.childWithRole? r).map f = (d.focus.childWithRole? r).map f := by
  rw [Option.map_eq_bind, Option.map_eq_bind]
  exact h.bind_child r fun t => congrArg some (hf t)

theorem isReference_eq (h : c.Alike d) : c.isReference = d.isReference := by
  unfold isReference
  rw [h.role_eq]
  split
  next => rfl
  next =>
    have hprevious := h.previous
    rw [h.parent] at hprevious ⊢
    split
    next => rfl
    next href => rw [hprevious href]
    next => rfl

end Alike

theorem isLocal_name? : IsLocal name? := by
  intro c d h
  unfold name?
  rw [h.kind_eq, h.isReference_eq, h.text_eq]

theorem isLocal_type? : IsLocal type? := by
  intro c d h
  unfold type?
  rw [h.kind_eq, h.parent, h.text_eq]

theorem isLocal_annotationName? : IsLocal annotationName? := by
  intro c d h
  unfold annotationName?
  rw [h.kind_eq, h.map_child .name lastSegment_withoutLines]

theorem isLocal_call? : IsLocal call? := by
  intro c d h
  unfold call?
  rw [h.kind_eq, h.map_child .name text_withoutLines]

theorem isLocal_field? : IsLocal field? := by
  intro c d h
  unfold field?
  rw [h.kind_eq, h.bind_child .field]
  intro t
  rw [kind_withoutLines, text_withoutLines]

def importKey? (c : Cursor) : Option (String × Bool) :=
  c.declaredImport?.map fun d => (d.qualifiedName, d.isStatic)

theorem isLocal_importKey? : IsLocal importKey? := by
  intro c d h
  have herased :
      ∀ t : Tree, (t.withoutLines.toImport.qualifiedName, t.withoutLines.toImport.isStatic) =
      (t.toImport.qualifiedName, t.toImport.isStatic) := fun t =>
    Prod.ext (toImport_withoutLines t).1 (toImport_withoutLines t).2
  unfold importKey? declaredImport?
  rw [h.kind_eq]
  split
  next =>
    simp only [Option.map_some]
    rw [← herased, h.focus, herased]
  next => rfl

namespace IsLocal

variable {α : Type} {q : Cursor → Option α}

mutual

/-- The same is gathered from trees that are the same but for lines and stand in alike places. -/
theorem places_eq_of_alike (hq : IsLocal q) : ∀ (t u : Tree) (trail trail' : List Crumb),
    Alike ⟨t, trail⟩ ⟨u, trail'⟩ → (t.places trail).filterMap q = (u.places trail').filterMap q
  | node k r l s cs, u, trail, trail', halike => by
      have hroot := hq _ _ halike
      have hcs : cs.map withoutLines = u.children.map withoutLines := by
        rw [← children_withoutLines, ← halike.focus, children_withoutLines]
        rfl
      have hchildren :=
        placesAll_eq_of_alike hq cs u.children (node k r l s cs) u trail trail' [] []
          halike.kind_eq hcs
        fun _ => rfl
      rw [places_eq, places_eq, List.filterMap_cons, List.filterMap_cons, hroot]
      cases q ⟨u, trail'⟩ with
      | none => exact hchildren
      | some a => exact congrArg (a :: ·) hchildren

theorem placesAll_eq_of_alike (hq : IsLocal q) : ∀ (ts us : List Tree) (parent parent' : Tree)
    (trail trail' : List Crumb) (before before' : List Tree), parent.kind = parent'.kind →
    ts.map withoutLines = us.map withoutLines →
    (parent.kind = .methodReference →
      before.head?.any isDoubleColon = before'.head?.any isDoubleColon) →
    (placesAll parent trail before ts).filterMap q =
      (placesAll parent' trail' before' us).filterMap q
  | [], [], _, _, _, _, _, _, _, _, _ => rfl
  | t :: ts, u :: us, parent, parent', trail, trail', before, before', hparent, hsame, hbefore => by
      obtain ⟨htu, hrest⟩ := List.cons.inj hsame
      have halike :
          Alike ⟨t, ⟨parent, before, ts⟩ :: trail⟩ ⟨u, ⟨parent', before', us⟩ :: trail'⟩ :=
        ⟨htu, congrArg some hparent, fun href => hbefore (Option.some.inj href)⟩
      have hcolon : t.isDoubleColon = u.isDoubleColon := by
        unfold isDoubleColon
        rw [halike.kind_eq, ← ownText_withoutLines t, htu, ownText_withoutLines]
      rw [placesAll, placesAll, List.filterMap_append, List.filterMap_append,
        places_eq_of_alike hq t u _ _ halike,
        placesAll_eq_of_alike hq ts us parent parent' trail trail' (t :: before)
          (u :: before') hparent hrest
          fun _ => by simpa using hcolon]
  | [], _ :: _, _, _, _, _, _, _, _, hsame, _ => nomatch hsame
  | _ :: _, [], _, _, _, _, _, _, _, hsame, _ => nomatch hsame

end

/-- What is gathered from the children of a program, one after the other: siblings do not matter. -/
theorem placesAll_program (hq : IsLocal q) {parent : Tree} (hparent : parent.kind = .program)
    (before ts : List Tree) :
    (placesAll parent [] before ts).filterMap q =
      ts.flatMap fun t => (placesAll (Tree.inner .program [t]) [] [] [t]).filterMap q := by
  induction ts generalizing before with
  | nil => rfl
  | cons t ts ih =>
      have hfirst : (t.places [⟨parent, before, ts⟩]).filterMap q =
          (placesAll (Tree.inner .program [t]) [] [] [t]).filterMap q := by
        have halike :
            Alike ⟨t, [⟨parent, before, ts⟩]⟩ ⟨t, [⟨Tree.inner .program [t], [], []⟩]⟩ := by
          refine ⟨rfl, congrArg some hparent, fun href => ?_⟩
          have hreference : parent.kind = .methodReference := Option.some.inj href
          rw [hparent] at hreference
          cases hreference
        rw [placesAll, placesAll, List.append_nil, hq.places_eq_of_alike t t _ _ halike]
      rw [placesAll, List.filterMap_append, hfirst, ih, List.flatMap_cons]

theorem walk_program (hq : IsLocal q)
    (hsilent : ∀ c : Cursor, c.focus.kind = .program → q c = none) {t : Tree}
    (ht : t.kind = .program) :
    (walk t).filterMap q = t.children.flatMap fun c =>
      (walk (Tree.inner .program [c])).filterMap q := by
  have hroot : ∀ p : Tree, p.kind = .program →
      (walk p).filterMap q = (placesAll p [] [] p.children).filterMap q := by
    intro p hp
    rw [walk_eq_places, places_eq, List.filterMap_cons_none (hsilent ⟨p, []⟩ hp)]
  rw [hroot t ht, hq.placesAll_program ht]
  refine List.flatMap_congr fun c _ => ?_
  rw [hroot _ rfl]
  rfl

/-- Declarations that are the same but for lines make the same of a walk over a program. -/
theorem walk_single (hq : IsLocal q)
    (hsilent : ∀ c : Cursor, c.focus.kind = .program → q c = none) {t u : Tree}
    (h : t.withoutLines = u.withoutLines) :
    (walk (Tree.inner .program [t])).filterMap q =
      (walk (Tree.inner .program [u])).filterMap q := by
  rw [walk_eq_places, walk_eq_places, places_eq, places_eq,
    List.filterMap_cons_none (hsilent _ rfl), List.filterMap_cons_none (hsilent _ rfl)]
  exact hq.placesAll_eq_of_alike [t] [u] _ _ [] [] [] [] rfl
    (by rw [List.map_singleton, List.map_singleton, h]) nofun

end IsLocal

end Cursor

/-! ## Lists with something put in -/

/-- Whether a list is made of two others, each in its order, up to a relation. -/
inductive Inserted {α : Type} (same : α → α → Prop) : List α → List α → List α → Prop
  | nil : Inserted same [] [] []
  | keep {x y xs new ys} (hxy : same x y) (hrest : Inserted same xs new ys) :
      Inserted same (x :: xs) new (y :: ys)
  | add {x y xs new ys} (hxy : same x y) (hrest : Inserted same xs new ys) :
      Inserted same xs (x :: new) (y :: ys)

namespace Inserted

variable {α β : Type} {xs new ys : List α}

theorem keep_append (zs : List α) (h : Inserted Eq xs new ys) :
    Inserted Eq (zs ++ xs) new (zs ++ ys) := by
  induction zs with
  | nil => exact h
  | cons z zs ih => exact .keep rfl ih

theorem add_append (zs : List α) (h : Inserted Eq xs new ys) :
    Inserted Eq xs (zs ++ new) (zs ++ ys) := by
  induction zs with
  | nil => exact h
  | cons z zs ih => exact .add rfl ih

theorem flatMap {same : α → α → Prop} (h : Inserted same xs new ys) {f : α → List β}
    (hf : ∀ x y, same x y → f x = f y) :
    Inserted Eq (xs.flatMap f) (new.flatMap f) (ys.flatMap f) := by
  induction h with
  | nil => exact .nil
  | keep hxy _ ih =>
      rw [List.flatMap_cons, List.flatMap_cons, hf _ _ hxy]
      exact ih.keep_append _
  | add hxy _ ih =>
      rw [List.flatMap_cons, List.flatMap_cons, hf _ _ hxy]
      exact ih.add_append _

theorem at_front {f : α → β} (h : ys.map f = (new ++ xs).map f) :
    Inserted (fun x y => f x = f y) xs new ys := by
  induction new generalizing ys with
  | nil =>
      induction xs generalizing ys with
      | nil =>
          rw [List.map_eq_nil_iff.mp h]
          exact .nil
      | cons x xs ih =>
          obtain ⟨y, ys, rfl, hy, hys⟩ := List.map_eq_cons_iff.mp h
          exact .keep hy.symm (ih hys)
  | cons x new ih =>
      obtain ⟨y, ys, rfl, hy, hys⟩ := List.map_eq_cons_iff.mp h
      exact .add hy.symm (ih hys)

theorem at_place {f : α → β} (n : Nat) (h : ys.map f = (xs.take n ++ new ++ xs.drop n).map f) :
    Inserted (fun x y => f x = f y) xs new ys := by
  induction n generalizing xs ys with
  | zero => exact at_front (by simpa using h)
  | succ n ih =>
      cases xs with
      | nil => exact at_front (by simpa using h)
      | cons x xs =>
          obtain ⟨y, ys, rfl, hy, hys⟩ := List.map_eq_cons_iff.mp h
          exact .keep hy.symm (ih hys)

theorem mem_iff (h : Inserted Eq xs new ys) {a : α} : a ∈ ys ↔ a ∈ xs ∨ a ∈ new := by
  induction h with
  | nil => simp
  | keep hxy _ ih => rw [List.mem_cons, List.mem_cons, ih, hxy, or_assoc]
  | add hxy _ ih => rw [List.mem_cons, List.mem_cons, ih, hxy, or_left_comm]

end Inserted

end Java

/-! ## Programs -/

def References.lists : List (References → List String) :=
  [names, types, annotations, calls, fields]

def UsageIndex.sets : List (UsageIndex → List String) :=
  [identifiers, types, annotations, callables]

def ImportDeclaration.key (d : ImportDeclaration) : String × Bool :=
  (d.qualifiedName, d.isStatic)

namespace Java

theorem kind_parse (source : String) : (parse source).kind = .program := by
  unfold parse
  dsimp only
  split <;> rfl

theorem Tree.references_gathered {list : References → List String}
    (hlist : list ∈ References.lists) :
    ∃ q : Cursor → Option String, Cursor.IsLocal q ∧
      (∀ c : Cursor, c.focus.kind = .program → q c = none) ∧
      ∀ t : Tree, list t.references = (Cursor.walk t).filterMap q := by
  simp only [References.lists, List.mem_cons, List.not_mem_nil, or_false] at hlist
  rcases hlist with rfl | rfl | rfl | rfl | rfl
  · exact ⟨_, Cursor.isLocal_name?, fun c hc => by simp [Cursor.name?, hc], fun t => rfl⟩
  · exact ⟨_, Cursor.isLocal_type?, fun c hc => by simp [Cursor.type?, hc], fun t => rfl⟩
  · exact ⟨_, Cursor.isLocal_annotationName?,
      fun c hc => by simp [Cursor.annotationName?, hc], fun t => rfl⟩
  · exact ⟨_, Cursor.isLocal_call?, fun c hc => by simp [Cursor.call?, hc], fun t => rfl⟩
  · exact ⟨_, Cursor.isLocal_field?, fun c hc => by simp [Cursor.field?, hc], fun t => rfl⟩

theorem Tree.importKeys_gathered (t : Tree) :
    t.imports.map (·.key) = (Cursor.walk t).filterMap Cursor.importKey? := by
  rw [Tree.imports, List.map_filterMap]
  rfl

theorem Cursor.importKey?_program {c : Cursor} (hc : c.focus.kind = .program) :
    c.importKey? = none := by
  simp [Cursor.importKey?, Cursor.declaredImport?, hc]

/-- What a walk gathers from a program with further declarations. -/
theorem Cursor.IsLocal.inserted {α : Type} {q : Cursor → Option α} (hq : IsLocal q)
    (hsilent : ∀ c : Cursor, c.focus.kind = .program → q c = none) {small large : Tree}
    {added : List Tree} (hsmall : small.kind = .program) (hlarge : large.kind = .program)
    (hadded : Inserted (fun t u => t.withoutLines = u.withoutLines) small.children added
      large.children) :
    Inserted Eq ((walk small).filterMap q) ((walk (Tree.inner .program added)).filterMap q)
      ((walk large).filterMap q) := by
  rw [hq.walk_program hsilent hsmall, hq.walk_program hsilent hlarge, hq.walk_program hsilent rfl]
  exact hadded.flatMap fun t u htu => hq.walk_single hsilent htu

theorem uses_of_subset {r s : References}
    (h : ∀ list ∈ References.lists, ∀ name ∈ list r, name ∈ list s) {isStatic : Bool}
    {name : String} (huses : r.Uses isStatic name) : s.Uses isStatic name := by
  simp only [References.lists, List.forall_mem_cons] at h
  obtain ⟨hnames, htypes, hannotations, hcalls, hfields, -⟩ := h
  rcases huses with ⟨hstatic, hcall | hfield⟩ | ⟨hstatic, hname | htype | hannotation⟩
  · exact .inl ⟨hstatic, .inl (hcalls name hcall)⟩
  · exact .inl ⟨hstatic, .inr (hfields name hfield)⟩
  · exact .inr ⟨hstatic, .inl (hnames name hname)⟩
  · exact .inr ⟨hstatic, .inr (.inl (htypes name htype))⟩
  · exact .inr ⟨hstatic, .inr (.inr (hannotations name hannotation))⟩

theorem mem_ofReferences_iff {r s whole : References}
    (h : ∀ list ∈ References.lists, ∀ name, name ∈ list whole ↔ name ∈ list r ∨ name ∈ list s)
    {set : UsageIndex → List String} (hset : set ∈ UsageIndex.sets) (name : String) :
    name ∈ set (.ofReferences whole) ↔ name ∈ set (.ofReferences r) ∨
      name ∈ set (.ofReferences s) := by
  simp only [References.lists, List.forall_mem_cons] at h
  obtain ⟨hnames, htypes, hannotations, hcalls, hfields, -⟩ := h
  simp only [UsageIndex.sets, List.mem_cons, List.not_mem_nil, or_false] at hset
  rcases hset with rfl | rfl | rfl | rfl
  · simpa only [UsageIndex.ofReferences, List.mem_eraseDups] using hnames name
  · simpa only [UsageIndex.ofReferences, List.mem_eraseDups] using htypes name
  · simpa only [UsageIndex.ofReferences, List.mem_eraseDups] using hannotations name
  · simp only [UsageIndex.ofReferences, List.mem_eraseDups, List.mem_append, hcalls, hfields]
    exact or_or_or_comm

/-- Declarations that are put into a program, anywhere among those at its top, only add what
they refer to themselves. Every list of references is that of the smaller program with those of
the new declarations put in, and goes through the declarations in their order; so the index of
names is the union of the two. The imports of the smaller program are still there, one that was
used is used, and one that is unused was unused. Lines do not count: what comes after a new
declaration stands on another. -/
theorem references_of_added_declarations (small large : Tree) (added : List Tree)
    (hsmall : small.kind = .program) (hlarge : large.kind = .program)
    (hadded : Inserted (fun t u => t.withoutLines = u.withoutLines) small.children added
      large.children) :
    let new := Tree.inner .program added
    (∀ list ∈ References.lists,
      Inserted Eq (list small.references) (list new.references) (list large.references) ∧
      ∀ t ∈ [small, new, large],
        list t.references = t.children.flatMap fun c => list (Tree.inner .program [c]).references) ∧
    (∀ set ∈ UsageIndex.sets, ∀ name, name ∈ set (.ofReferences large.references) ↔
      name ∈ set (.ofReferences small.references) ∨ name ∈ set (.ofReferences new.references)) ∧
    Inserted Eq (small.imports.map (·.key)) (new.imports.map (·.key)) (large.imports.map (·.key)) ∧
    ∀ d ∈ small.imports, ∀ e ∈ large.imports, d.SameImport e →
      (d ∈ (Verdict.classify small.imports (.ofReferences small.references)).used →
        e ∈ (Verdict.classify large.imports (.ofReferences large.references)).used) ∧
      (e ∈ (Verdict.classify large.imports (.ofReferences large.references)).unused →
        d ∈ (Verdict.classify small.imports (.ofReferences small.references)).unused) := by
  intro new
  have hlists : ∀ list ∈ References.lists,
      Inserted Eq (list small.references) (list new.references) (list large.references) := by
    intro list hlist
    obtain ⟨q, hq, hsilent, hgathered⟩ := Tree.references_gathered hlist
    rw [hgathered, hgathered, hgathered]
    exact hq.inserted hsilent hsmall hlarge hadded
  have huses : ∀ {isStatic : Bool} {name : String}, small.references.Uses isStatic name →
      large.references.Uses isStatic name :=
    uses_of_subset fun list hlist name hname => (hlists list hlist).mem_iff.mpr (.inl hname)
  refine ⟨fun list hlist => ⟨hlists list hlist, fun t ht => ?_⟩, fun set hset name => ?_, ?_,
    fun d hd e he hsame => ?_⟩
  · obtain ⟨q, hq, hsilent, hgathered⟩ := Tree.references_gathered hlist
    have hprogram : t.kind = .program := by
      simp only [List.mem_cons, List.not_mem_nil, or_false] at ht
      rcases ht with rfl | rfl | rfl
      · exact hsmall
      · rfl
      · exact hlarge
    rw [hgathered, hq.walk_program hsilent hprogram]
    exact List.flatMap_congr fun c _ => (hgathered _).symm
  · exact mem_ofReferences_iff (fun list hlist name => (hlists list hlist).mem_iff) hset name
  · rw [Tree.importKeys_gathered, Tree.importKeys_gathered, Tree.importKeys_gathered]
    exact Cursor.isLocal_importKey?.inserted
      (fun c => Cursor.importKey?_program) hsmall hlarge hadded
  · have hname : d.simpleName = e.simpleName := by
      unfold ImportDeclaration.simpleName
      rw [hsame.1]
    rw [Verdict.mem_used, Verdict.mem_used, Verdict.mem_unused, Verdict.mem_unused, hname, hsame.2]
    exact ⟨fun hused => ⟨he, huses hused.2⟩, fun hunused => ⟨hd, fun h => hunused.2 (huses h)⟩⟩

/-- A declaration put between an import and the one that refers to it. -/
theorem references_of_added_variable :
    let small := parse "import a.B;\nB x;"
    let large := parse "import a.B;\nC y;\nB x;"
    let added := (parse "C y;").children.take 1
    Inserted (fun t u => t.withoutLines = u.withoutLines) small.children added large.children ∧
      Inserted Eq small.references.types (Tree.inner .program added).references.types
        large.references.types ∧
      small.references.types = ["B"] ∧ large.references.types = ["C", "B"] ∧
      ∃ d ∈ small.imports, ∃ e ∈ large.imports, d.SameImport e ∧
        d ∈ (Verdict.classify small.imports (.ofReferences small.references)).used ∧
        e ∈ (Verdict.classify large.imports (.ofReferences large.references)).used := by
  intro small large added
  have hplace : large.children.map Tree.withoutLines =
      (small.children.take 1 ++ added ++ small.children.drop 1).map Tree.withoutLines := by
        decide +kernel
  have hadded :
      Inserted (fun t u => t.withoutLines = u.withoutLines) small.children added large.children :=
    Inserted.at_place (f := Tree.withoutLines) 1 hplace
  obtain ⟨hlists, -, -, hverdict⟩ :=
    references_of_added_declarations small large added (kind_parse _) (kind_parse _) hadded
  have he : (⟨"a.B", false, some 1⟩ : ImportDeclaration) ∈ large.imports := by decide +kernel
  have hused : (⟨"a.B", false, some 1⟩ : ImportDeclaration) ∈
      (Verdict.classify small.imports (.ofReferences small.references)).used := by decide +kernel
  have hd := (Verdict.mem_used.mp hused).1
  exact ⟨hadded,
    (hlists References.types (by simp [References.lists])).1, by decide +kernel, by decide +kernel,
    _, hd, _, he, ⟨rfl, rfl⟩, hused, (hverdict _ hd _ he ⟨rfl, rfl⟩).1 hused⟩

end Java

end ImportAudit
