import ImportAudit.Java.Parse
import ImportAudit.Java.References
import ImportAudit.Proofs.Java.Grammar
import ImportAudit.Proofs.Java.Imports

/-!
# The shapes of parsed trees

What a node of a parsed tree is made of: a name of its segments, an import of its keywords and its
name, a method reference of its owner and its member; and where among the children of a node an
identifier stands that introduces a name. Most rules of the grammar are checked against a table; the
few in which the place of a child matters are taken apart by hand.
-/

namespace ImportAudit.Java

namespace Tree

def isPlainName (t : Tree) : Bool :=
  t.kind = .identifier || t.kind = .scopedIdentifier

def isMark (text : String) (t : Tree) : Bool :=
  t.kind = .token && t.ownText == text

def AreComments (ts : List Tree) : Prop :=
  ∀ t ∈ ts, t.IsCommentLeaf

theorem kind_ne_identifier_of_isMark {text : String} {t : Tree} (h : t.isMark text = true) :
    t.kind ≠ .identifier := by
  obtain ⟨hkind, -⟩ := (Bool.and_eq_true _ _).mp h
  rw [of_decide_eq_true hkind]
  decide

/-! ## Names that are introduced -/

end Tree

open ImportAudit.Java.Tree

/-- Where in a node an identifier introduces a name. -/
inductive Position
  | anywhere
  /-- Not after the mark. -/
  | upTo (mark : String)
  | after (mark : String)
  | before (mark : String)
  deriving DecidableEq

def Position.Admits : Position → List Tree → List Tree → Bool
  | anywhere, _, _ => true
  | upTo mark, front, _ => !front.any (isMark mark)
  | after mark, front, _ => front.any (isMark mark)
  | before mark, _, back => back.any (isMark mark)

/-- Where in a node of a kind an identifier introduces a name: the name of a declaration, a
variable, a parameter or a label. -/
def Kind.introductions : Kind → Option Position
  | .classDeclaration | .interfaceDeclaration | .enumDeclaration | .recordDeclaration
  | .annotationTypeDeclaration
  | .methodDeclaration | .constructorDeclaration | .compactConstructor | .enumConstant
  | .formalParameter
  | .catchFormalParameter | .inferredParameters | .labeledStatement | .typePattern
  | .recordPatternComponent =>
    some .anywhere
  | .variableDeclarator => some (.upTo "=")
  | .lambda => some (.upTo "->")
  | .enhancedForStatement => some (.upTo ":")
  | .annotationElement => some (.upTo "default")
  | .resource => some (.before "=")
  | .instanceOf => some (.after "instanceof")
  | _ => none

def patternKinds : List Kind :=
  [.typePattern, .recordPatternComponent]

/-! ## Children -/

/-- What is known of a child. -/
inductive Trait
  /-- If it is an identifier then it has a role. -/
  | named
  /-- If it is what the node is called by then it is an identifier. -/
  | called
  | plain
  deriving DecidableEq

def Trait.Holds : Trait → Tree → Prop
  | named, t => t.kind = .identifier → t.role ≠ none
  | called, t => t.role = some .name → t.kind = .identifier
  | plain, t => t.role = none

def Kind.demands (k : Kind) : List Trait :=
  if k = .methodInvocation then [.called]
  else if k ∈ patternKinds then [.plain]
  else if k.introductions = some .anywhere ∧ k ∉ namingKinds then [.named]
  else []

def IsDotted (ts : List Tree) : Prop :=
  ∃ scope gap dot gap' line word, ts = scope :: (gap ++ Tree.leaf .token dot "." ::
      (gap' ++ [(Tree.leaf .identifier line word).withRole .name])) ∧
    scope.isPlainName = true ∧ scope.role = none ∧ AreComments gap ∧ AreComments gap' ∧ IsWord word

def IsImportFront (isStatic : Bool) (ts : List Tree) : Prop :=
  ∃ line gap line' gap', AreComments gap ∧ AreComments gap' ∧ ts = Tree.leaf .token line "import" ::
    if isStatic then gap ++ Tree.leaf .token line' "static" :: gap' else gap

def IsImportBack (isWildcard : Bool) (ts : List Tree) : Prop :=
  ∃ gap line gap' line' gap'' line'', AreComments gap ∧ AreComments gap' ∧ AreComments gap'' ∧
    ts = (if isWildcard then
        gap ++ Tree.leaf .token line "." ::
          (gap' ++ [Tree.inner .asterisk [Tree.leaf .token line' "*"]])
      else []) ++ (gap'' ++ [Tree.leaf .token line'' ";"])

def IsImport (ts : List Tree) : Prop :=
  ∃ front name back isStatic isWildcard, ts = front ++ name :: back ∧ name.isPlainName = true ∧
    name.role = none ∧
    IsImportFront isStatic front ∧ IsImportBack isWildcard back

def IsReferenceGap (ts : List Tree) : Prop :=
  ∃ gap arguments gap', ts = gap ++ (arguments ++ gap') ∧ AreComments gap ∧ AreComments gap' ∧
    (arguments = [] ∨ ∃ t, arguments = [t] ∧ t.kind = .typeArguments)

def IsMember (t : Tree) : Prop :=
  ∃ line, (∃ word, IsWord word ∧ t = Tree.leaf .identifier line word) ∨
    t = Tree.leaf .token line "new"

def IsMethodReference (ts : List Tree) : Prop :=
  ∃ owner gap line between member,
    ts = owner :: (gap ++ Tree.leaf .token line "::" :: (between ++ [member])) ∧
    owner.role = none ∧ AreComments gap ∧ IsReferenceGap between ∧ IsMember member

/-- What a node of a kind is made of, where all of it matters. -/
def Kind.Shape : Kind → String → List Tree → Prop
  | .identifier, text, ts | .typeIdentifier, text, ts => IsWord text ∧ ts = []
  | .scopedIdentifier, text, ts => text = "" ∧ IsDotted ts
  | .importDeclaration, _, ts => IsImport ts
  | .markerAnnotationUse, _, ts | .annotationUse, _, ts =>
    ∃ name, ts.find? (fun c => c.role == some .name) = some name ∧ name.isPlainName = true
  | .methodReference, _, ts => IsMethodReference ts
  | _, _, _ => True

/-- Whether a node is made as the grammar makes it. -/
structure Tree.WellShaped (t : Tree) : Prop where
  shape : t.kind.Shape t.ownText t.children
  traits : ∀ q ∈ t.kind.demands, ∀ c ∈ t.children, q.Holds c
  /-- An identifier that introduces a name has a role, but for labels, bare
  parameters and patterns. -/
  introduced : ∀ p, t.kind.introductions = some p → t.kind ∉ namingKinds → t.kind ∉ patternKinds →
    ∀ front c back, t.children = front ++ c :: back → p.Admits front back = true →
      c.kind = .identifier → c.role ≠ none

def Tree.AllShaped (t : Tree) : Prop :=
  ∀ n ∈ t.preorder, n.WellShaped

/-- Kinds of nodes that are more than their children. -/
def Kind.isSpecial (k : Kind) : Bool :=
  k ∈ [.identifier, .typeIdentifier, .scopedIdentifier, .importDeclaration, .markerAnnotationUse,
    .annotationUse, .methodReference, .variableDeclarator, .lambda, .enhancedForStatement,
    .annotationElement, .resource, .instanceOf]

theorem Kind.shape_of_ordinary {k : Kind} (hk : k.isSpecial = false) (text : String)
    (ts : List Tree) :
    k.Shape text ts := by
  cases k <;> trivial

theorem Kind.introductions_of_ordinary {k : Kind} {p : Position} (hk : k.isSpecial = false)
    (h : k.introductions = some p) : p = .anywhere := by
  cases k <;> first | contradiction | (cases h; rfl)

namespace Tree

variable {t : Tree} {k : Kind} {ts : List Tree}

theorem wellShaped_of_ordinary (hk : t.kind.isSpecial = false)
    (htraits : ∀ q ∈ t.kind.demands, ∀ c ∈ t.children, q.Holds c) : t.WellShaped where
  shape := Kind.shape_of_ordinary hk _ _
  traits := htraits
  introduced p hp hnaming hpattern front c back hts _ := by
    obtain rfl := Kind.introductions_of_ordinary hk hp
    have hcall : t.kind ≠ .methodInvocation := fun h => by
      rw [h] at hp
      cases hp
    have hnamed : .named ∈ t.kind.demands := by
      rw [Kind.demands, if_neg hcall, if_neg hpattern, if_pos ⟨hp, hnaming⟩]
      exact List.mem_singleton_self _
    exact htraits .named hnamed c (by simp [hts])

theorem wellShaped_of_shape (hnone : t.kind.introductions = none) (hdemands : t.kind.demands = [])
    (hshape : t.kind.Shape t.ownText t.children) : t.WellShaped where
  shape := hshape
  traits := by simp [hdemands]
  introduced p hp := by
    rw [hnone] at hp
    cases hp

theorem wellShaped_withRole (r : Role) (h : t.WellShaped) : (t.withRole r).WellShaped := by
  cases t
  exact ⟨h.shape, h.traits, h.introduced⟩

theorem allShaped_iff : t.AllShaped ↔ t.WellShaped ∧ ∀ c ∈ t.children, c.AllShaped :=
  forall_preorder_iff

theorem allShaped_withRole (r : Role) (h : t.AllShaped) : (t.withRole r).AllShaped := by
  obtain ⟨hroot, hchildren⟩ := allShaped_iff.mp h
  refine allShaped_iff.mpr ⟨wellShaped_withRole r hroot, ?_⟩
  cases t
  exact hchildren

theorem allShaped_leaf {line : Nat} {text : String} (hk : k.isSpecial = false) :
    (leaf k line text).AllShaped :=
  allShaped_iff.mpr ⟨wellShaped_of_ordinary hk fun _ _ _ hc => absurd hc List.not_mem_nil,
    fun _ hc => absurd hc List.not_mem_nil⟩

theorem allShaped_word {line : Nat} {text : String} (hk : k = .identifier ∨ k = .typeIdentifier)
    (htext : IsWord text) :
    (leaf k line text).AllShaped := by
  refine allShaped_iff.mpr ⟨?_, fun _ hc => absurd hc List.not_mem_nil⟩
  rcases hk with rfl | rfl <;> exact wellShaped_of_shape rfl rfl ⟨htext, rfl⟩

end Tree

/-! ## The table of the rules -/

def Rule.single : Rule → Bool
  | .program | .localType | .declaratorId => false
  | _ => true

def Rule.traits : Rule → List Trait
  | .program => []
  | .declaratorId | .parameter => [.named]
  | .name | .expression _ | .binary _ _ | .unary _ | .primary | .elementValue | .lambda _ | .cast _
  | .typeOperand
  | .creation => [.called, .plain]
  | .statement | .declaration | .enumConstant | .classMember | .interfaceMember | .annotationMember
  | .methodDeclaration
  | .forStatement => [.named, .called]
  | _ => [.named, .called, .plain]

/-- Whether a tree is of the kind that a rule builds, for the rules of which that matters. -/
def Rule.kindFits : Rule → Tree → Bool
  | .name, t => t.isPlainName
  | .typeArguments, t => t.kind = .typeArguments
  | _, _ => true

def Tree.HasTraits (m : List Trait) (t : Tree) : Prop :=
  t.AllShaped ∧ ∀ q ∈ m, q.Holds t

theorem Kind.ne_identifier_of_ordinary {k : Kind} (hk : k.isSpecial = false) : k ≠ .identifier := by
  rintro rfl
  cases hk

namespace Tree

variable {m : List Trait} {t : Tree} {k : Kind} {ts : List Tree}

theorem hasTraits_of_plain (hshaped : t.AllShaped) (hrole : t.role = none)
    (hkind : t.kind ≠ .identifier) :
    t.HasTraits m := by
  refine ⟨hshaped, fun q _ => ?_⟩
  cases q with
  | named => exact fun h => absurd h hkind
  | called => exact fun h => absurd (hrole.symm.trans h).symm (Option.some_ne_none _)
  | plain => exact hrole

theorem hasTraits_leaf (hk : k.isSpecial = false) (line : Nat) (text : String) :
    (leaf k line text).HasTraits m :=
  hasTraits_of_plain (allShaped_leaf hk) rfl (Kind.ne_identifier_of_ordinary hk)

theorem hasTraits_inner (hk : k ≠ .identifier) (hshape : (Tree.inner k ts).WellShaped)
    (hts : ∀ c ∈ ts, c.AllShaped) :
    (Tree.inner k ts).HasTraits m :=
  hasTraits_of_plain (allShaped_iff.mpr ⟨hshape, hts⟩) rfl hk

theorem hasTraits_ordinary (hk : k.isSpecial = false) (hts : ∀ c ∈ ts, c.HasTraits k.demands) :
    (Tree.inner k ts).HasTraits m :=
  hasTraits_inner (Kind.ne_identifier_of_ordinary hk) (wellShaped_of_ordinary hk fun q hq c hc =>
    (hts c hc).2 q hq)
    fun c hc => (hts c hc).1

theorem HasTraits.mono {i : List Trait} (h : m.all i.contains = true) (ht : t.HasTraits i) :
    t.HasTraits m :=
  ⟨ht.1, fun q hq => ht.2 q (by simpa using List.all_eq_true.mp h q hq)⟩

end Tree

def shapeSorting : Sorting Rule (List Trait) where
  Has := HasTraits
  rule := Rule.traits
  single := Rule.single
  below i m := m.all i.contains
  words m kind := (kind = .identifier || kind = .typeIdentifier) &&
    (kind ≠ .identifier || !m.contains .named)
  inside _ kind := if kind.isSpecial then [] else [kind.demands]
  closes m kind := !kind.isSpecial && kind.demands.all m.contains
  named m r := if m.contains .plain || (m.contains .called && r = .name) then [] else [[]]
  calls m _ kind := kind = .identifier && !m.contains .plain
  has_comment _ := hasTraits_leaf rfl
  has_token _ := hasTraits_leaf rfl
  has_of_below := HasTraits.mono
  has_word {m kind line text} h htext := by
    simp only [Bool.and_eq_true, Bool.or_eq_true, decide_eq_true_eq] at h
    refine ⟨allShaped_word h.1 htext, fun q hq => ?_⟩
    cases q with
    | named =>
        have hkind : kind ≠ .identifier := by simpa [hq] using h.2
        exact fun h => absurd h hkind
    | called => exact fun h => absurd h.symm (Option.some_ne_none _)
    | plain => rfl
  has_inside {i m kind ts} hi hts := by
    split at hi
    next => cases hi
    next hk =>
      obtain rfl := List.mem_singleton.mp hi
      exact hasTraits_ordinary (by simpa using hk) hts
  has_closes {m kind ts} h hts := by
    obtain ⟨hk, hdemands⟩ := (Bool.and_eq_true _ _).mp h
    exact hasTraits_ordinary (by simpa using hk) fun c hc => (hts c hc).mono hdemands
  has_named {i m r t} hi ht := by
    split at hi
    next => cases hi
    next hr =>
      refine ⟨allShaped_withRole r ht.1, fun q hq => ?_⟩
      cases t
      cases q with
      | named => exact fun _ => Option.some_ne_none r
      | called => exact fun h => by simp_all [Tree.withRole, Tree.role]
      | plain => simp [hq] at hr
  has_calls {m r kind line text} h htext := by
    obtain ⟨hkind, hplain⟩ := (Bool.and_eq_true _ _).mp h
    obtain rfl := of_decide_eq_true hkind
    refine ⟨allShaped_withRole r (allShaped_word (.inl rfl) htext), fun q hq => ?_⟩
    cases q with
    | named => exact fun _ => Option.some_ne_none r
    | called => exact fun _ => rfl
    | plain => simp [hq] at hplain

structure Rule.Shaped (rule : Rule) (b : List Tree) : Prop where
  all : shapeSorting.All rule.traits b
  single : rule.single = true → ∃ t, b = [t]
  kindFits : ∀ t ∈ b, rule.kindFits t = true

theorem describes_shaped : shapeSorting.Describes Rule.Shaped where
  all _ _ h := h.all
  single _ _ hsingle h := h.single hsingle

theorem leavesOne_body {rule : Rule} (h : rule.single = true) :
    rule.body.leavesOne Rule.single .nothing = true := by
  cases rule with
  | program | localType | declaratorId => cases h
  | binary level label =>
      simp only [Rule.body, binaryRule, Gram.leavesOne]
      split <;> split <;> rfl
  | unary label => cases label <;> rfl
  | _ => rfl

theorem single_of_yields {rule : Rule} {b : List Tree} (hsingle : rule.single = true)
    (h : rule.body.Yields Rule.Shaped true [] b) : ∃ t, b = [t] :=
  Gram.exists_of_leavesOne
    (fun _ _ hsingle h => h.single hsingle) (leavesOne_body hsingle) ⟨rfl, rfl⟩ h

/-! ## Names, annotations and imports -/

theorem IsGap.areComments_reverse {start : Bool} {gap : List Tree} (h : IsGap start gap) :
    AreComments gap.reverse :=
  fun c hc => h.comments c (List.mem_reverse.mp hc)

theorem Tree.IsCommentLeaf.allShaped {t : Tree} (h : t.IsCommentLeaf) : t.AllShaped := by
  obtain ⟨line, text, rfl, -⟩ := h
  exact allShaped_leaf rfl

theorem Sorting.All.allShaped {m : List Trait} {ts : List Tree} (h : shapeSorting.All m ts) :
    ∀ t ∈ ts, t.AllShaped :=
  fun t ht => (h t ht).1

section

variable {m : List Trait} {b b' : List Tree}

theorem allShaped_dotted {scope : Tree} {gap gap' : List Tree} {dot line : Nat} {word : String}
    (hscope : scope.AllShaped) (hname : scope.isPlainName = true) (hrole : scope.role = none)
    (hgap : IsGap false gap) (hgap' : IsGap false gap') (hword : IsWord word) :
    (Tree.inner .scopedIdentifier ((leaf .identifier line word).withRole .name ::
      (gap' ++ leaf .token dot "." :: (gap ++ [scope]))).reverse).AllShaped := by
  have hts :
      ((leaf .identifier line word).withRole .name ::
        (gap' ++ leaf .token dot "." :: (gap ++ [scope]))).reverse =
      scope :: (gap.reverse ++ leaf .token dot "." ::
        (gap'.reverse ++ [(leaf .identifier line word).withRole .name])) := by simp
  have hlast : ((leaf .identifier line word).withRole .name).AllShaped :=
    allShaped_withRole .name (allShaped_word (.inl rfl) hword)
  rw [hts]
  refine allShaped_iff.mpr ⟨wellShaped_of_shape rfl rfl ⟨rfl, ?_⟩, fun c hc => ?_⟩
  · exact ⟨scope, gap.reverse, dot, gap'.reverse, line, word, rfl, hname, hrole,
      hgap.areComments_reverse, hgap'.areComments_reverse, hword⟩
  · simp only [Tree.inner, children, List.mem_cons, List.mem_append, List.mem_reverse,
      List.not_mem_nil, or_false] at hc
    rcases hc with rfl | hc | rfl | hc | rfl
    · exact hscope
    · exact (hgap.comments c hc).allShaped
    · exact allShaped_leaf rfl
    · exact (hgap'.comments c hc).allShaped
    · exact hlast

theorem name_of_yields (h : nameRule.Yields Rule.Shaped true [] b) :
    ∃ t, b = [t] ∧ t.AllShaped ∧ t.isPlainName = true ∧ t.role = none := by
  obtain ⟨_, ⟨gap, line, word, hgap, ⟨hword, -⟩, rfl⟩, hmany⟩ := h
  obtain rfl := hgap.empty rfl
  induction hmany with
  | refl => exact ⟨_, rfl, allShaped_word (.inl rfl) hword, rfl, rfl⟩
  | tail _ hstep ih =>
      obtain ⟨scope, rfl, hscope, hname, hrole⟩ := ih
      obtain ⟨_, ⟨gap, dot, hgap, rfl⟩, _,
          ⟨gap', _, hgap', ⟨none, line, word, hnone, ⟨hword, -⟩, rfl⟩, rfl⟩, rfl⟩ := hstep
      obtain rfl := hnone.empty rfl
      exact ⟨_, rfl, allShaped_dotted hscope hname hrole hgap hgap' hword, rfl, rfl⟩

theorem Rule.Shaped.name (h : Rule.name.Shaped b) :
    ∃ t, b = [t] ∧ t.AllShaped ∧ t.isPlainName = true ∧ t.role = none := by
  obtain ⟨t, rfl⟩ := h.single rfl
  obtain ⟨hshaped, htraits⟩ := h.all t (List.mem_singleton_self t)
  exact ⟨t, rfl, hshaped, h.kindFits t (List.mem_singleton_self t), htraits .plain (by decide)⟩

theorem find?_role_eq_none {ts : List Tree} (h : AreComments ts) :
    ts.find? (fun c => c.role == some .name) = none := by
  refine List.find?_eq_none.mpr fun c hc => ?_
  obtain ⟨line, text, rfl, -⟩ := h c hc
  exact Bool.false_ne_true

theorem hasTraits_annotationUse {k : Kind} (hk : k = .annotationUse ∨ k = .markerAnnotationUse)
    {name : Tree} {gap : List Tree} {line : Nat} (hshaped : name.AllShaped)
    (hname : name.isPlainName = true) (hgap : IsGap false gap) (new : List Tree)
    (hnew : ∀ c ∈ new, c.AllShaped) :
    (Tree.inner k (new ++ name.withRole .name :: (gap ++ [leaf .token line "@"])).reverse).HasTraits
      m := by
  have hts : (new ++ name.withRole .name :: (gap ++ [leaf .token line "@"])).reverse =
      leaf .token line "@" :: (gap.reverse ++ name.withRole .name :: new.reverse) := by simp
  have hfind : (leaf .token line "@" :: (gap.reverse ++ name.withRole .name :: new.reverse)).find?
      (fun c => c.role == some .name) = some (name.withRole .name) := by
    rw [List.find?_cons_of_neg (by simp [leaf, role]), List.find?_append,
      find?_role_eq_none hgap.areComments_reverse, Option.none_or, List.find?_cons_of_pos]
    cases name
    rfl
  have hplain : (name.withRole .name).isPlainName = true := by
    cases name
    exact hname
  rw [hts]
  refine hasTraits_inner (by rcases hk with rfl | rfl <;> decide) ?_ fun c hc => ?_
  · rcases hk with rfl | rfl <;> exact wellShaped_of_shape rfl rfl ⟨_, hfind, hplain⟩
  · simp only [List.mem_cons, List.mem_append, List.mem_reverse] at hc
    rcases hc with rfl | hc | rfl | hc
    · exact allShaped_leaf rfl
    · exact (hgap.comments c hc).allShaped
    · exact allShaped_withRole .name hshaped
    · exact hnew c hc

theorem annotation_of_yields (h : annotationRule.Yields Rule.Shaped true [] b) :
    shapeSorting.All m b := by
  obtain ⟨_, ⟨none, line, hnone, rfl⟩, _,
      ⟨gap, _, hgap, ⟨none', built, hnone', hname, rfl⟩, rfl⟩, hrest⟩ := h
  obtain rfl := hnone.empty rfl
  obtain rfl := hnone'.empty rfl
  obtain ⟨name, rfl, hshaped, hplain, -⟩ := hname.name
  rcases hrest with ⟨_, harguments, rfl⟩ | rfl
  · obtain ⟨new, rfl, hnew⟩ :=
      Sorting.exists_all_added describes_shaped (m := []) rfl rfl harguments
    exact Sorting.all_cons
      (hasTraits_annotationUse (.inl rfl) hshaped hplain hgap new hnew.allShaped) Sorting.all_nil
  · exact Sorting.all_cons (hasTraits_annotationUse (.inr rfl) hshaped hplain hgap [] (by simp))
      Sorting.all_nil

/-! ### Imports -/

theorem importFront_of_yields {gap : List Tree}
    (hfirst : (Gram.kw "import").Yields Rule.Shaped true [] b)
    (hsecond : (Gram.opt (Gram.kw "static")).Yields Rule.Shaped false b b')
    (hgap : IsGap false gap) :
    ∃ isStatic, IsImportFront isStatic (gap ++ b').reverse := by
  obtain ⟨none, line, text, hnone, htext, rfl⟩ := hfirst
  obtain rfl := hnone.empty rfl
  obtain rfl := List.mem_singleton.mp htext
  rcases hsecond with ⟨gap', line', text', hgap', htext', rfl⟩ | rfl
  · obtain rfl := List.mem_singleton.mp htext'
    exact ⟨true, line, gap'.reverse, line', gap.reverse, hgap'.areComments_reverse,
      hgap.areComments_reverse, by simp⟩
  · exact ⟨false, line, gap.reverse, 0, [],
      hgap.areComments_reverse, by simp [AreComments], by simp⟩

theorem importBack_of_yields {b'' : List Tree}
    (hfirst : (Gram.opt (.seq (.symbol ".") (.node .asterisk (.symbol "*")))).Yields
      Rule.Shaped false b b')
    (hsecond : (Gram.symbol ";").Yields Rule.Shaped false b' b'') :
    ∃ isWildcard back, b'' = back.reverse ++ b ∧ IsImportBack isWildcard back := by
  obtain ⟨gap, line, hgap, rfl⟩ := hsecond
  rcases hfirst with
    ⟨_, ⟨gap', line', hgap', rfl⟩, gap'', _, hgap'', ⟨none, line'', hnone, rfl⟩, rfl⟩ | rfl
  · obtain rfl := hnone.empty rfl
    refine ⟨true, _, ?_, gap'.reverse, line', gap''.reverse, line'', gap.reverse, line,
      hgap'.areComments_reverse, hgap''.areComments_reverse, hgap.areComments_reverse, rfl⟩
    simp
  · refine ⟨false, _, ?_, [], 0, [], 0, gap.reverse,
      line, by simp [AreComments], by simp [AreComments], hgap.areComments_reverse, rfl⟩
    simp

theorem import_of_yields (h : importRule.Yields Rule.Shaped true [] b) : shapeSorting.All m b := by
  obtain ⟨none, _, hnone, hbody, rfl⟩ := h
  obtain rfl := hnone.empty rfl
  have hparts := Sorting.all_of_yields describes_shaped (m := []) rfl Sorting.all_nil hbody
  obtain ⟨_, hfirst, _, hsecond, _, ⟨gap, built, hgap, hname, rfl⟩, _, hthird, hfourth⟩ := hbody
  obtain ⟨name, rfl, -, hplain, hrole⟩ := hname.name
  obtain ⟨isStatic, hfront⟩ := importFront_of_yields hfirst hsecond hgap
  obtain ⟨isWildcard, back, rfl, hback⟩ := importBack_of_yields hthird hfourth
  refine Sorting.all_cons (hasTraits_inner (by decide) ?_ (Sorting.all_reverse hparts).allShaped)
    Sorting.all_nil
  refine wellShaped_of_shape rfl rfl ⟨_, name, back, isStatic, isWildcard, ?_, hplain, hrole,
    hfront, hback⟩
  simp [Tree.inner, children]

/-! ## Method references -/

theorem member_of_yields (h : (Gram.alt (Gram.kw "new") Gram.ident).Yields Rule.Shaped false b b') :
    ∃ member gap, b' = member :: (gap ++ b) ∧ IsGap false gap ∧ IsMember member := by
  rcases h with ⟨gap, line, text, hgap, htext, rfl⟩ | ⟨gap, line, text, hgap, ⟨hword, -⟩, rfl⟩
  · obtain rfl := List.mem_singleton.mp htext
    exact ⟨_, gap, rfl, hgap, line, .inr rfl⟩
  · exact ⟨_, gap, rfl, hgap, line, .inl ⟨text, hword, rfl⟩⟩

theorem referenceGap_of_yields {gap : List Tree}
    (h : (Gram.opt (.call .typeArguments)).Yields Rule.Shaped false b b') (hgap : IsGap false gap) :
    ∃ between, gap ++ b' = between.reverse ++ b ∧ IsReferenceGap between := by
  rcases h with ⟨gap', built, hgap', hbuilt, rfl⟩ | rfl
  · obtain ⟨t, rfl⟩ := hbuilt.single rfl
    have hkind : t.kind = .typeArguments :=
      of_decide_eq_true (hbuilt.kindFits t (List.mem_singleton_self t))
    refine ⟨gap'.reverse ++
      ([t] ++ gap.reverse), by simp, gap'.reverse, [t], gap.reverse, rfl, hgap'.areComments_reverse,
      hgap.areComments_reverse, .inr ⟨t, rfl, hkind⟩⟩
  · exact ⟨gap.reverse, by
      simp, [], [], gap.reverse, rfl, by simp [AreComments], hgap.areComments_reverse, .inl rfl⟩

theorem methodReference_of_yields {owner : Tree} (howner : owner.HasTraits [.plain])
    (h : methodReferenceRest.Yields Rule.Shaped false [owner] b) : shapeSorting.All m b := by
  obtain ⟨_, hcolons, _, harguments, _, hmember, rfl⟩ := h
  have hfirst := Sorting.all_of_yields describes_shaped (m := []) rfl
    (Sorting.all_cons (howner.mono rfl) Sorting.all_nil) hcolons
  have hsecond := Sorting.all_of_yields describes_shaped rfl hfirst harguments
  have hparts := Sorting.all_of_yields describes_shaped rfl hsecond hmember
  obtain ⟨gap, line, hgap, rfl⟩ := hcolons
  obtain ⟨member, gap', rfl, hgap', hmember⟩ := member_of_yields hmember
  obtain ⟨between, hbetween, hreference⟩ := referenceGap_of_yields harguments hgap'
  refine Sorting.all_cons (hasTraits_inner (by decide) ?_ (Sorting.all_reverse hparts).allShaped)
    Sorting.all_nil
  refine wellShaped_of_shape rfl rfl ⟨owner, gap.reverse, line, between, member, ?_,
    howner.2 .plain (by decide), hgap.areComments_reverse, hreference, hmember⟩
  rw [hbetween]
  simp [Tree.inner, children]

/-- A node that is closed has no role and is no word, whatever it is made of. -/
theorem all_of_endsClosed {g : Production} {start : Bool} {i : List Trait}
    (hclosed : g.endsClosed = true) (hfits : shapeSorting.fits g i = true)
    (hb : shapeSorting.All i b) (h : g.Yields Rule.Shaped start b b') :
    shapeSorting.All m b' := by
  have hall := Sorting.all_of_yields describes_shaped hfits hb h
  obtain ⟨kind, ts, rfl⟩ := Gram.exists_of_endsClosed hclosed h
  have hshaped := hall.allShaped _ (List.mem_singleton_self _)
  refine Sorting.all_cons (hasTraits_of_plain hshaped rfl fun hkind => ?_) Sorting.all_nil
  obtain rfl : kind = .identifier := hkind
  obtain ⟨⟨c, cs, hempty, -⟩, -⟩ := (allShaped_iff.mp hshaped).1.shape.1
  cases hempty

theorem suffix_of_yields {t : Tree} (ht : t.HasTraits [.called, .plain])
    (h : primarySuffix.Yields Rule.Shaped false [t] b) : shapeSorting.All [.called, .plain] b := by
  have hone : shapeSorting.All [.called] [t] := Sorting.all_cons (ht.mono rfl) Sorting.all_nil
  rcases h with h | h | h | h | h | h | h | h | h
  case inr.inr.inr.inr.inr.inr.inr.inr => exact methodReference_of_yields (ht.mono rfl) h
  all_goals exact all_of_endsClosed rfl rfl hone h

theorem super_of_yields (h : (Gram.seq (Gram.kw "super") superRest).Yields Rule.Shaped true [] b) :
    shapeSorting.All [.called, .plain] b := by
  obtain ⟨_, hsuper, hrest⟩ := h
  have hone :=
    Sorting.all_of_yields describes_shaped (m := [.called, .plain]) rfl Sorting.all_nil hsuper
  obtain ⟨t, rfl⟩ :=
    Gram.exists_of_leavesOne (n := .nothing) describes_shaped.single rfl ⟨rfl, rfl⟩ hsuper
  have ht := hone t (List.mem_singleton_self t)
  rcases hrest with h | h | h
  · exact all_of_endsClosed (i := [.called]) rfl rfl
      (Sorting.all_cons (ht.mono rfl) Sorting.all_nil) h
  · exact all_of_endsClosed (i := [.called]) rfl rfl
      (Sorting.all_cons (ht.mono rfl) Sorting.all_nil) h
  · exact methodReference_of_yields (ht.mono rfl) h

theorem primary_of_yields (h : primaryRule.Yields Rule.Shaped true [] b) :
    shapeSorting.All [.called, .plain] b := by
  obtain ⟨first, hfirst, hmany⟩ := h
  have hone : ∃ t, first = [t] :=
    Gram.exists_of_leavesOne (n := .nothing) describes_shaped.single rfl ⟨rfl, rfl⟩ hfirst
  have hall : shapeSorting.All [.called, .plain] first := by
    rcases hfirst with h | h | h | h | h | h | h | h | h | h | h
    case inr.inr.inr.inr.inr.inr.inl => exact super_of_yields h
    case inr.inr.inr.inr.inr.inr.inr.inr.inl =>
      exact all_of_endsClosed (i := [.called]) rfl rfl Sorting.all_nil h
    all_goals exact Sorting.all_of_yields describes_shaped rfl Sorting.all_nil h
  suffices hlast : shapeSorting.All [.called, .plain] b ∧ ∃ t, b = [t] from hlast.1
  induction hmany with
  | refl => exact ⟨hall, hone⟩
  | tail _ hstep ih =>
      obtain ⟨hall, t, rfl⟩ := ih
      exact ⟨suffix_of_yields (hall t (List.mem_singleton_self t)) hstep,
        Gram.exists_of_leavesOne (n := .one) describes_shaped.single rfl ⟨t, rfl⟩ hstep⟩

theorem typeOperand_of_yields (h : typeOperandRule.Yields Rule.Shaped true [] b) :
    shapeSorting.All [.called, .plain] b := by
  obtain ⟨_, ⟨-, rfl⟩, ⟨_, ⟨-, rfl⟩, _, htype, hrest⟩ | ⟨_, htype, hrest⟩⟩ := h
  · have hone :=
      Sorting.all_of_yields describes_shaped (m := [.called, .plain]) rfl Sorting.all_nil htype
    obtain ⟨t, rfl⟩ :=
      Gram.exists_of_leavesOne (n := .nothing) describes_shaped.single rfl ⟨rfl, rfl⟩ htype
    rcases hrest with hrest | hrest
    · exact Sorting.all_of_yields describes_shaped rfl hone hrest
    · exact methodReference_of_yields ((hone t (List.mem_singleton_self t)).mono rfl) hrest
  · have hone :=
      Sorting.all_of_yields describes_shaped (m := [.called, .plain]) rfl Sorting.all_nil htype
    obtain ⟨kind, ts, rfl⟩ := Gram.exists_of_endsClosed rfl htype
    exact methodReference_of_yields ((hone _ (List.mem_singleton_self _)).mono rfl) hrest

/-! ## Names that are introduced -/

/-- Where the place of an identifier matters, nothing else is asked of the children. -/
theorem Kind.shape_of_position {k : Kind} {p : Position} (hk : k.introductions = some p)
    (hp : p ≠ .anywhere) :
    k ≠ .identifier ∧ k.demands = [] ∧ ∀ text ts, k.Shape text ts := by
  cases k <;> first
    | (cases hk; exact absurd rfl hp)
    | (cases hk; exact ⟨by decide, rfl, fun _ _ => trivial⟩)
    | cases hk

theorem hasTraits_of_introduced {k : Kind} {p : Position} {ts : List Tree}
    (hk : k.introductions = some p) (hp : p ≠ .anywhere) (hts : ∀ c ∈ ts, c.AllShaped)
    (h : ∀ front c back, ts = front ++ c :: back → p.Admits front back = true →
      c.kind = .identifier → c.role ≠ none) :
    (Tree.inner k ts).HasTraits m := by
  obtain ⟨hidentifier, hdemands, hshape⟩ := Kind.shape_of_position hk hp
  refine hasTraits_inner hidentifier ⟨hshape _ _, ?_, fun p' hp' _ _ => ?_⟩ hts
  · simp [Tree.inner, kind, hdemands]
  · obtain rfl := Option.some.inj (hk.symm.trans hp')
    exact h

/-- A child before which there is no mark stands before the first mark. -/
theorem mem_of_append_eq {α : Type} {p : α → Bool} {xs ys front back : List α} {mark c : α}
    (h : xs ++ mark :: ys = front ++ c :: back) (hmark : p mark = true)
    (hfront : front.any p = false) (hc : p c = false) : c ∈ xs := by
  rcases List.append_eq_append_iff.mp h with ⟨rest, rfl, hrest⟩ | ⟨rest, rfl, hrest⟩
  · cases rest with
    | nil =>
        obtain ⟨rfl, -⟩ := List.cons.inj hrest
        exact absurd (hmark.symm.trans hc) (by decide)
    | cons first rest =>
        obtain ⟨rfl, -⟩ := List.cons.inj hrest
        rw [List.any_append, List.any_cons, hmark, Bool.true_or, Bool.or_true] at hfront
        cases hfront
  · cases rest with
    | nil =>
        obtain ⟨rfl, -⟩ := List.cons.inj hrest
        exact absurd (hmark.symm.trans hc) (by decide)
    | cons first rest =>
        obtain ⟨rfl, -⟩ := List.cons.inj hrest
        simp

/-- A node in which all that stands before a mark is named, newest first. -/
theorem hasTraits_upTo {k : Kind} {mark : String} (line : Nat) {newer older : List Tree}
    (hk : k.introductions = some (.upTo mark)) (hnewer : shapeSorting.All [] newer)
    (holder : shapeSorting.All [.named] older) :
    (Tree.inner k (newer ++ leaf .token line mark :: older).reverse).HasTraits m := by
  have hmark : (leaf .token line mark).isMark mark = true := by simp [isMark, leaf, kind, ownText]
  refine hasTraits_of_introduced hk Position.noConfusion (fun c hc => ?_)
    fun front c back hts hfront hc => ?_
  · rcases List.mem_append.mp (List.mem_reverse.mp hc) with hc | hc
    · exact hnewer.allShaped c hc
    · rcases List.mem_cons.mp hc with rfl | hc
      · exact allShaped_leaf rfl
      · exact holder.allShaped c hc
  · rw [List.reverse_append, List.reverse_cons, List.append_assoc, List.singleton_append] at hts
    have hother : c.isMark mark = false :=
      Bool.eq_false_iff.mpr fun h => kind_ne_identifier_of_isMark h hc
    have hmem := mem_of_append_eq hts hmark ((Bool.not_eq_true' _).mp hfront) hother
    exact (holder c (List.mem_reverse.mp hmem)).2 .named (List.mem_singleton_self _) hc

theorem hasTraits_named {k : Kind} {p : Position} {ts : List Tree} (hk : k.introductions = some p)
    (hp : p ≠ .anywhere) (hts : shapeSorting.All [.named] ts) :
    (Tree.inner k ts.reverse).HasTraits m :=
  hasTraits_of_introduced hk hp (Sorting.all_reverse hts).allShaped fun front c back h _ hc =>
    (hts c (List.mem_reverse.mp (h ▸ by simp))).2 .named (List.mem_singleton_self _) hc

theorem declarator_of_yields (h : declaratorRule.Yields Rule.Shaped true [] b) :
    shapeSorting.All m b := by
  obtain ⟨none, _, hnone, ⟨older, hname, hvalue⟩, rfl⟩ := h
  obtain rfl := hnone.empty rfl
  have holder := Sorting.all_of_yields describes_shaped (m := [.named]) rfl Sorting.all_nil hname
  rcases hvalue with ⟨_, ⟨gap, line, hgap, rfl⟩, hvalue⟩ | rfl
  · obtain ⟨newer, rfl, hnewer⟩ :=
      Sorting.exists_all_added describes_shaped (m := []) rfl rfl hvalue
    exact Sorting.all_cons (hasTraits_upTo line rfl hnewer (Sorting.all_gap hgap holder))
      Sorting.all_nil
  · exact Sorting.all_cons (hasTraits_named rfl Position.noConfusion holder) Sorting.all_nil

theorem lambda_of_yields {label : Bool} (h : (lambdaRule label).Yields Rule.Shaped true [] b) :
    shapeSorting.All m b := by
  obtain ⟨mid, hhead, _, hbody, rfl⟩ := h
  have hmid : ∃ line older, mid = leaf .token line "->" :: older ∧
      shapeSorting.All [.named] older := by
    rcases hhead with ⟨_, hparameters, gap, line, hgap, rfl⟩ |
      ⟨_, hparameters, gap, line, hgap, rfl⟩ |
      ⟨_, hparameters, gap, line, hgap, rfl⟩
    all_goals
      have hall :=
        Sorting.all_of_yields describes_shaped (m := [.named]) rfl Sorting.all_nil hparameters
      exact ⟨line, _, rfl, Sorting.all_gap hgap hall⟩
  obtain ⟨line, older, rfl, holder⟩ := hmid
  obtain ⟨newer, rfl, hnewer⟩ := Sorting.exists_all_added describes_shaped (m := []) rfl rfl hbody
  exact Sorting.all_cons (hasTraits_upTo line rfl hnewer holder) Sorting.all_nil

theorem for_of_yields (h : forRule.Yields Rule.Shaped true [] b) :
    shapeSorting.All [.named, .called] b := by
  obtain ⟨mid, hhead, h⟩ := h
  have hmid :=
    Sorting.all_of_yields describes_shaped (m := [.named, .called]) rfl Sorting.all_nil hhead
  rcases h with ⟨_, htype, _, hname, _, ⟨gap, line, hgap, rfl⟩, _, hvalue, _, hend, _,
    hbody, rfl⟩ | h
  · have htype := Sorting.all_of_yields describes_shaped (m := [.named]) rfl
      (fun t ht => (hmid t ht).mono rfl) htype
    have holder := Sorting.all_of_yields describes_shaped rfl htype hname
    obtain ⟨value, rfl, hall⟩ := Sorting.exists_all_added describes_shaped (m := []) rfl rfl hvalue
    obtain ⟨paren, rfl, hall'⟩ := Sorting.exists_all_added describes_shaped (m := []) rfl rfl hend
    obtain ⟨body, rfl, hall''⟩ := Sorting.exists_all_added describes_shaped (m := []) rfl rfl hbody
    have hnewer := Sorting.all_append hall'' (Sorting.all_append hall' hall)
    have hnode :=
      hasTraits_upTo (m := [.named, .called]) (k := .enhancedForStatement) line rfl hnewer
      (Sorting.all_gap hgap holder)
    simp only [List.append_assoc] at hnode
    exact Sorting.all_cons hnode Sorting.all_nil
  · exact all_of_endsClosed rfl rfl
      (fun t ht => (hmid t ht).mono rfl : shapeSorting.All [.called] mid) h

theorem annotationElement_of_yields (hb : shapeSorting.All [.named] b)
    (h : annotationElementRest.Yields Rule.Shaped false b b') : shapeSorting.All m b' := by
  obtain ⟨_, htype, _, hname, _, hopen, _, hclose, _, hdimensions, _, hdefault, _, hend, rfl⟩ := h
  have hb := Sorting.all_of_yields describes_shaped rfl hb htype
  have hb := Sorting.all_of_yields describes_shaped rfl hb hname
  have hb := Sorting.all_of_yields describes_shaped rfl hb hopen
  have hb := Sorting.all_of_yields describes_shaped rfl hb hclose
  have holder := Sorting.all_of_yields describes_shaped rfl hb hdimensions
  rcases hdefault with ⟨_, ⟨gap, line, text, hgap, htext, rfl⟩, hvalue⟩ | rfl
  · obtain rfl := List.mem_singleton.mp htext
    obtain ⟨value, rfl, hall⟩ := Sorting.exists_all_added describes_shaped (m := []) rfl rfl hvalue
    obtain ⟨last, rfl, hall'⟩ := Sorting.exists_all_added describes_shaped (m := []) rfl rfl hend
    have hnode :=
      hasTraits_upTo (m := m) (k := .annotationElement) line rfl (Sorting.all_append hall' hall)
      (Sorting.all_gap hgap holder)
    rw [List.append_assoc] at hnode
    exact Sorting.all_cons hnode Sorting.all_nil
  · have hall := Sorting.all_of_yields describes_shaped rfl holder hend
    exact Sorting.all_cons (hasTraits_named rfl Position.noConfusion hall) Sorting.all_nil

theorem annotationMember_of_yields (h : annotationMemberRule.Yields Rule.Shaped true [] b) :
    shapeSorting.All [.named, .called] b := by
  rcases h with h | ⟨_, hmodifiers, h⟩
  · exact Sorting.all_of_yields describes_shaped rfl Sorting.all_nil h
  · have hmid :=
      Sorting.all_of_yields describes_shaped (m := [.named, .called]) rfl Sorting.all_nil hmodifiers
    rcases h with h | ⟨_, ⟨-, rfl⟩, h | h⟩
    · exact Sorting.all_of_yields describes_shaped rfl hmid h
    · exact annotationElement_of_yields (fun t ht => (hmid t ht).mono rfl) h
    · exact Sorting.all_of_yields describes_shaped rfl hmid h

theorem hasTraits_before {k : Kind} {mark : String} {last : Tree} {older : List Tree}
    (hk : k.introductions = some (.before mark)) (hlast : last.AllShaped)
    (holder : shapeSorting.All [.named] older) :
    (Tree.inner k (last :: older).reverse).HasTraits m := by
  refine hasTraits_of_introduced hk Position.noConfusion (fun c hc => ?_)
    fun front c back hts hback hc => ?_
  · exact List.forall_mem_cons.mpr ⟨hlast, holder.allShaped⟩ c (List.mem_reverse.mp hc)
  · rcases List.eq_nil_or_concat back with rfl | ⟨init, last', rfl⟩
    · cases hback
    · have hmem : c ∈ older.reverse := by
        rw [List.reverse_cons, List.concat_eq_append, ← List.cons_append,
          ← List.append_assoc] at hts
        rw [(List.append_inj' hts rfl).1]
        simp
      exact (holder c (List.mem_reverse.mp hmem)).2 .named (List.mem_singleton_self _) hc

theorem hasTraits_after {k : Kind} {mark : String} {first : Tree} {newer : List Tree}
    (hk : k.introductions = some (.after mark)) (hfirst : first.AllShaped)
    (hnewer : shapeSorting.All [.named] newer) :
    (Tree.inner k (newer ++ [first]).reverse).HasTraits m := by
  rw [List.reverse_append, List.reverse_singleton, List.singleton_append]
  refine hasTraits_of_introduced hk Position.noConfusion ?_ fun front c back hts hfront hc => ?_
  · exact List.forall_mem_cons.mpr ⟨hfirst, (Sorting.all_reverse hnewer).allShaped⟩
  · cases front with
    | nil => cases hfront
    | cons first' front =>
        have hmem : c ∈ newer.reverse := by
          rw [(List.cons.inj hts).2]
          simp
        exact (hnewer c (List.mem_reverse.mp hmem)).2 .named (List.mem_singleton_self _) hc

theorem resource_of_yields (h : resourceRule.Yields Rule.Shaped true [] b) :
    shapeSorting.All m b := by
  obtain ⟨none, _, hnone, h, rfl⟩ := h
  obtain rfl := hnone.empty rfl
  rcases h with ⟨_, htype, _, hname, _, hequals, gap, built, hgap, hbuilt, rfl⟩ |
    ⟨_, ⟨gap, built, hgap, hbuilt, rfl⟩, rfl⟩
  · obtain ⟨value, rfl⟩ := hbuilt.single rfl
    have hall := Sorting.all_of_yields describes_shaped (m := [.named]) rfl Sorting.all_nil htype
    have hall := Sorting.all_of_yields describes_shaped rfl hall hname
    have hall := Sorting.all_of_yields describes_shaped rfl hall hequals
    have hnode := hasTraits_before (m := m) (k := .resource) rfl
      (hbuilt.all.allShaped value (List.mem_singleton_self value)) (Sorting.all_gap hgap hall)
    exact Sorting.all_cons hnode Sorting.all_nil
  · obtain ⟨t, rfl⟩ := hbuilt.single rfl
    obtain rfl := hgap.empty rfl
    exact Sorting.all_cons
      (hasTraits_before rfl (hbuilt.all.allShaped t (List.mem_singleton_self t)) Sorting.all_nil)
      Sorting.all_nil

theorem instanceOf_of_yields {label : Bool} {first : Tree} (hfirst : first.AllShaped)
    (h : (instanceOfRest label).Yields Rule.Shaped false [first] b) : shapeSorting.All m b := by
  obtain ⟨_, hkeyword, _, hfinal, _, hpattern, rfl⟩ := h
  obtain ⟨keyword, rfl, hall⟩ :=
    Sorting.exists_all_added describes_shaped (m := [.named]) rfl rfl hkeyword
  obtain ⟨final, rfl, hall'⟩ :=
    Sorting.exists_all_added describes_shaped (m := [.named]) rfl rfl hfinal
  obtain ⟨pattern, rfl, hall''⟩ :=
    Sorting.exists_all_added describes_shaped (m := [.named]) rfl rfl hpattern
  have hnode := hasTraits_after (m := m) (k := .instanceOf) rfl hfirst
    (Sorting.all_append hall'' (Sorting.all_append hall' hall))
  simp only [List.append_assoc] at hnode
  exact Sorting.all_cons hnode Sorting.all_nil

theorem fits_anySymbol {σ : Type} (S : Sorting Rule σ) (texts : List String) (m : σ) :
    S.fits (anySymbol texts) m = true := by
  unfold anySymbol
  induction texts with
  | nil => rfl
  | cons text texts ih =>
      cases texts with
      | nil => rfl
      | cons next rest => exact (Bool.and_eq_true _ _).mpr ⟨rfl, ih⟩

theorem binary_of_yields {level : Nat} {label : Bool}
    (h : (binaryRule level label).Yields Rule.Shaped true [] b) :
    shapeSorting.All [.called, .plain] b := by
  let operand : Production :=
    .call (if level < lastLevel then .binary (level + 1) label else .unary label)
  let rest : Production := .all [anySymbol (binaryOperators level), operand, .close .binary]
  have hoperand : shapeSorting.fits operand [.called, .plain] = true := by
    unfold operand
    split <;> rfl
  have hrest : shapeSorting.fits rest [.called, .plain] = true :=
    (Bool.and_eq_true _ _).mpr ⟨fits_anySymbol _ _ _, (Bool.and_eq_true _ _).mpr ⟨hoperand, rfl⟩⟩
  have hone : operand.leavesOne Rule.single .nothing = true := by
    unfold operand
    split <;> rfl
  obtain ⟨first, hfirst, hmany⟩ := h
  suffices hlast : shapeSorting.All [.called, .plain] b ∧ ∃ t, b = [t] from hlast.1
  induction hmany with
  | refl =>
      exact ⟨Sorting.all_of_yields describes_shaped hoperand Sorting.all_nil hfirst,
        Gram.exists_of_leavesOne (n := .nothing) describes_shaped.single hone ⟨rfl, rfl⟩ hfirst⟩
  | tail _ hstep ih =>
      obtain ⟨hall, t, rfl⟩ := ih
      have hbinary : ∀ {b}, rest.Yields Rule.Shaped false [t] b →
          shapeSorting.All [.called, .plain] b ∧ ∃ t, b = [t] :=
        fun h => ⟨Sorting.all_of_yields describes_shaped hrest hall h,
          Gram.exists_of_leavesOne (n := .one) describes_shaped.single rfl ⟨t, rfl⟩ h⟩
      split at hstep
      next =>
        rcases hstep with hstep | hstep
        · exact hbinary hstep
        · exact ⟨instanceOf_of_yields (hall.allShaped t (List.mem_singleton_self t)) hstep,
            Gram.exists_of_leavesOne (n := .one) describes_shaped.single rfl ⟨t, rfl⟩ hstep⟩
      next => exact hbinary hstep

/-! ## Whole programs -/

/-- Every rule builds what it is to build. -/
theorem all_of_body {rule : Rule} (h : rule.body.Yields Rule.Shaped true [] b) :
    shapeSorting.All rule.traits b := by
  cases rule with
  | name =>
      obtain ⟨t, rfl, hshaped, -, hrole⟩ := name_of_yields h
      refine Sorting.all_cons ⟨hshaped, fun q hq => ?_⟩ Sorting.all_nil
      simp only [Rule.traits, List.mem_cons, List.not_mem_nil, or_false] at hq
      rcases hq with rfl | rfl
      · exact fun h => absurd (hrole.symm.trans h).symm (Option.some_ne_none _)
      · exact hrole
  | annotationUse => exact annotation_of_yields h
  | importDeclaration => exact import_of_yields h
  | binary level label => exact binary_of_yields h
  | primary => exact primary_of_yields h
  | typeOperand => exact typeOperand_of_yields h
  | lambda label => exact lambda_of_yields h
  | forStatement => exact for_of_yields h
  | resource => exact resource_of_yields h
  | declarator => exact declarator_of_yields h
  | annotationMember => exact annotationMember_of_yields h
  | unary label =>
      cases label <;> exact Sorting.all_of_yields describes_shaped rfl Sorting.all_nil h
  | _ => exact Sorting.all_of_yields describes_shaped rfl Sorting.all_nil h

theorem shaped_of_body (rule : Rule) (b : List Tree) (h : rule.body.Yields Rule.Shaped true [] b) :
    rule.Shaped b where
  all := all_of_body h
  single hsingle := single_of_yields hsingle h
  kindFits t ht := by
    cases rule with
    | name =>
        obtain ⟨t', rfl, -, hname, -⟩ := name_of_yields h
        exact List.mem_singleton.mp ht ▸ hname
    | typeArguments =>
        obtain ⟨none, built, hnone, -, rfl⟩ := h
        obtain rfl := hnone.empty rfl
        exact List.mem_singleton.mp ht ▸ rfl
    | _ => rfl

end

theorem yields_of_parseTokens {post : Rule → List Tree → Prop} {ts : List Token} {trees : List Tree}
    (hbody : ∀ rule b, rule.body.Yields post true [] b → post rule b) (hts : ∀ t ∈ ts, t.Sound)
    (h : parseTokens ts = .ok trees) : programRule.Yields post false [] trees.reverse := by
  unfold parseTokens at h
  dsimp only at h
  cases hrun : parseRule Rule.body ts.length (100 * (ts.length + 1)) .program ⟨[], ts, 0⟩ with
  | error far =>
      rw [hrun] at h
      cases h
  | ok s =>
      rw [hrun] at h
      cases h
      rw [List.reverse_reverse]
      exact (parseRule_yields (s := ⟨[], ts, 0⟩) hbody _ .program false rfl hts
        Bool.noConfusion hrun).1

theorem allShaped_parseTokens {ts : List Token} {trees : List Tree} (hts : ∀ t ∈ ts, t.Sound)
    (h : parseTokens ts = .ok trees) : ∀ t ∈ trees, t.AllShaped := by
  have hprogram := yields_of_parseTokens shaped_of_body hts h
  have hall := Sorting.all_of_yields describes_shaped (m := []) rfl Sorting.all_nil hprogram
  exact fun t ht => hall.allShaped t (List.mem_reverse.mpr ht)

theorem allShaped_program {trees : List Tree} (h : ∀ t ∈ trees, t.AllShaped) :
    (Tree.inner .program trees).AllShaped :=
  (hasTraits_ordinary (m := []) rfl fun t ht =>
    ⟨h t ht, by simp [Kind.demands, patternKinds, Kind.introductions]⟩).1

/-- Every node of a parsed tree is made as the grammar makes it. -/
theorem allShaped_parse (source : String) : (parse source).AllShaped := by
  unfold parse
  dsimp only
  split
  next trees htrees => exact allShaped_program (allShaped_parseTokens (sound_tokens source) htrees)
  next place _ =>
    refine allShaped_program fun t ht => ?_
    rcases List.mem_append.mp ht with ht | ht
    · obtain ⟨token, -, rfl⟩ := List.mem_map.mp ht
      exact allShaped_leaf rfl
    · obtain rfl := List.mem_singleton.mp ht
      unfold faultAt
      dsimp only
      split
      · split <;> exact allShaped_leaf rfl
      · exact allShaped_leaf rfl

end ImportAudit.Java
