import ImportAudit.Java.Grammar
import ImportAudit.Proofs.Java.Lexer
import ImportAudit.Proofs.Sequencing
import Mathlib.Logic.Relation

/-!
# What a grammar may build

A run of a parsing expression goes by a state, with bounds on it and with looking ahead. What it
builds is described here without them, as a relation between the trees built so far and those built
afterwards; the rules that are called are described by what they build. Every run that succeeds is
of this kind, so that a tree is known from the production that it comes from.
-/

namespace ImportAudit.Java

variable {ρ : Type}

def Tree.IsCommentLeaf (t : Tree) : Prop :=
  ∃ line text, t = Tree.leaf .comment line text ∧ IsComment text

/-- The comments in a gap before something. At the start of a rule there is no gap: the comments
before a rule are taken where it is called. -/
structure IsGap (start : Bool) (gap : List Tree) : Prop where
  empty : start = true → gap = []
  comments : ∀ c ∈ gap, c.IsCommentLeaf

def Gram.wordKind? : Gram ρ → Option Kind
  | .word kind _ => some kind
  | _ => none

def Gram.isEmpty : Gram ρ → Bool
  | .empty => true
  | _ => false

def Gram.isLook : Gram ρ → Bool
  | .empty | .built _ | .ahead _ | .notAhead _ => true
  | _ => false

/-- Whether an expression may lead from built trees to others, newest first; `post` says what a rule
may build, and `start` that a rule starts here. -/
def Gram.Yields (post : ρ → List Tree → Prop) : Gram ρ → Bool → List Tree → List Tree → Prop
  | .empty, _, b, b' => b' = b
  | .symbol text, start, b, b' =>
      ∃ gap line, IsGap start gap ∧ b' = Tree.leaf .token line text :: (gap ++ b)
  | .keyword words, start, b, b' =>
    ∃ gap line text, IsGap start gap ∧ text ∈ words ∧ b' = Tree.leaf .token line text :: (gap ++ b)
  | .word kind reserved, start, b, b' =>
    ∃ gap line text, IsGap start gap ∧ (IsWord text ∧ text ∉ reserved) ∧
      b' = Tree.leaf kind line text :: (gap ++ b)
  | .lexeme _, start, b, b' =>
      ∃ gap line text, IsGap start gap ∧ b' = Tree.leaf .token line text :: (gap ++ b)
  | .closeAngle, start, b, b' =>
      ∃ gap line, IsGap start gap ∧ b' = Tree.leaf .token line ">" :: (gap ++ b)
  | .call rule, start, b, b' =>
      ∃ gap built, IsGap start gap ∧ post rule built ∧ b' = built ++ (gap ++ b)
  | .seq g h, start, b, b' =>
      ∃ mid, g.Yields post start b mid ∧ h.Yields post (start && g.isLook) mid b'
  | .alt g h, start, b, b' => g.Yields post start b b' ∨ h.Yields post start b b'
  | .many g, _, b, b' => Relation.ReflTransGen (g.Yields post false) b b'
  | .node kind g, start, b, b' =>
    ∃ gap built, IsGap start gap ∧ g.Yields post true [] built ∧
      b' = Tree.inner kind built.reverse :: (gap ++ b)
  | .close kind, _, b, b' => b' = [Tree.inner kind b.reverse]
  | .role r g, start, b, b' =>
    ∃ gap built, IsGap start gap ∧ g.Yields post true [] built ∧ b' = giveRole r built ++ (gap ++ b)
  | .built _, _, b, b' | .ahead _, _, b, b' => b' = b
  -- Nothing is always ahead.
  | .notAhead g, _, b, b' => g.isEmpty = false ∧ b' = b

/-! ## Runs -/

namespace State

variable {s s' : State} {start : Bool} {p : State → Except Nat State}

def Sound (s : State) : Prop :=
  ∀ t ∈ s.rest, t.Sound

def Ready (s : State) : Prop :=
  ∀ t ∈ s.rest.head?, t.lexeme ≠ .comment

theorem takeComments_go (far : State) (built : List Tree) (ts : List Token)
    (hsound : ∀ t ∈ ts, t.Sound) :
    ∃ gap, (takeComments.go far built ts).built = gap ++ built ∧ (∀ c ∈ gap, c.IsCommentLeaf) ∧
      (takeComments.go far built ts).Sound ∧ (takeComments.go far built ts).Ready ∧
      ((∀ t ∈ ts.head?, t.lexeme ≠ .comment) → gap = []) := by
  induction ts generalizing built with
  | nil =>
      refine ⟨[], rfl, by simp, hsound, ?_, fun _ => rfl⟩
      rintro _ ⟨⟩
  | cons t ts ih =>
      obtain ⟨ht, hts⟩ := List.forall_mem_cons.mp hsound
      rw [takeComments.go]
      split
      next hcomment =>
        obtain ⟨gap, hbuilt, hgap, hrest⟩ := ih (Tree.leaf .comment t.line t.text :: built) hts
        refine ⟨gap ++ [Tree.leaf .comment t.line t.text], ?_, ?_, hrest.1, hrest.2.1,
          fun hready => ?_⟩
        · rw [hbuilt, List.append_assoc, List.singleton_append]
        · refine List.forall_mem_append.mpr ⟨hgap, List.forall_mem_singleton.mpr ?_⟩
          exact ⟨t.line, t.text, rfl, ht.comment hcomment⟩
        · exact absurd hcomment (hready t rfl)
      next hother =>
        refine ⟨[], rfl, by simp, hsound, ?_, fun _ => rfl⟩
        rintro _ ⟨⟩
        exact hother

theorem takeComments_spec (hsound : s.Sound) (hstart : start = true → s.Ready) :
    ∃ gap, IsGap start gap ∧ s.takeComments.built = gap ++ s.built ∧ s.takeComments.Sound ∧
      s.takeComments.Ready := by
  obtain ⟨gap, hbuilt, hgap, hrest, hready, hnone⟩ := takeComments_go s s.built s.rest hsound
  exact ⟨gap, ⟨fun h => hnone (hstart h), hgap⟩, hbuilt, hrest, hready⟩

theorem take_spec {kind : Kind} {test : Token → Bool} (hsound : s.Sound)
    (hstart : start = true → s.Ready) (h : s.take kind test = .ok s') :
    ∃ gap t, IsGap start gap ∧ t.Sound ∧ test t = true ∧
      s'.built = Tree.leaf kind t.line t.text :: (gap ++ s.built) ∧
      s'.Sound := by
  obtain ⟨gap, hgap, hbuilt, hrest, -⟩ := takeComments_spec hsound hstart
  unfold take at h
  dsimp only at h
  split at h
  next t ts hts =>
    rw [Sound, hts] at hrest
    obtain ⟨ht, hrest⟩ := List.forall_mem_cons.mp hrest
    split at h
    next htest =>
      cases h
      exact ⟨gap, t, hgap, ht, htest, by rw [← hbuilt], hrest⟩
    next => cases h
  next => cases h

theorem takeAngle_spec (hsound : s.Sound) (hstart : start = true → s.Ready)
    (h : s.takeAngle = .ok s') :
    ∃ gap line, IsGap start gap ∧ s'.built = Tree.leaf .token line ">" :: (gap ++ s.built) ∧
      s'.Sound := by
  obtain ⟨gap, hgap, hbuilt, hrest, -⟩ := takeComments_spec hsound hstart
  unfold takeAngle at h
  dsimp only at h
  split at h
  next t ts hts =>
    rw [Sound, hts] at hrest
    obtain ⟨ht, hrest⟩ := List.forall_mem_cons.mp hrest
    split at h
    next more hlexeme htext =>
      cases h
      refine ⟨gap, t.line, hgap, by rw [← hbuilt], fun u hu => ?_⟩
      dsimp only at hu
      split at hu
      next => exact hrest u hu
      next =>
        -- What is left of a split symbol is a symbol.
        rcases List.mem_cons.mp hu with rfl | hu
        · exact ⟨fun hword => absurd (hlexeme.symm.trans hword) (by decide),
            fun hcomment => absurd (hlexeme.symm.trans hcomment) (by decide)⟩
        · exact hrest u hu
    next => cases h
  next => cases h

/-- A parser that is run on no trees starts with no comment ahead. -/
theorem nested_spec {wrap : List Tree → List Tree} (hsound : s.Sound)
    (hstart : start = true → s.Ready) (h : s.nested wrap p = .ok s') :
    ∃ gap before after, IsGap start gap ∧ before.built = [] ∧ before.Sound ∧ before.Ready ∧
      p before = .ok after ∧
      s'.built = wrap after.built ++ (gap ++ s.built) ∧ s'.rest = after.rest := by
  obtain ⟨gap, hgap, hbuilt, hrest, hready⟩ := takeComments_spec hsound hstart
  unfold nested at h
  dsimp only at h
  cases hrun : p ⟨[], s.takeComments.rest, s.takeComments.far⟩ with
  | error far =>
      rw [hrun] at h
      cases h
  | ok after =>
      rw [hrun] at h
      cases h
      exact ⟨gap, ⟨[], s.takeComments.rest, s.takeComments.far⟩, after, hgap, rfl, hrest, hready,
        hrun, by rw [← hbuilt], rfl⟩

theorem repeated_spec {step : List Tree → List Tree → Prop}
    (hp : ∀ s s', s.Sound → p s = .ok s' → step s.built s'.built ∧ s'.Sound) (bound : Nat)
    (s : State) (hsound : s.Sound) :
    Relation.ReflTransGen step s.built (s.repeated p bound).built ∧ (s.repeated p bound).Sound := by
  induction bound generalizing s with
  | zero => exact ⟨.refl, hsound⟩
  | succ bound ih =>
      rw [repeated]
      cases hrun : p s with
      | error far => exact ⟨.refl, hsound⟩
      | ok next =>
          obtain ⟨hstep, hnext⟩ := hp s next hsound hrun
          dsimp only
          split
          next =>
            obtain ⟨hmore, hrest⟩ := ih next hnext
            exact ⟨.head hstep hmore, hrest⟩
          next => exact ⟨.refl, hsound⟩

end State

namespace Gram

variable {post : ρ → List Tree → Prop}

theorem rest_of_isLook {g : Gram ρ} {bound : Nat} {callRule : ρ → State → Except Nat State}
    {s s' : State} (hlook : g.isLook = true) (h : g.run bound callRule s = .ok s') :
    s'.rest = s.rest := by
  cases g with
  | empty =>
      cases h
      rfl
  | built kinds | ahead a =>
      rw [run] at h
      split at h
      · cases h
        rfl
      · cases h
  | notAhead a =>
      rw [run] at h
      split at h
      · cases h
      · cases h
        rfl
  | _ => cases hlook

/-- What a run builds is what the expression may build, if that is so of the rules. -/
theorem yields_of_run {bound : Nat} {callRule : ρ → State → Except Nat State}
    (hcall : ∀ rule (s s' : State), s.built = [] → s.Sound → s.Ready → callRule rule s = .ok s' →
      post rule s'.built ∧ s'.Sound)
    (g : Gram ρ) (start : Bool) {s s' : State} (hsound : s.Sound) (hstart : start = true → s.Ready)
    (h : g.run bound callRule s = .ok s') : g.Yields post start s.built s'.built ∧ s'.Sound := by
  induction g generalizing start s s' with
  | empty =>
      cases h
      exact ⟨rfl, hsound⟩
  | symbol text =>
      obtain ⟨gap, t, hgap, -, htest, hbuilt, hrest⟩ := State.take_spec hsound hstart h
      have htext : t.text = text := (of_decide_eq_true htest).2
      exact ⟨⟨gap, t.line, hgap, htext ▸ hbuilt⟩, hrest⟩
  | keyword words =>
      obtain ⟨gap, t, hgap, -, htest, hbuilt, hrest⟩ := State.take_spec hsound hstart h
      exact ⟨⟨gap, t.line, t.text, hgap, (of_decide_eq_true htest).2, hbuilt⟩, hrest⟩
  | word kind reserved =>
      obtain ⟨gap, t, hgap, ht, htest, hbuilt, hrest⟩ := State.take_spec hsound hstart h
      obtain ⟨hlexeme, hfree⟩ : t.lexeme = .word ∧ t.text ∉ reserved := of_decide_eq_true htest
      exact ⟨⟨gap, t.line, t.text, hgap, ⟨ht.word hlexeme, hfree⟩, hbuilt⟩, hrest⟩
  | lexeme l =>
      obtain ⟨gap, t, hgap, -, -, hbuilt, hrest⟩ := State.take_spec hsound hstart h
      exact ⟨⟨gap, t.line, t.text, hgap, hbuilt⟩, hrest⟩
  | closeAngle =>
      obtain ⟨gap, line, hgap, hbuilt, hrest⟩ := State.takeAngle_spec hsound hstart h
      exact ⟨⟨gap, line, hgap, hbuilt⟩, hrest⟩
  | call rule =>
      obtain ⟨gap, before, after, hgap, hnone, hbefore, hready, hrun, hbuilt, hrest⟩ :=
        State.nested_spec hsound hstart h
      obtain ⟨hpost, hafter⟩ := hcall rule before after hnone hbefore hready hrun
      exact ⟨⟨gap, after.built, hgap, hpost, hbuilt⟩, fun t ht => hafter t (hrest ▸ ht)⟩
  | seq a b iha ihb =>
      obtain ⟨mid, hmid, hrest⟩ := bind_eq_ok_iff.mp h
      obtain ⟨hfirst, hsound'⟩ := iha start hsound hstart hmid
      have hready : (start && a.isLook) = true → mid.Ready := fun hlook => by
        obtain ⟨hstart', hlook⟩ := (Bool.and_eq_true _ _).mp hlook
        rw [State.Ready, rest_of_isLook hlook hmid]
        exact hstart hstart'
      obtain ⟨hsecond, hafter⟩ := ihb (start && a.isLook) hsound' hready hrest
      exact ⟨⟨mid.built, hfirst, hsecond⟩, hafter⟩
  | alt a b iha ihb =>
      rw [run] at h
      cases hfirst : run bound callRule a s with
      | ok next =>
          rw [hfirst] at h
          cases h
          obtain ⟨hyields, hafter⟩ := iha start hsound hstart hfirst
          exact ⟨.inl hyields, hafter⟩
      | error far =>
          rw [hfirst] at h
          obtain ⟨hyields, hafter⟩ :=
            ihb start (s := { s with far := max s.far far }) hsound hstart h
          exact ⟨.inr hyields, hafter⟩
  | many a ih =>
      cases h
      exact State.repeated_spec
        (fun s s' hs hrun => ih false hs Bool.noConfusion hrun) bound s hsound
  | node kind a ih =>
      obtain ⟨gap, before, after, hgap, hnone, hbefore, hready, hrun, hbuilt, hrest⟩ :=
        State.nested_spec hsound hstart h
      obtain ⟨hyields, hafter⟩ := ih true hbefore (fun _ => hready) hrun
      exact ⟨⟨gap, after.built, hgap, hnone ▸ hyields, hbuilt⟩, fun t ht => hafter t (hrest ▸ ht)⟩
  | close kind =>
      cases h
      exact ⟨rfl, hsound⟩
  | role r a ih =>
      obtain ⟨gap, before, after, hgap, hnone, hbefore, hready, hrun, hbuilt, hrest⟩ :=
        State.nested_spec hsound hstart h
      obtain ⟨hyields, hafter⟩ := ih true hbefore (fun _ => hready) hrun
      exact ⟨⟨gap, after.built, hgap, hnone ▸ hyields, hbuilt⟩, fun t ht => hafter t (hrest ▸ ht)⟩
  | built kinds =>
      rw [run] at h
      split at h
      next =>
        cases h
        exact ⟨rfl, hsound⟩
      next => cases h
  | ahead a _ =>
      rw [run] at h
      split at h
      next =>
        cases h
        exact ⟨rfl, hsound⟩
      next => cases h
  | notAhead a _ =>
      rw [run] at h
      split at h
      next => cases h
      next far hfails =>
        cases h
        refine ⟨⟨?_, rfl⟩, hsound⟩
        cases a with
        | empty => cases hfails
        | _ => rfl

end Gram

/-- If what the body of each rule may build is what the rule may build, then
that is what every rule builds. -/
theorem parseRule_yields {body : ρ → Gram ρ} {bound : Nat} {post : ρ → List Tree → Prop}
    (hbody : ∀ rule b, (body rule).Yields post true [] b → post rule b) (fuel : Nat) (rule : ρ)
    (start : Bool) {s s' : State} (hnone : s.built = []) (hsound : s.Sound)
    (hstart : start = true → s.Ready) (h : parseRule body bound fuel rule s = .ok s') :
    (body rule).Yields post start [] s'.built ∧ s'.Sound := by
  induction fuel generalizing rule start s s' with
  | zero => cases h
  | succ fuel ih =>
      rw [← hnone]
      refine Gram.yields_of_run (fun rule s s' hnone hsound hready hrun => ?_)
        (body rule) start hsound hstart h
      obtain ⟨hyields, hafter⟩ := ih rule true hnone hsound (fun _ => hready) hrun
      exact ⟨hbody rule _ hyields, hafter⟩

/-! ## What is added -/

namespace Gram

variable {post : ρ → List Tree → Prop}

def adds : Gram ρ → Bool
  | .close _ => false
  | .seq a b | .alt a b => adds a && adds b
  | .many a => adds a
  | _ => true

theorem exists_added {g : Gram ρ} {start : Bool} {b b' : List Tree} (hadds : g.adds = true)
    (h : g.Yields post start b b') :
    ∃ new, b' = new ++ b ∧ ∀ c, g.Yields post start c (new ++ c) := by
  induction g generalizing start b b' with
  | close kind => cases hadds
  | empty | built kinds | ahead a _ =>
      cases h
      exact ⟨[], rfl, fun c => rfl⟩
  | notAhead a _ =>
      obtain ⟨hempty, rfl⟩ := h
      exact ⟨[], rfl, fun c => ⟨hempty, rfl⟩⟩
  | symbol text | closeAngle =>
      obtain ⟨gap, line, hgap, rfl⟩ := h
      exact ⟨Tree.leaf .token line _ :: gap, rfl, fun c => ⟨gap, line, hgap, rfl⟩⟩
  | keyword words | word kind reserved =>
      obtain ⟨gap, line, text, hgap, htext, rfl⟩ := h
      exact ⟨Tree.leaf _ line text :: gap, rfl, fun c => ⟨gap, line, text, hgap, htext, rfl⟩⟩
  | lexeme l =>
      obtain ⟨gap, line, text, hgap, rfl⟩ := h
      exact ⟨Tree.leaf .token line text :: gap, rfl, fun c => ⟨gap, line, text, hgap, rfl⟩⟩
  | call rule =>
      obtain ⟨gap, built, hgap, hbuilt, rfl⟩ := h
      exact ⟨built ++ gap, by simp, fun c => ⟨gap, built, hgap, hbuilt, by simp⟩⟩
  | node kind a _ =>
      obtain ⟨gap, built, hgap, hbuilt, rfl⟩ := h
      exact ⟨Tree.inner kind built.reverse :: gap, rfl, fun c => ⟨gap, built, hgap, hbuilt, rfl⟩⟩
  | role r a _ =>
      obtain ⟨gap, built, hgap, hbuilt, rfl⟩ := h
      exact ⟨giveRole r built ++ gap, by simp, fun c => ⟨gap, built, hgap, hbuilt, by simp⟩⟩
  | seq a b iha ihb =>
      obtain ⟨ha, hb⟩ := (Bool.and_eq_true _ _).mp hadds
      obtain ⟨mid, hfirst, hsecond⟩ := h
      obtain ⟨first, rfl, hadded⟩ := iha ha hfirst
      obtain ⟨second, rfl, hadded'⟩ := ihb hb hsecond
      refine ⟨second ++ first, by simp, fun c => ⟨first ++ c, hadded c, ?_⟩⟩
      rw [List.append_assoc]
      exact hadded' (first ++ c)
  | alt a b iha ihb =>
      obtain ⟨ha, hb⟩ := (Bool.and_eq_true _ _).mp hadds
      rcases h with h | h
      · obtain ⟨new, hnew, h⟩ := iha ha h
        exact ⟨new, hnew, fun c => .inl (h c)⟩
      · obtain ⟨new, hnew, h⟩ := ihb hb h
        exact ⟨new, hnew, fun c => .inr (h c)⟩
  | many a ih =>
      induction h with
      | refl => exact ⟨[], rfl, fun c => .refl⟩
      | tail _ hstep hmid =>
          obtain ⟨new, rfl, hmany⟩ := hmid
          obtain ⟨last, rfl, hlast⟩ := ih hadds hstep
          refine ⟨last ++ new, by simp, fun c => .tail (hmany c) ?_⟩
          rw [List.append_assoc]
          exact hlast (new ++ c)

end Gram

/-! ## How many trees -/

inductive Amount
  | nothing
  | one
  | anything
  deriving DecidableEq

def Amount.Describes : Amount → Bool → List Tree → Prop
  | nothing, start, b => start = true ∧ b = []
  | one, _, b => ∃ t, b = [t]
  | anything, _, _ => True

namespace Gram

variable {single : ρ → Bool} {post : ρ → List Tree → Prop}

/-- Whether exactly one tree is there after an expression; `single` says which
rules build one tree. -/
def leavesOne (single : ρ → Bool) : Gram ρ → Amount → Bool
  | .close _, _ => true
  | .empty, n | .built _, n | .ahead _, n => n = .one
  | .notAhead a, n => a.isEmpty || n = .one
  | .symbol _, n | .keyword _, n | .word _ _, n | .lexeme _, n | .closeAngle, n
  | .node _ _, n => n = .nothing
  | .call rule, n => n = .nothing && single rule
  | .role _ a, n => n = .nothing && leavesOne single a .nothing
  | .seq a b, n => leavesOne single b .anything || (leavesOne single a n && leavesOne single b .one)
  | .alt a b, n => leavesOne single a n && leavesOne single b n
  | .many a, n => n = .one && leavesOne single a .one

theorem eq_of_gap (ts : List Tree) {gap b b' : List Tree} {start : Bool} (hgap : IsGap start gap)
    (hb : Amount.nothing.Describes start b) (h : b' = ts ++ (gap ++ b)) : b' = ts := by
  obtain ⟨hstart, rfl⟩ := hb
  rw [h, hgap.empty hstart, List.append_nil, List.append_nil]

theorem exists_of_leavesOne (hsingle : ∀ rule b, single rule = true → post rule b → ∃ t, b = [t])
    {g : Gram ρ} {n : Amount} {start : Bool} {b b' : List Tree} (hone : g.leavesOne single n = true)
    (hb : n.Describes start b) (h : g.Yields post start b b') : ∃ t, b' = [t] := by
  induction g generalizing n start b b' with
  | close kind => exact ⟨_, h⟩
  | empty | built kinds | ahead a _ =>
      obtain rfl : n = .one := of_decide_eq_true hone
      obtain rfl : b' = b := h
      exact hb
  | notAhead a _ =>
      obtain ⟨hempty, rfl⟩ := h
      have hone : (a.isEmpty || decide (n = .one)) = true := hone
      rw [hempty, Bool.false_or] at hone
      obtain rfl : n = .one := of_decide_eq_true hone
      exact hb
  | symbol text | closeAngle =>
      obtain rfl : n = .nothing := of_decide_eq_true hone
      obtain ⟨gap, line, hgap, h⟩ := h
      exact ⟨_, eq_of_gap [_] hgap hb h⟩
  | keyword words | word kind reserved =>
      obtain rfl : n = .nothing := of_decide_eq_true hone
      obtain ⟨gap, line, text, hgap, -, h⟩ := h
      exact ⟨_, eq_of_gap [_] hgap hb h⟩
  | lexeme l =>
      obtain rfl : n = .nothing := of_decide_eq_true hone
      obtain ⟨gap, line, text, hgap, h⟩ := h
      exact ⟨_, eq_of_gap [_] hgap hb h⟩
  | node kind a _ =>
      obtain rfl : n = .nothing := of_decide_eq_true hone
      obtain ⟨gap, built, hgap, -, h⟩ := h
      exact ⟨_, eq_of_gap [_] hgap hb h⟩
  | call rule =>
      obtain ⟨hn, hrule⟩ := (Bool.and_eq_true _ _).mp hone
      obtain rfl : n = .nothing := of_decide_eq_true hn
      obtain ⟨gap, built, hgap, hpost, h⟩ := h
      rw [eq_of_gap built hgap hb h]
      exact hsingle rule built hrule hpost
  | role r a ih =>
      obtain ⟨hn, ha⟩ := (Bool.and_eq_true _ _).mp hone
      obtain rfl : n = .nothing := of_decide_eq_true hn
      obtain ⟨gap, built, hgap, hbuilt, h⟩ := h
      obtain ⟨t, rfl⟩ := ih ha ⟨rfl, rfl⟩ hbuilt
      exact ⟨_, eq_of_gap [_] hgap hb h⟩
  | seq a b iha ihb =>
      obtain ⟨mid, hfirst, hsecond⟩ := h
      rcases (Bool.or_eq_true _ _).mp hone with hone | hone
      · exact ihb hone trivial hsecond
      · obtain ⟨ha, hb'⟩ := (Bool.and_eq_true _ _).mp hone
        exact ihb hb' (iha ha hb hfirst) hsecond
  | alt a b iha ihb =>
      obtain ⟨ha, hb'⟩ := (Bool.and_eq_true _ _).mp hone
      rcases h with h | h
      · exact iha ha hb h
      · exact ihb hb' hb h
  | many a ih =>
      obtain ⟨hn, ha⟩ := (Bool.and_eq_true _ _).mp hone
      obtain rfl : n = .one := of_decide_eq_true hn
      induction h with
      | refl => exact hb
      | tail _ hstep hmid => exact ih ha hmid hstep

end Gram

namespace Gram

/-- Whether all that an expression leaves is one node that it closes. -/
def endsClosed : Gram ρ → Bool
  | .close _ => true
  | .seq _ b => endsClosed b
  | .alt a b => endsClosed a && endsClosed b
  | _ => false

theorem exists_of_endsClosed {post : ρ → List Tree → Prop} {g : Gram ρ} {start : Bool}
    {b b' : List Tree} (hclosed : g.endsClosed = true) (h : g.Yields post start b b') :
    ∃ kind ts, b' = [Tree.inner kind ts] := by
  induction g generalizing start b b' with
  | close kind => exact ⟨kind, b.reverse, h⟩
  | seq a b _ ihb =>
      obtain ⟨mid, -, hsecond⟩ := h
      exact ihb hclosed hsecond
  | alt a b iha ihb =>
      obtain ⟨ha, hb⟩ := (Bool.and_eq_true _ _).mp hclosed
      rcases h with h | h
      · exact iha ha h
      · exact ihb hb h
  | _ => cases hclosed

end Gram

/-! ## Sorts of trees -/

/-- Sorts of trees, with the operators of grammars that build trees of a sort from trees of sorts.
Leaves that are no words are of every sort. -/
structure Sorting (ρ σ : Type) where
  Has : σ → Tree → Prop
  rule : ρ → σ
  single : ρ → Bool
  /-- Whether every tree of the first sort is of the second. -/
  below : σ → σ → Bool
  words : σ → Kind → Bool
  /-- The sorts of trees of which a node of a kind is made so that it is of the given sort. -/
  inside : σ → Kind → List σ
  /-- Whether a node of a kind that is made of trees of a sort is of that sort too. -/
  closes : σ → Kind → Bool
  /-- The sorts of trees that are of the given sort once they have the role. -/
  named : σ → Role → List σ
  /-- Whether words as leaves of a kind are of a sort once they have the role. -/
  calls : σ → Role → Kind → Bool
  has_comment : ∀ m line text, Has m (Tree.leaf .comment line text)
  has_token : ∀ m line text, Has m (Tree.leaf .token line text)
  has_of_below : ∀ {i m t}, below i m = true → Has i t → Has m t
  has_word : ∀ {m kind line text}, words m kind = true → IsWord text →
    Has m (Tree.leaf kind line text)
  has_inside : ∀ {i m kind ts}, i ∈ inside m kind → (∀ t ∈ ts, Has i t) → Has m (Tree.inner kind ts)
  has_closes : ∀ {m kind ts}, closes m kind = true → (∀ t ∈ ts, Has m t) →
    Has m (Tree.inner kind ts)
  has_named : ∀ {i m r t}, i ∈ named m r → Has i t → Has m (t.withRole r)
  has_calls : ∀ {m r kind line text}, calls m r kind = true → IsWord text →
    Has m ((Tree.leaf kind line text).withRole r)

namespace Sorting

variable {σ : Type} (S : Sorting ρ σ)

def All (m : σ) (ts : List Tree) : Prop :=
  ∀ t ∈ ts, S.Has m t

/-- Whether an expression builds trees of a sort only. A role is given to a
word, or to one tree of a sort. -/
def fits : Gram ρ → σ → Bool
  | .empty, _ | .symbol _, _ | .keyword _, _ | .lexeme _, _ | .closeAngle, _ => true
  | .built _, _ | .ahead _, _ | .notAhead _, _ => true
  | .word kind _, m => S.words m kind
  | .call rule, m => S.below (S.rule rule) m
  | .seq a b, m | .alt a b, m => fits a m && fits b m
  | .many a, m => fits a m
  | .node kind a, m => (S.inside m kind).any (fits a)
  | .close kind, m => S.closes m kind
  | .role r a, m =>
      a.wordKind?.any (S.calls m r) || (a.leavesOne S.single .nothing && (S.named m r).any (fits a))

structure Describes (post : ρ → List Tree → Prop) : Prop where
  all : ∀ rule b, post rule b → S.All (S.rule rule) b
  single : ∀ rule b, S.single rule = true → post rule b → ∃ t, b = [t]

variable {S} {m : σ}

theorem all_nil : S.All m [] :=
  fun _ h => absurd h List.not_mem_nil

theorem all_cons {t : Tree} {ts : List Tree} (ht : S.Has m t) (hts : S.All m ts) :
    S.All m (t :: ts) :=
  List.forall_mem_cons.mpr ⟨ht, hts⟩

theorem all_append {ts us : List Tree} (hts : S.All m ts) (hus : S.All m us) : S.All m (ts ++ us) :=
  List.forall_mem_append.mpr ⟨hts, hus⟩

theorem all_reverse {ts : List Tree} (hts : S.All m ts) : S.All m ts.reverse :=
  fun t ht => hts t (List.mem_reverse.mp ht)

theorem all_gap {start : Bool} {gap b : List Tree} (hgap : IsGap start gap) (hb : S.All m b) :
    S.All m (gap ++ b) := by
  refine all_append (fun t ht => ?_) hb
  obtain ⟨line, text, rfl, -⟩ := hgap.comments t ht
  exact S.has_comment m line text

theorem all_of_yields {post : ρ → List Tree → Prop} (hpost : S.Describes post) {g : Gram ρ} {m : σ}
    {start : Bool} {b b' : List Tree} (hfits : S.fits g m = true) (hb : S.All m b)
    (h : g.Yields post start b b') : S.All m b' := by
  induction g generalizing m start b b' with
  | empty | built kinds | ahead a _ =>
      obtain rfl : b' = b := h
      exact hb
  | notAhead a _ =>
      obtain ⟨-, rfl⟩ := h
      exact hb
  | symbol text | closeAngle =>
      obtain ⟨gap, line, hgap, rfl⟩ := h
      exact all_cons (S.has_token m line _) (all_gap hgap hb)
  | keyword words =>
      obtain ⟨gap, line, text, hgap, -, rfl⟩ := h
      exact all_cons (S.has_token m line text) (all_gap hgap hb)
  | lexeme l =>
      obtain ⟨gap, line, text, hgap, rfl⟩ := h
      exact all_cons (S.has_token m line text) (all_gap hgap hb)
  | word kind reserved =>
      obtain ⟨gap, line, text, hgap, ⟨hword, -⟩, rfl⟩ := h
      exact all_cons (S.has_word hfits hword) (all_gap hgap hb)
  | call rule =>
      obtain ⟨gap, built, hgap, hbuilt, rfl⟩ := h
      exact all_append (fun t ht => S.has_of_below hfits (hpost.all rule built hbuilt t ht))
        (all_gap hgap hb)
  | seq a b iha ihb =>
      obtain ⟨ha, hb'⟩ := (Bool.and_eq_true _ _).mp hfits
      obtain ⟨mid, hfirst, hsecond⟩ := h
      exact ihb hb' (iha ha hb hfirst) hsecond
  | alt a b iha ihb =>
      obtain ⟨ha, hb'⟩ := (Bool.and_eq_true _ _).mp hfits
      rcases h with h | h
      · exact iha ha hb h
      · exact ihb hb' hb h
  | many a ih =>
      induction h with
      | refl => exact hb
      | tail _ hstep hmid => exact ih hfits hmid hstep
  | node kind a ih =>
      obtain ⟨i, hi, ha⟩ := List.any_eq_true.mp hfits
      obtain ⟨gap, built, hgap, hbuilt, rfl⟩ := h
      exact all_cons (S.has_inside hi (all_reverse (ih ha all_nil hbuilt))) (all_gap hgap hb)
  | close kind =>
      cases h
      exact all_cons (S.has_closes hfits (all_reverse hb)) all_nil
  | role r a ih =>
      obtain ⟨gap, built, hgap, hbuilt, rfl⟩ := h
      rcases (Bool.or_eq_true _ _).mp hfits with hfits | hfits
      · cases a with
        | word kind reserved =>
            obtain ⟨gap', line, text, hgap', ⟨hword, -⟩, rfl⟩ := hbuilt
            obtain rfl := hgap'.empty rfl
            exact all_append (all_cons (S.has_calls hfits hword) all_nil) (all_gap hgap hb)
        | _ => cases hfits
      · obtain ⟨hone, hfits⟩ := (Bool.and_eq_true _ _).mp hfits
        obtain ⟨i, hi, ha⟩ := List.any_eq_true.mp hfits
        have hi' := ih ha all_nil hbuilt
        obtain ⟨t, rfl⟩ := Gram.exists_of_leavesOne hpost.single hone ⟨rfl, rfl⟩ hbuilt
        exact all_append (all_cons (S.has_named hi (hi' t List.mem_cons_self)) all_nil)
          (all_gap hgap hb)

theorem exists_all_added {post : ρ → List Tree → Prop} (hpost : S.Describes post) {g : Gram ρ}
    {start : Bool} {b b' : List Tree} (hfits : S.fits g m = true) (hadds : g.adds = true)
    (h : g.Yields post start b b') :
    ∃ new, b' = new ++ b ∧ S.All m new := by
  obtain ⟨new, hnew, h⟩ := Gram.exists_added hadds h
  have hall := all_of_yields hpost hfits all_nil (h [])
  exact ⟨new, hnew, List.append_nil new ▸ hall⟩

end Sorting

end ImportAudit.Java
