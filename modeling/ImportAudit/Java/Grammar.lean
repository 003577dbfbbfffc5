import ImportAudit.Java.Token
import ImportAudit.Java.Tree

/-!
# Parsing expressions over tokens

A rule of a grammar is a parsing expression: alternatives are tried in order, repetition takes as
much as it can, and looking ahead takes nothing. Expressions build trees as they go. The trees built
so far in the current rule can be closed into one node, which is how an operand becomes the first
child of the expression that goes on after it.

`Gram.run` is the meaning of an expression, given the meaning of the rules it calls;
`parseRule` ties the knot with a bound on the nesting of rules. Both report the furthest token
that no alternative could take.
-/

namespace ImportAudit.Java

inductive Gram (ρ : Type)
  | empty
  | symbol (text : String)
  | keyword (words : List String)
  /-- A word that is not reserved here, as a leaf of the given kind. -/
  | word (kind : Kind) (reserved : List String)
  | lexeme (lexeme : Lexeme)
  /-- A closing angle bracket, split off a longer symbol if need be. -/
  | closeAngle
  | call (rule : ρ)
  | seq (first second : Gram ρ)
  | alt (first second : Gram ρ)
  | many (body : Gram ρ)
  | node (kind : Kind) (body : Gram ρ)
  /-- All that the current rule has built, as the children of one node. -/
  | close (kind : Kind)
  /-- What the body builds, with a role. -/
  | role (role : Role) (body : Gram ρ)
  /-- Only if the tree built last is of one of the kinds. -/
  | built (kinds : List Kind)
  | ahead (body : Gram ρ)
  | notAhead (body : Gram ρ)

namespace Gram

variable {ρ : Type}

def all : List (Gram ρ) → Gram ρ
  | [] => empty
  | [g] => g
  | g :: gs => seq g (all gs)

def oneOf : List (Gram ρ) → Gram ρ
  | [] => notAhead empty
  | [g] => g
  | g :: gs => alt g (oneOf gs)

def opt (g : Gram ρ) : Gram ρ := alt g empty

def oneOrMore (g : Gram ρ) : Gram ρ := seq g (many g)

def sepBy (separator : String) (g : Gram ρ) : Gram ρ :=
  seq g (many (seq (symbol separator) g))

def commas (g : Gram ρ) : Gram ρ := opt (sepBy "," g)

def without (words : List String) : Gram ρ := notAhead (keyword words)

end Gram

/-- Where a parse stands: the trees built in the current rule, newest first, the tokens left, and
the furthest place at which a token was refused. -/
structure State where
  built : List Tree
  rest : List Token
  far : Nat

namespace State

def place (s : State) : Nat :=
  (s.rest.head?.map Token.place).getD 0

def takeComments (s : State) : State :=
  go s.built s.rest
where
  go (built : List Tree) : List Token → State
    | [] => ⟨built, [], s.far⟩
    | t :: ts =>
      if t.lexeme = .comment then go (Tree.leaf .comment t.line t.text :: built) ts
      else ⟨built, t :: ts, s.far⟩

def refuse (s : State) : Except Nat State :=
  .error (max s.far s.place)

/-- Take the next token as a leaf if it passes a test; comments before it are taken with it. -/
def take (kind : Kind) (p : Token → Bool) (s : State) : Except Nat State :=
  let s := s.takeComments
  match s.rest with
  | t :: ts =>
    if p t then .ok { s with built := Tree.leaf kind t.line t.text :: s.built, rest := ts }
    else s.refuse
  | [] => s.refuse

/-- Take one closing angle bracket and leave what follows it in the same symbol. -/
def takeAngle (s : State) : Except Nat State :=
  let s := s.takeComments
  match s.rest with
  | t :: ts =>
    match t.lexeme, t.text.toList with
    | .symbol, '>' :: more =>
      let rest := if more.isEmpty then ts else { t with text := String.ofList more } :: ts
      .ok { s with built := Tree.leaf .token t.line ">" :: s.built, rest := rest }
    | _, _ => s.refuse
  | [] => s.refuse

/-- Run a parser on no trees and put what it builds, changed by `wrap`, on the trees there are. -/
def nested (wrap : List Tree → List Tree) (p : State → Except Nat State) (s : State) :
    Except Nat State :=
  let s := s.takeComments
  (p { s with built := [] }).map fun inner => { inner with built := wrap inner.built ++ s.built }

/-- Repeat a parser until it fails or takes nothing, at most `bound` times. -/
def repeated (p : State → Except Nat State) : Nat → State → State
  | 0, s => s
  | bound + 1, s =>
    match p s with
    | .ok next =>
      if s.place < next.place then repeated p bound next else { s with far := max s.far next.far }
    | .error far => { s with far := max s.far far }

end State

def closeTrees (kind : Kind) (built : List Tree) : List Tree :=
  [Tree.inner kind built.reverse]

def giveRole (role : Role) : List Tree → List Tree
  | [] => []
  | t :: ts => t.withRole role :: ts

namespace Gram

variable {ρ : Type}

/-- Run an expression; `bound` limits repetitions and `callRule` runs the rules. -/
def run (bound : Nat) (callRule : ρ → State → Except Nat State) : Gram ρ → State → Except Nat State
  | empty, s => .ok s
  | symbol text, s => s.take .token fun t => t.lexeme = .symbol ∧ t.text = text
  | keyword words, s => s.take .token fun t => t.lexeme = .word ∧ t.text ∈ words
  | word kind reserved, s => s.take kind fun t => t.lexeme = .word ∧ t.text ∉ reserved
  | lexeme l, s => s.take .token fun t => t.lexeme = l
  | closeAngle, s => s.takeAngle
  | call rule, s => s.nested id (callRule rule)
  | seq a b, s => (run bound callRule a s).bind (run bound callRule b)
  | alt a b, s =>
    match run bound callRule a s with
    | .ok next => .ok next
    | .error far => run bound callRule b { s with far := max s.far far }
  | many a, s => .ok (s.repeated (run bound callRule a) bound)
  | node kind a, s => s.nested (closeTrees kind) (run bound callRule a)
  | close kind, s => .ok { s with built := closeTrees kind s.built }
  | role r a, s => s.nested (giveRole r) (run bound callRule a)
  | built kinds, s => if s.built.head?.any fun t => t.kind ∈ kinds then .ok s else .error s.far
  | ahead a, s =>
    match run bound callRule a s with
    | .ok _ => .ok s
    | .error far => .error (max s.far far)
  | notAhead a, s =>
    match run bound callRule a s with
    | .ok _ => .error s.far
    | .error _ => .ok s

end Gram

/-- Run a rule of a grammar with calls nested at most `fuel` deep. -/
def parseRule {ρ : Type} (body : ρ → Gram ρ) (bound : Nat) : Nat → ρ → State → Except Nat State
  | 0, _, s => .error s.far
  | fuel + 1, rule, s => (body rule).run bound (parseRule body bound fuel) s

end ImportAudit.Java
