/-!
# Import declarations
-/

namespace ImportAudit

structure ImportDeclaration where
  qualifiedName : String
  isStatic : Bool := false
  line : Option Nat := none
  deriving DecidableEq, Repr, Inhabited

namespace ImportDeclaration

def segments (name : List Char) : List (List Char) :=
  match name with
  | [] => [[]]
  | '.' :: cs => [] :: segments cs
  | c :: cs =>
    match segments cs with
    | [] => [[c]]
    | first :: rest => (c :: first) :: rest

/-- The last segment of the name; for an import of everything it is an asterisk. -/
def simpleName (d : ImportDeclaration) : String :=
  String.ofList ((segments d.qualifiedName.toList).getLast?.getD [])

def isWildcard (d : ImportDeclaration) : Bool :=
  d.qualifiedName == "*" || d.qualifiedName.toList.reverse.take 2 == ['*', '.']

/-- Two declarations import the same: the same name, both static or neither. -/
def SameImport (a b : ImportDeclaration) : Prop :=
  a.qualifiedName = b.qualifiedName ∧ a.isStatic = b.isStatic

instance (a b : ImportDeclaration) : Decidable (SameImport a b) :=
  inferInstanceAs (Decidable (_ ∧ _))

end ImportDeclaration

end ImportAudit
