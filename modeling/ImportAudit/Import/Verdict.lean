import ImportAudit.Import.Declaration
import ImportAudit.Import.Usage

/-!
# Used and unused imports

An import is judged by its simple name alone. A static import is used if a method of that name is
called or a member of that name is selected; any other import is used if the name occurs as a name,
a type or an annotation.
-/

namespace ImportAudit

def ImportDeclaration.isUsed (d : ImportDeclaration) (u : UsageIndex) : Bool :=
  if d.isStatic then u.refersToMember d.simpleName else u.refersToTypeOrName d.simpleName

/-- The imports of a file, split by verdict, each list in the order of declaration. -/
structure Verdict where
  used : List ImportDeclaration := []
  unused : List ImportDeclaration := []
  deriving DecidableEq, Repr, Inhabited

namespace Verdict

def classify (imports : List ImportDeclaration) (u : UsageIndex) : Verdict :=
  { used := imports.filter (·.isUsed u)
    unused := imports.filter fun d => !d.isUsed u }

def distinctNames (ds : List ImportDeclaration) : List ImportDeclaration :=
  go [] ds
where
  go (seen : List String) : List ImportDeclaration → List ImportDeclaration
    | [] => []
    | d :: ds =>
      if seen.contains d.qualifiedName then go seen ds else d :: go (d.qualifiedName :: seen) ds

/-- Used imports, then unused ones, each name once. -/
def all (v : Verdict) : List ImportDeclaration :=
  distinctNames (v.used ++ v.unused)

def cell (ds : List ImportDeclaration) : String :=
  "\n".intercalate (ds.map (·.qualifiedName))

def cells (v : Verdict) : List (String × String) :=
  [("used", cell v.used), ("unused", cell v.unused), ("all", cell v.all)]

end Verdict

end ImportAudit
