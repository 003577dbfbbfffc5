/-!
# What a source file refers to
-/

namespace ImportAudit

/-- The occurrences of names in a source file, by the way they are used, each list in
the order of the source tree. -/
structure References where
  names : List String := []
  types : List String := []
  annotations : List String := []
  calls : List String := []
  fields : List String := []
  deriving DecidableEq, Repr, Inhabited

/-- The sets of names that a file refers to, as lists in which only membership counts. -/
structure UsageIndex where
  identifiers : List String := []
  types : List String := []
  annotations : List String := []
  /-- Methods called and members selected: what a static import can stand for. -/
  callables : List String := []
  deriving DecidableEq, Repr, Inhabited

namespace UsageIndex

def ofReferences (r : References) : UsageIndex :=
  { identifiers := r.names.eraseDups
    types := r.types.eraseDups
    annotations := r.annotations.eraseDups
    callables := (r.calls ++ r.fields).eraseDups }

def refersToTypeOrName (u : UsageIndex) (name : String) : Bool :=
  u.identifiers.contains name || u.types.contains name || u.annotations.contains name

def refersToMember (u : UsageIndex) (name : String) : Bool :=
  u.callables.contains name

end UsageIndex

end ImportAudit
