import ImportAudit.Extensions
import ImportAudit.World

/-!
# Source files below a root

The source files below a root are the files with an allowed extension that do not lie in an excluded
directory. They are listed in the order of their paths, whatever the order of the file system.
-/

namespace ImportAudit

namespace Discovery

def defaultExcluded : List String :=
  [".git", ".hg", ".svn", ".idea", ".gradle"]

/-- The names in a set of excluded directories. Items that are not texts exclude nothing, but have
to be such as a set can hold. -/
def excludedOfValue (v : Value) : Except Failure (List String) := do
  let names ← (← v.items).mapM fun x =>
    match x.unhashable? with
    | some part => .error (.wrongType ("unhashable type: '" ++ part.typeName ++ "'"))
    | none =>
      match x with
      | .str s => .ok [s]
      | _ => .ok []
  return names.flatten

/-- Whether a file below the root is listed. The segments lead from the root to the file. -/
def isListed (allowed excluded : List String) (segments : List String) : Bool :=
  segments.dropLast.all (fun s => !excluded.contains s)
    && Extensions.allow allowed (segments.getLast?.getD "")

/-- Whether a directory is searched that is reached by a path: one at a given location, and not at
the end of a link, which may be listed. -/
def searches (fs : FileSystem) (p : Path) (l : Location) : Bool :=
  match fs.entry p with
  | .ok (m, .directory) => m == l && !fs.denies l .list
  | _ => false

/-- What is met below a root that is at a location: the segments of all entries in
directories that are searched. -/
def met (fs : FileSystem) (root : Path) (l : Location) : List (List String) :=
  let segments := (fs.below l).map fun e => e.1.drop l.length
  segments.filter fun segments =>
    (List.range segments.length).all fun n =>
      searches fs (root.join { parts := segments.take n }) (l ++ segments.take n)

def hindrance? (fs : FileSystem) (p : Path) : Option Failure :=
  match fs.look p with
  | .ok _ => none
  | .error f => some (.file f p.text)

def isFile (fs : FileSystem) (p : Path) : Bool :=
  match fs.look p with
  | .ok (some (.file _)) => true
  | _ => false

def files (fs : FileSystem) (root : Path) (l : Location) (allowed excluded : List String) :
    List Path :=
  let listed := (met fs root l).filter fun segments =>
    isFile fs (root.join { parts := segments }) && isListed allowed excluded segments
  (listed.map fun segments => root.join { parts := segments }).mergeSort fun p q => !q.before p

/-- The files below a root that is a directory, if all that is met can be looked at. -/
def below (fs : FileSystem) (root : Path) (l : Location) (allowed excluded : List String) :
    Except Failure (List Path) :=
  match (met fs root l).findSome? fun s => hindrance? fs (root.join { parts := s }) with
  | some f => .error f
  | none => .ok (files fs root l allowed excluded)

def discover (fs : FileSystem) (root : Path) (extensions : Option Value)
    (excluded : Option (List String)) (context : Option String) : Except Failure (List Path) := do
  match fs.entry root with
  | .error f => .error (if f.isAbsence then .pathNotFound root context else .file f root.text)
  | .ok (l, e) =>
    let allowed ← match extensions with
      | some v => Extensions.ofValue v
      | none => .ok Extensions.default
    let allowed := Extensions.normalize allowed
    match e with
    | .file _ => .ok (if Extensions.allow allowed root.name then [root] else [])
    | _ => below fs root l allowed (excluded.getD defaultExcluded)

end Discovery

/-! ## Path depths -/

def depthColumn (n : Nat) : String :=
  "depth " ++ toString n

/-- The segments of a file below the directory that holds the root, each with its column. -/
def pathDepths (file root : Path) : Except Failure (List (String × String)) :=
  match file.relativeTo? root.parent with
  | some segments => .ok (segments.zipIdx.map fun (s, i) => (depthColumn (i + 1), s))
  | none => .error (.outside file root.parent)

end ImportAudit
