import ImportAudit.Path
import ImportAudit.Report.Workbook
import ImportAudit.Text.Encoding

/-!
# Files

A file system is a set of entries by their absolute location. The top directory is always there.
Paths are looked up from the working directory; every segment but the last has to be a directory
that is there, or a link to one, and that may be entered.
-/

namespace ImportAudit

/-- What a file holds: bytes, or a workbook, whose bytes do not matter here. -/
inductive Content
  | bytes (bs : List UInt8)
  | workbook (w : Workbook)
  deriving DecidableEq, Repr, Inhabited

/-- Where an entry is: the segments from the top. -/
abbrev Location := List String

inductive Entry
  | directory
  | file (content : Content)
  /-- A link, with the location that it leads to in the end, over whatever other links. One that
  leads in a circle leads nowhere. -/
  | link (target : Option Location)
  deriving DecidableEq, Repr, Inhabited

inductive Access
  /-- To look up what is in a directory. -/
  | enter
  /-- To list what is in a directory. -/
  | list
  /-- To make and remove entries of a directory. -/
  | change
  /-- To open a file. -/
  | use
  deriving DecidableEq, Repr

inductive FileFault
  | notFound
  | denied
  | notDirectory
  | isDirectory
  | exists_
  | nameTooLong
  | circle
  | nullCharacter
  deriving DecidableEq, Repr

namespace FileFault

def code : FileFault → Nat
  | notFound => 2
  | denied => 13
  | exists_ => 17
  | notDirectory => 20
  | isDirectory => 21
  | nameTooLong => 36
  | circle => 40
  | nullCharacter => 22

def text : FileFault → String
  | notFound => "No such file or directory"
  | denied => "Permission denied"
  | exists_ => "File exists"
  | notDirectory => "Not a directory"
  | isDirectory => "Is a directory"
  | nameTooLong => "File name too long"
  | circle => "Too many levels of symbolic links"
  | nullCharacter => "embedded null byte"

/-- Whether a fault says no more than that there is nothing at a path. -/
def isAbsence : FileFault → Bool
  | denied | nameTooLong => false
  | _ => true

end FileFault

structure FileSystem where
  workingDirectory : Location := []
  entries : List (Location × Entry) := []
  denied : List (Location × Access) := []
  deriving DecidableEq, Repr, Inhabited

namespace FileSystem

def entryAt? (fs : FileSystem) (l : Location) : Option Entry :=
  if l.isEmpty then some .directory else (fs.entries.find? fun e => e.1 == l).map (·.2)

def denies (fs : FileSystem) (l : Location) (a : Access) : Bool :=
  fs.denied.contains (l, a)

def erase (fs : FileSystem) (l : Location) : FileSystem :=
  { fs with
    entries := fs.entries.filter fun x => x.1 != l
    denied := fs.denied.filter fun x => x.1 != l }

/-- Put an entry at a location, at which nothing is forbidden then. -/
def put (fs : FileSystem) (l : Location) (e : Entry) : FileSystem :=
  { fs.erase l with entries := (fs.erase l).entries ++ [(l, e)] }

def move (fs : FileSystem) (source target : Location) (e : Entry) : FileSystem :=
  let moved := fs.denied.filterMap fun d => if d.1 == source then some (target, d.2) else none
  let fs := (fs.erase source).put target e
  { fs with denied := fs.denied ++ moved }

def maxSegment : Nat := 255

def maxPath : Nat := 4095

/-- The location that is one segment further; nothing needs to be there. -/
def step (fs : FileSystem) (l : Location) (s : String) : Except FileFault Location :=
  match fs.entryAt? l with
  | none => .error .notFound
  | some (.file _) => .error .notDirectory
  | some (.link _) => .error .circle
  | some .directory =>
    if fs.denies l .enter then .error .denied
    else if s == ".." then .ok l.dropLast
    else if maxSegment < s.utf8ByteSize then .error .nameTooLong
    else .ok (l ++ [s])

def follow (fs : FileSystem) (l : Location) : Except FileFault Location :=
  match fs.entryAt? l with
  | some (.link (some target)) => target.foldlM fs.step []
  | some (.link none) => .error .circle
  | _ => .ok l

/-- Go down from a location; the location reached need not be there, all on the way do. -/
def descend (fs : FileSystem) (l : Location) (segments : List String) :
    Except FileFault Location :=
  segments.foldlM (fun l s => fs.step l s >>= fs.follow) l

def start (fs : FileSystem) (p : Path) : Location :=
  if p.root == "" then fs.workingDirectory else []

def checkPath (p : Path) : Except FileFault Unit :=
  if p.hasNull then .error .nullCharacter
  else if maxPath < p.text.utf8ByteSize then .error .nameTooLong
  else .ok ()

def target (fs : FileSystem) (p : Path) : Except FileFault Location := do
  checkPath p
  fs.descend (fs.start p) p.parts

/-- The location of a path. A link in the last place is not followed. -/
def locate (fs : FileSystem) (p : Path) : Except FileFault Location := do
  checkPath p
  match p.parts.getLast? with
  | none => return fs.start p
  | some s => fs.step (← fs.descend (fs.start p) p.parts.dropLast) s

def entry (fs : FileSystem) (p : Path) : Except FileFault (Location × Entry) :=
  match fs.target p with
  | .error f => .error f
  | .ok l =>
    match fs.entryAt? l with
    | none => .error .notFound
    | some (.link _) => .error .circle
    | some e => .ok (l, e)

def look (fs : FileSystem) (p : Path) : Except FileFault (Option Entry) :=
  match fs.entry p with
  | .ok (_, e) => .ok (some e)
  | .error f => if f.isAbsence then .ok none else .error f

def read (fs : FileSystem) (p : Path) : Except FileFault Content :=
  match fs.entry p with
  | .error f => .error f
  | .ok (l, .file c) => if fs.denies l .use then .error .denied else .ok c
  | .ok _ => .error .isDirectory

/-- Whether the entries beside a location can be made and removed. -/
def holder (fs : FileSystem) (l : Location) : Except FileFault Unit :=
  match fs.entryAt? l.dropLast with
  | none => .error .notFound
  | some .directory => if fs.denies l.dropLast .change then .error .denied else .ok ()
  | some _ => .error .notDirectory

def make (fs : FileSystem) (l : Location) (e : Entry) : Except FileFault FileSystem := do
  fs.holder l
  return fs.put l e

def write (fs : FileSystem) (p : Path) (c : Content) : Except FileFault FileSystem := do
  let l ← fs.target p
  match fs.entryAt? l with
  | some .directory => throw .isDirectory
  | some (.link _) => throw .circle
  | some (.file _) => if fs.denies l .use then throw .denied else return fs.put l (.file c)
  | none => fs.make l (.file c)

/-- Move an entry over a path, at which nothing, a file or a link may be. -/
def replace (fs : FileSystem) (source target : Path) : Except FileFault FileSystem := do
  let from_ ← fs.locate source
  let to_ ← fs.locate target
  match fs.entryAt? from_ with
  | none => throw .notFound
  | some e =>
    fs.holder from_
    fs.holder to_
    if fs.entryAt? to_ = some .directory then throw .isDirectory
    return fs.move from_ to_ e

def remove (fs : FileSystem) (p : Path) : Except FileFault FileSystem := do
  let l ← fs.locate p
  match fs.entryAt? l with
  | none => throw .notFound
  | some e =>
    fs.holder l
    if e = .directory then throw .isDirectory
    return fs.erase l

def makeDirectory (fs : FileSystem) (p : Path) : Except FileFault FileSystem := do
  let l ← fs.locate p
  match fs.entryAt? l with
  | none => fs.make l .directory
  | some _ => if (← fs.look p) = some .directory then return fs else throw .exists_

/-- Make a directory, those above it first if they are not there. Directories
made before a fault stay. -/
def makeDirectories (fs : FileSystem) (p : Path) : FileSystem × Option FileFault :=
  go p.parts.length p
where
  go : Nat → Path → FileSystem × Option FileFault
    | 0, p =>
      match fs.makeDirectory p with
      | .ok fs => (fs, none)
      | .error f => (fs, some f)
    | depth + 1, p =>
      match fs.makeDirectory p with
      | .ok fs => (fs, none)
      | .error .notFound =>
        match go depth p.parent with
        | (fs, some f) => (fs, some f)
        | (fs, none) =>
          match fs.makeDirectory p with
          | .ok fs => (fs, none)
          | .error f => (fs, some f)
      | .error f => (fs, some f)

def below (fs : FileSystem) (l : Location) : List (Location × Entry) :=
  fs.entries.filter fun e => l.isPrefixOf e.1 && e.1 != l

def linkAt? (fs : FileSystem) (p : Path) : Option (Option Location) :=
  match (fs.locate p).toOption.bind fs.entryAt? with
  | some (.link target) => some target
  | _ => none

/-- Follow the links of a path, segment by segment. Nothing needs to be there. The path is an error
where a link leads in a circle. -/
def resolveFrom (fs : FileSystem) : Path → List String → Except Path Path
  | p, [] => .ok p
  | p, s :: rest =>
    if s == ".." then
      -- A relative path may go up beyond where it starts.
      let up :=
        if p.root == "" && p.parts.getLast?.getD ".." == ".." then p.child ".." else p.parent
      resolveFrom fs up rest
    else
      match fs.linkAt? (p.child s) with
      | some (some target) => resolveFrom fs { root := "/", parts := target } rest
      | some none => .error (rest.foldl Path.child (p.child s))
      | none => resolveFrom fs (p.child s) rest

def absolute (fs : FileSystem) (p : Path) : Path :=
  { root := "/"
    parts := p.parts.foldl (fun l s => if s == ".." then l.dropLast else l ++ [s]) (fs.start p) }

def resolve (fs : FileSystem) (p : Path) : Except Path Path :=
  match fs.resolveFrom { root := p.root } p.parts with
  | .ok p => .ok (fs.absolute p)
  | .error p => .error (fs.absolute p)

end FileSystem

end ImportAudit
