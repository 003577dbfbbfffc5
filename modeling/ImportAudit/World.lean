import ImportAudit.Failure

/-!
# Actions and what they change

An action reads and changes files, writes a log, and may fail. What it did
before it failed stays done.
-/

namespace ImportAudit

inductive Level
  | debug
  | info
  | warning
  | error
  deriving DecidableEq, Repr

namespace Level

def name : Level → String
  | debug => "DEBUG"
  | info => "INFO"
  | warning => "WARNING"
  | error => "ERROR"

def rank : Level → Nat
  | debug => 10
  | info => 20
  | warning => 30
  | error => 40

end Level

structure LogEntry where
  level : Level
  source : String
  message : String
  deriving DecidableEq, Repr

structure World where
  files : FileSystem := {}
  environment : List (String × String) := []
  home : Path := {}
  /-- The time, as it goes into file names. -/
  timestamp : String := ""
  threshold : Level := .info
  /-- The messages so far, oldest first. -/
  logs : List LogEntry := []
  printed : String := ""
  deriving Inhabited

/-- An action; its changes stay when it fails. -/
abbrev Action := ExceptT Failure (StateM World)

namespace Action

def fail (f : Failure) : Action α :=
  throw f

def ofExcept : Except Failure α → Action α
  | .ok a => pure a
  | .error f => throw f

def outcome (a : Action α) : Action (Except Failure α) :=
  fun w =>
    let (r, w) := a w
    (.ok r, w)

def write (e : LogEntry) : Action Unit :=
  modify fun w => if e.level.rank < w.threshold.rank then w else { w with logs := w.logs ++ [e] }

def log (level : Level) (source message : String) : Action Unit :=
  write ⟨level, source, message⟩

def files : Action FileSystem := do
  return (← get).files

def changeFiles (fault : FileFault → Failure) (change : FileSystem → Except FileFault FileSystem) :
    Action Unit := do
  match change (← files) with
  | .ok fs => modify fun w => { w with files := fs }
  | .error f => throw (fault f)

def writeFile (path : Path) (content : Content) : Action Unit :=
  changeFiles (.file · path.text) (·.write path content)

def moveFile (source target : Path) : Action Unit :=
  changeFiles (.move · source.text target.text) (·.replace source target)

def removeFile (path : Path) : Action Unit := do
  match (← files).remove path with
  | .ok fs => modify fun w => { w with files := fs }
  | .error .notFound => pure ()
  | .error f => throw (.file f path.text)

def makeDirectories (path : Path) : Action Unit := do
  let (fs, fault) := (← files).makeDirectories path
  modify fun w => { w with files := fs }
  match fault with
  | none => pure ()
  | some f => throw (.file f path.text)

/-- When an action fails because of the file system, do another one. -/
def orOnSystemFailure (a : Action α) (b : Failure → Action α) : Action α := do
  match ← a.outcome with
  | .ok x => pure x
  | .error f => if f.kind.isSystem then b f else throw f

def environmentVariable? (name : String) : Action (Option String) := do
  return ((← get).environment.find? fun e => e.1 == name).map (·.2)

def print (s : String) : Action Unit :=
  modify fun w => { w with printed := w.printed ++ s }

end Action

end ImportAudit
