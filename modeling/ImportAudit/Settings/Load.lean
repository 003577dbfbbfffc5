import ImportAudit.Settings.Environment
import ImportAudit.Settings.File
import ImportAudit.Settings.Merge

/-!
# Loading settings

Settings come from the defaults, from a configuration file and from the environment, of which the
later ones win. Keys that name no setting have no effect.
-/

namespace ImportAudit.Settings

/-- Take the value of a setting away: the default stands again, but for the
lists, which have none then. -/
def reset (c : Settings) : Setting → Settings
  | .extensions => { c with lacksExtensions := true }
  | .excludedDirectories => { c with lacksExcluded := true }
  | s => c.set s (({} : Settings).get s)

def replace (c : Settings) (part : Section) (entries : List (Value × Value)) : Settings :=
  part.settings.foldl (fun c s =>
    match Value.lookup (.str s.name) entries with
    | some v => c.set s v
    | none => c.reset s) c

/-- Take over an entry under a name that a section has besides its settings: one stands for all that
the section holds, and two cannot take a value. Any other name has no effect. -/
def assignReserved (c : Settings) (part : Section) (name : String) (v : Value) :
    Except Failure Settings :=
  match name with
  | "__class__" =>
    .error (.wrongType ("__class__ must be set to a class, not '" ++ v.typeName ++ "' object"))
  | "__dict__" =>
    match v with
    | .map es => .ok (c.replace part es)
    | v =>
      .error (.wrongType ("__dict__ must be set to a dictionary, not a '" ++ v.typeName ++ "'"))
  | "__weakref__" =>
    .error
      (.noAttribute ("attribute '__weakref__' of '" ++ part.title ++ "' objects is not writable"))
  | _ => .ok c

/-- Take over one entry of a section. A setting that is missing takes no value. -/
def assign (part : Section) (c : Settings) (entry : Value × Value) : Except Failure Settings :=
  match entry.1 with
  | .str name =>
    match part.setting? name with
    | some s => .ok (if c.lacks s then c else c.set s entry.2)
    | none => c.assignReserved part name entry.2
  | .torn _ => .ok c
  | k => .error (.wrongType ("attribute name must be string, not '" ++ k.typeName ++ "'"))

def assignSection (data : List (Value × Value)) (c : Settings) (part : Section) :
    Except Failure Settings :=
  match Value.lookup (.str part.name) data with
  | none => .ok c
  | some (.map es) => es.foldlM (assign part) c
  | some v => .error (Failure.lacks v "items")

def ofEntries (data : List (Value × Value)) : Except Failure Settings :=
  [Section.analysis, .output].foldlM (assignSection data) {}

/-- The settings that mappings give, of which the later ones win, if they pass the
check that `validate` asks for. -/
def ofLayers (validate : Bool) (layers : List (List (Value × Value))) :
    Except Failure Settings := do
  let data ← Value.merge (layers.map .map)
  if validate then checkData (.map data)
  ofEntries data

def fileLayer (path : Option String) : Action (List (Value × Value)) := do
  let w ← getThe World
  match path.filter (· != "") with
  | some p => Action.ofExcept (ConfigFile.read w.files p)
  | none =>
    match ConfigFile.find? w.files (ConfigFile.defaultPaths w.home) with
    | none => return []
    | some p =>
      let es ← Action.ofExcept (ConfigFile.read w.files p)
      Action.log .info logSource ("Loaded configuration from: " ++ p)
      return es

/-- Load settings from a file, the one at `path` or the first that is found, and from the
environment if `useEnvironment` says so. -/
def load (path : Option String) (useEnvironment validate : Bool) : Action Settings := do
  let fromFile ← fileLayer path
  let fromEnvironment ← if useEnvironment then environmentLayer else pure []
  Action.ofExcept (ofLayers validate [fromFile, fromEnvironment])

def loadFile (path : String) : Action Settings :=
  load (some path) false true

end ImportAudit.Settings
