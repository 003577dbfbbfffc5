import ImportAudit.Discovery

/-!
# Settings

The settings of an analysis and of its reports. A configuration file can put a value of any type
under a setting; the check of a configuration says which are admitted.
-/

namespace ImportAudit

inductive Section
  | analysis
  | output
  deriving DecidableEq, Repr

inductive Setting
  | extensions
  | excludedDirectories
  /-- The number of workers; nothing leaves it open. -/
  | workers
  /-- The seconds that one file may take; nothing means no limit. -/
  | timeout
  | directory
  | title
  | format
  deriving DecidableEq, Repr

def Section.name : Section → String
  | analysis => "analysis"
  | output => "output"

namespace Setting

def name : Setting → String
  | extensions => "extensions"
  | excludedDirectories => "exclude_dirs"
  | workers => "max_workers"
  | timeout => "parse_timeout"
  | directory => "directory"
  | title => "title"
  | format => "format"

end Setting

def Section.title : Section → String
  | analysis => "AnalysisConfig"
  | output => "OutputConfig"

/-- The settings of a section, in the order in which they are written. -/
def Section.settings : Section → List Setting
  | analysis => [.extensions, .excludedDirectories, .workers, .timeout]
  | output => [.directory, .title, .format]

def Section.setting? (s : Section) (key : String) : Option Setting :=
  s.settings.find? fun x => x.name == key

structure AnalysisSettings where
  extensions : Value := .list (Extensions.default.map .str)
  excludedDirectories : Value := .list (Discovery.defaultExcluded.map .str)
  workers : Value := .null
  timeout : Value := .null
  deriving Inhabited

structure OutputSettings where
  directory : Value := .str "analysis-results"
  title : Value := .str "Import Analysis Results"
  format : Value := .str "xlsx"
  deriving Inhabited

structure Settings where
  analysis : AnalysisSettings := {}
  output : OutputSettings := {}
  /-- Whether the extensions have no value. Only a file that replaces a section
  as a whole takes one away. -/
  lacksExtensions : Bool := false
  lacksExcluded : Bool := false
  deriving Inhabited

namespace Settings

def get (c : Settings) : Setting → Value
  | .extensions => c.analysis.extensions
  | .excludedDirectories => c.analysis.excludedDirectories
  | .workers => c.analysis.workers
  | .timeout => c.analysis.timeout
  | .directory => c.output.directory
  | .title => c.output.title
  | .format => c.output.format

def set (c : Settings) (s : Setting) (v : Value) : Settings :=
  match s with
  | .extensions => { c with analysis.extensions := v, lacksExtensions := false }
  | .excludedDirectories => { c with analysis.excludedDirectories := v, lacksExcluded := false }
  | .workers => { c with analysis.workers := v }
  | .timeout => { c with analysis.timeout := v }
  | .directory => { c with output.directory := v }
  | .title => { c with output.title := v }
  | .format => { c with output.format := v }

@[simp]
theorem get_set_self (c : Settings) (s : Setting) (v : Value) : (c.set s v).get s = v := by
  cases s <;> rfl

@[simp]
theorem get_set_of_ne (c : Settings) {s t : Setting} (v : Value) (h : t ≠ s) :
    (c.set s v).get t = c.get t := by
  cases s <;> cases t <;> first | rfl | exact absurd rfl h

def entries (c : Settings) : List (Value × Value) :=
  [Section.analysis, .output].map fun part =>
    (.str part.name, .map (part.settings.map fun s => (.str s.name, c.get s)))

def toValue (c : Settings) : Value :=
  .map c.entries

def lacks (c : Settings) : Setting → Bool
  | .extensions => c.lacksExtensions
  | .excludedDirectories => c.lacksExcluded
  | _ => false

def require (c : Settings) (s : Setting) : Except Failure Unit :=
  if c.lacks s then
    .error (.noAttribute
      ("'" ++ Section.analysis.title ++ "' object has no attribute '" ++ s.name ++ "'"))
  else .ok ()

/-- Stop if a setting has no value, or one that contains itself. -/
def requireFinite (c : Settings) (s : Setting) : Except Failure Unit := do
  c.require s
  if (c.get s).isEndless then throw .endless

def complete (c : Settings) : Except Failure Value := do
  (Section.analysis.settings ++ Section.output.settings).forM c.requireFinite
  return c.toValue

end Settings

end ImportAudit
