import ImportAudit.Decimal.Read
import ImportAudit.Settings.Check
import ImportAudit.World

/-!
# Settings in the environment

Every setting has an environment variable. One that is empty counts as not set, and one that cannot
be read is left out with a warning.
-/

namespace ImportAudit

namespace Setting

def variableName : Setting → String
  | extensions => "IMPORTLENS_EXTENSIONS"
  | excludedDirectories => "IMPORTLENS_EXCLUDE_DIRS"
  | workers => "IMPORTLENS_MAX_WORKERS"
  | timeout => "IMPORTLENS_PARSE_TIMEOUT"
  | directory => "IMPORTLENS_OUTPUT_DIR"
  | title => "IMPORTLENS_TITLE"
  | format => "IMPORTLENS_FORMAT"

/-- The items of a text that are set off by commas, without those that are blank. -/
def commaItems (text : String) : List String :=
  ((Text.splitAt ',' text).map Text.trim).filter (· != "")

def read? (s : Setting) (text : String) : Option Value :=
  match s with
  | extensions | excludedDirectories => some (.list ((commaItems text).map .str))
  | workers => (Decimal.readInt text).map .int
  | timeout => (Decimal.readDouble text).map .float
  | directory | title => some (.str text)
  | format =>
    let name := Text.lower text
    if Settings.formats.contains name then some (.str name) else none

end Setting

namespace Settings

def logSource : String := "importlens.config"

def environmentEntry (s : Setting) : Action (List (Value × Value)) := do
  match (← Action.environmentVariable? s.variableName).filter (· != "") with
  | none => return []
  | some text =>
    match s.read? text with
    | some v => return [(.str s.name, v)]
    | none =>
      Action.log .warning logSource ("Invalid " ++ s.variableName ++ " value, using default")
      return []

/-- The sections that the environment gives, without those that are empty. -/
def environmentLayer : Action (List (Value × Value)) := do
  let sections ← [Section.analysis, .output].mapM fun part => do
    return (part, (← part.settings.mapM environmentEntry).flatten)
  return sections.filterMap fun (part, es) =>
    if es.isEmpty then none else some (.str part.name, .map es)

end Settings

end ImportAudit
