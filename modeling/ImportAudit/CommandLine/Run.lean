import ImportAudit.Analysis.Root
import ImportAudit.CommandLine.Parse
import ImportAudit.Report.Summary
import ImportAudit.Settings.Load
import ImportAudit.Settings.Save

/-!
# Carrying out a command line

A failure that the tool reports itself is printed and gives exit code one. Any
other failure passes through.
-/

namespace ImportAudit.CommandLine

structure Exit where
  code : Nat
  errors : Option String := none
  deriving DecidableEq, Repr

/-- A text that counts as given only if there is something in it. -/
def given (s : Option String) : Option String :=
  s.filter (· != "")

def override? (a : Arguments) : Setting → Option Value
  | .extensions => if a.extensions.isEmpty then none else some (.list (a.extensions.map .str))
  | .excludedDirectories => none
  | .workers => a.workers.map .int
  | .timeout => a.timeout.map .float
  | .directory => (given a.outputDirectory).map .str
  | .title => (given a.title).map .str
  | .format => (given a.format).map .str

def override (a : Arguments) (c : Settings) (s : Setting) : Settings :=
  match override? a s with
  | some v => c.set s v
  | none => c

def overridden (a : Arguments) (c : Settings) : Settings :=
  (Section.analysis.settings ++ Section.output.settings).foldl (override a) c

def say (c : Console) (n : Console.Notice) (message : String) : Action Unit := do
  Action.print (← Action.ofExcept (c.notice n message))

def withOverrides (a : Arguments) (settings : Settings) : Action Settings := do
  let settings := overridden a settings
  Action.ofExcept settings.check
  return settings

def analyze (a : Arguments) (settings : Settings) (c : Console) (duration : Path → Nat) :
    Action Unit := do
  let report ← analyzeRoot settings.analysis duration (Path.ofString a.path)
  report.printSummary c
  if let some file := given a.summary then
    report.saveSummary (Path.ofString file)
    say c .success ("Summary written to " ++ file)
  if !a.noExport then
    let writer ← Action.ofExcept (Writer.make settings.output.format
      { title := some settings.output.title, directory := some settings.output.directory })
    let saved ← match given a.output with
      | some file => writer.export_ report.rows (Path.ofString file)
      | none => writer.exportToDirectory report.rows
    say c .success ("Report written to " ++ saved.text)

def showSettings (settings : Settings) (c : Console) : Action Unit := do
  Action.print (← Action.ofExcept (c.heading "Configuration"))
  let text ← Action.ofExcept (settings.summary >>= Value.textOrFailure)
  Action.print (c.literal text)

def initSettings (a : Arguments) (c : Console) : Action Unit := do
  let file := a.output.getD "importlens.yaml"
  ({} : Settings).save file (Settings.syntaxOfFormat (a.format.getD "yaml"))
  say c .success ("Default configuration file created at " ++ file)

def perform (a : Arguments) (c : Console) (duration : Path → Nat) : Action Unit := do
  let settings ← Settings.load a.configFile true true
  match a.command with
  | .analyze => analyze a (← withOverrides a settings) c duration
  | .showConfig => showSettings settings c
  | .initConfig => initSettings a c
  | .top | .config => pure ()

/-- Carry out a command line on a terminal with a number of columns. `duration` is how long the
analysis of a file takes. -/
def run (columns : Nat) (duration : Path → Nat) (words : List String) : Action Exit := do
  match read columns words with
  | .error stop =>
    Action.print stop.output
    return { code := stop.code, errors := some stop.errors }
  | .ok a =>
    if a.command = .top then
      Action.print (help (columns - 2) .top)
      return { code := 0 }
    modify fun w => { w with threshold := if a.verbose then .debug else .info }
    let c : Console := { rich := !a.plain, width := columns }
    match ← (perform a c duration).outcome with
    | .ok _ => return { code := 0 }
    | .error f =>
      if !f.kind.isTool then throw f
      Action.log .debug "importlens.cli.main" "Command failed"
      say c .error f.message
      return { code := 1 }

end ImportAudit.CommandLine
