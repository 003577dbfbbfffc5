import ImportAudit.Table
import ImportAudit.World

/-!
# Records of an analysis

What is kept of a file that was dropped, and what is counted.
-/

namespace ImportAudit

inductive Stage
  | read
  | parse
  deriving DecidableEq, Repr

def Stage.name : Stage → String
  | read => "read"
  | parse => "parse"

structure ErrorRecord where
  path : Path
  stage : Stage
  kind : Kind
  message : String
  line : Option Nat := none
  deriving DecidableEq, Repr

namespace ErrorRecord

def ofFailure (stage : Stage) (path : Path) (f : Failure) : ErrorRecord :=
  { path, stage, kind := f.kind, message := f.message, line := f.line? }

def warning (r : ErrorRecord) : LogEntry :=
  { level := .warning
    source := "importlens.analysis.foundation.error_handler"
    message := "Skipping " ++ r.path.text ++ " (" ++ r.stage.name ++ " failed): " ++ r.message }

def kept (r : ErrorRecord) : LogEntry :=
  { level := .debug
    source := "importlens.analysis.foundation.error_handler"
    message := "Added error: " ++ r.path.text ++ " - " ++ r.message }

end ErrorRecord

/-- Turn a failure that can be recovered from into a record; any other passes through. -/
def recover (recoverable : Kind → Bool) (stage : Stage) (path : Path) (result : Except Failure α) :
    Except Failure (Except ErrorRecord α) :=
  match result with
  | .ok a => .ok (.ok a)
  | .error f =>
    if recoverable f.kind then .ok (.error (ErrorRecord.ofFailure stage path f)) else .error f

structure Stats where
  scanned : Nat := 0
  analyzed : Nat := 0
  errors : Nat := 0
  used : Nat := 0
  unused : Nat := 0
  duration : Double := .zero
  deriving DecidableEq, Repr

structure Report where
  root : Path
  columns : List String := []
  rows : List Row := []
  errors : List ErrorRecord := []
  stats : Stats := {}

end ImportAudit
