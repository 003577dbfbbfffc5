import ImportAudit.Analysis.Record
import ImportAudit.Console
import ImportAudit.Decimal.Layout
import ImportAudit.Report.Writer

/-!
# The summary of an analysis

A summary for a reader lists the counts, the files that were dropped, and the imports that are not
used, by file. The whole result can be saved as JSON.
-/

namespace ImportAudit

namespace Double

/-- The text of a number with a fixed number of decimals, a half going to the even neighbour. -/
def fixedText (places : Nat) : Double → String
  | nan => "nan"
  | infinity negative => if negative then "-inf" else "inf"
  | finite negative mantissa exponent =>
    let (num, den) := quotient mantissa exponent
    let digits := Nat.toDigits 10 (roundDiv (num * Nat.pow 10 places) den)
    let digits := List.replicate (places + 1 - digits.length) '0' ++ digits
    let whole := digits.take (digits.length - places)
    (if negative then "-" else "") ++ String.ofList whole
      ++ if places = 0 then "" else "." ++ String.ofList (digits.drop (digits.length - places))

end Double

def entryOf (key : String) (v : Value) : Value × Value := (.str key, v)

def traceMark : String := "<traceback>"

def ErrorRecord.toValue (r : ErrorRecord) : Value :=
  .map [entryOf "file_path" (.str r.path.text), entryOf "stage" (.str r.stage.name),
    entryOf "error_type" (.str r.kind.name), entryOf "message" (.str r.message),
    entryOf "line_number" (r.line.elim .null fun n => .int n), entryOf "traceback" (.str traceMark)]

def Stats.toValue (s : Stats) : Value :=
  .map [entryOf "files_scanned" (.int s.scanned), entryOf "files_analyzed" (.int s.analyzed),
    entryOf "errors_encountered" (.int s.errors), entryOf "used_imports" (.int s.used),
    entryOf "unused_imports" (.int s.unused), entryOf "analysis_duration" (.float s.duration)]

namespace Report

def toValue (r : Report) : Value :=
  .map [entryOf "root_path" (.str r.root.text), entryOf "columns" (.list (r.columns.map .str)),
    entryOf "rows" (.list (r.rows.map fun row => .map (row.map fun (c, v) => entryOf c v))),
    entryOf "errors" (.list (r.errors.map ErrorRecord.toValue)), entryOf "stats" r.stats.toValue]

def cellText (row : Row) (column : String) : Option String :=
  (row.cell? column).bind fun v => if v.isTruthy then some v.text else none

/-- The path of the file of a row, from the segments in its depth columns. -/
def label (r : Report) (row : Row) : String :=
  "/".intercalate ((Table.depthColumns r.columns).filterMap (cellText row))

def flagged (r : Report) : List (String × String) :=
  r.rows.filterMap fun row => (cellText row "unused").map fun unused => (r.label row, unused)

def show_ (text : Except Failure String) : Action Unit := do
  Action.print (← Action.ofExcept text)

def printSummary (c : Console) (r : Report) : Action Unit := do
  show_ (c.header "Import Analysis" (some r.root.text))
  show_ (c.notice .info ("Files scanned: " ++ toString r.stats.scanned))
  show_ (c.notice .info ("Files analysed: " ++ toString r.stats.analyzed))
  show_ (c.notice .info ("Imports: " ++ toString r.stats.used ++ " used, "
    ++ toString r.stats.unused ++ " unused (" ++ r.stats.duration.fixedText 2 ++ "s)"))
  if !r.errors.isEmpty then
    show_ (c.heading "Skipped files")
    for e in r.errors do
      show_ (c.notice .warning (e.path.text ++ " (" ++ e.stage.name ++ "): " ++ e.message))
  match r.flagged with
  | [] => show_ (c.notice .success "No unused imports found")
  | rows =>
    show_
      (c.table "Unused imports" ["File", "Unused imports"] (rows.map fun (file, unused) =>
        [file, unused]))

def saveSummary (r : Report) (path : Path) : Action Unit := do
  let text ← Action.ofExcept (Json.printCharacters (some "  ") r.toValue)
  (Writer.writeAtomically path text).orOnSystemFailure fun _ =>
    throw (.export_ ("Failed to save summary file: " ++ path.text))

end Report

end ImportAudit
