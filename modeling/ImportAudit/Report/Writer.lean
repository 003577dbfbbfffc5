import ImportAudit.Json.Print
import ImportAudit.Report.Sheet
import ImportAudit.Text.Lower
import ImportAudit.World

/-!
# Report writers

A report is written to a temporary file next to its place and then moved there, so that a file that
is there is replaced as a whole or not at all.
-/

namespace ImportAudit

inductive ReportFormat
  | xlsx
  | json
  deriving DecidableEq, Repr

structure Writer where
  format : ReportFormat
  title : Value := .str "Analysis Result"
  /-- Where reports go that are given no place, if that is a text that can be encoded. -/
  directory : Except Text.EncodeFault Path := .ok (Path.ofString "analysis-results")
  indent : Value := .int 2

/-- What is put into a file: all of it, or what is there once making it breaks off. -/
inductive Draft
  | whole (c : Content)
  | broken (c : Content) (f : Failure)

namespace Draft

def content : Draft → Content
  | whole c => c
  | broken c _ => c

def complete : Draft → Except Failure Unit
  | whole _ => .ok ()
  | broken _ f => .error f

/-- A text is encoded once its file is there, so that one without an encoding
leaves an empty file. -/
def ofText : Except Text.EncodeFault String → Draft
  | .ok text => whole (.bytes (Text.encodeUtf8 text))
  | .error e => broken (.bytes []) (.unencodable e)

/-- A workbook that cannot be made leaves an unfinished one. -/
def ofWorkbook : Except Failure Workbook → Draft
  | .ok b => whole (.workbook b)
  | .error f => broken (.workbook { sheet := "result" }) f

end Draft

namespace Writer

def formats : List (String × ReportFormat) :=
  [("json", .json), ("xlsx", .xlsx)]

def format? (name : String) : Option ReportFormat :=
  formats.lookup (Text.lower name)

structure Options where
  title : Option Value := none
  directory : Option Value := none
  indent : Option Value := none

def pathOfValue : Value → Except Failure (Except Text.EncodeFault Path)
  | .str s => .ok (.ok (Path.ofString s))
  | .torn t => .ok (.error t.fault)
  | .bytes _ =>
    .error (.wrongType ("argument should be a str object or an os.PathLike object returning str, "
      ++ "not <class 'bytes'>"))
  | v => .error (.wrongType ("expected str, bytes or os.PathLike object, not " ++ v.shortTypeName))

/-- The writer for a format. Only reports in JSON are indented. -/
def make (format : Value) (options : Options) : Except Failure Writer := do
  let name ← match format with
    | .str s => pure s
    | v => .error (Failure.lacks v "lower")
  match format? name with
  | none =>
    .error (.invalidValue ("Unsupported output format: " ++ Text.quoted name ++ " (expected one of "
      ++ ", ".intercalate (formats.map (·.1)) ++ ")"))
  | some f =>
    if f = .xlsx ∧ options.indent.isSome then
      .error (.wrongType "ResultWriter.__init__() got an unexpected keyword argument 'indent'")
    let w : Writer := { format := f }
    let directory ← match options.directory with
      | some v => pathOfValue v
      | none => pure w.directory
    let title := options.title.getD w.title
    return { w with title, directory, indent := options.indent.getD w.indent }

def name (w : Writer) : String :=
  match w.format with
  | .xlsx => "XlsxResultWriter"
  | .json => "JsonResultWriter"

def extension (w : Writer) : String :=
  match w.format with
  | .xlsx => "xlsx"
  | .json => "json"

def temporaryPath (p : Path) : Except Failure Path :=
  match p.withName? (p.name ++ ".tmp") with
  | some t => .ok t
  | none => .error (.unnamed p)

/-- Write a draft to a temporary file and move it to its place. A draft that
breaks off stays where it is. -/
def putInPlace (temporary path : Path) (draft : Draft) : Action Unit := do
  Action.writeFile temporary draft.content
  Action.ofExcept draft.complete
  Action.moveFile temporary path

/-- Write a draft beside its place and move it there. When the file system fails, what is
beside the place is removed. -/
def deposit (path : Path) (draft : Draft) (report : Failure → Failure) : Action Unit := do
  let temporary ← Action.ofExcept (temporaryPath path)
  Action.orOnSystemFailure (putInPlace temporary path draft) fun f => do
    Action.removeFile temporary
    Action.fail (report f)

def writeAtomically (path : Path) (text : Except Text.EncodeFault String) : Action Unit :=
  deposit path (.ofText text) id

/-- The indentation that a value stands for: a text, or a number of spaces. -/
def indentation : Value → Except Failure (Option String)
  | .null => .ok none
  | .str s => .ok (some s)
  | .int n => .ok (some (String.ofList (List.replicate n.toNat ' ')))
  | .bool b => .ok (some (if b then " " else ""))
  | v => .error (.wrongType ("can't multiply sequence by non-int of type '" ++ v.typeName ++ "'"))

def document (title : Value) (rows : List Row) : Value :=
  let columns := Table.unionColumns rows
  .map
    [(.str "title", title), (.str "columns", .list (columns.map .str)),
      (.str "rows", .list (rows.map fun r => .map (columns.map fun c => (.str c, r.shown c))))]

def documentText (w : Writer) (rows : List Row) :
    Except Failure (Except Text.EncodeFault String) := do
  Json.printCharacters (← indentation w.indent) (document w.title rows)

def exportJson (w : Writer) (rows : List Row) (path : Path) : Action Unit := do
  let text ← Action.ofExcept (w.documentText rows)
  Action.orOnSystemFailure (writeAtomically path text) fun _ =>
    Action.fail (.export_ ("[" ++ w.name ++ "] Failed to save JSON file: " ++ path.text))
  Action.log .info "importlens.export.json_writer" ("Saved JSON file: " ++ path.text)

def exportWorkbook (w : Writer) (rows : List Row) (path : Path) : Action Unit := do
  deposit path (.ofWorkbook (Sheet.workbook w.title rows)) fun _ =>
    .export_ ("[" ++ w.name ++ "] Failed to save Excel file: " ++ path.text)
  Action.log .info "importlens.export.xlsx_writer" ("Saved Excel file: " ++ path.text)

def export_ (w : Writer) (rows : List Row) (path : Path) : Action Path := do
  if rows.isEmpty then Action.fail (.emptyDataset ("[" ++ w.name ++ "] No data to export"))
  match w.format with
  | .json => w.exportJson rows path
  | .xlsx => w.exportWorkbook rows path
  return path

/-- Write a report to the directory of the writer, under a name made of the writer and the time. -/
def exportToDirectory (w : Writer) (rows : List Row) : Action Path := do
  let directory ← Action.ofExcept (w.directory.mapError .unencodable)
  Action.orOnSystemFailure (Action.makeDirectories directory) fun _ =>
    Action.fail (.directoryCreation
      ("[" ++ w.name ++ "] Failed to create output directory: " ++ directory.text))
  let file := w.name ++ "_" ++ (← get).timestamp ++ "." ++ w.extension
  w.export_ rows (directory.child file)

end Writer

end ImportAudit
