import ImportAudit.CommandLine.Run
import Std.Time.Format

/-!
# The program

The program reads the files it may need, carries out the command line on them, and writes back what
has changed. A workbook is stored as a list of its cells.
-/

namespace ImportAudit.Main

def location (path : String) : Location :=
  (Path.ofString path).parts

def pathAt (l : Location) : String :=
  "/" ++ "/".intercalate l

def ancestors (l : Location) : List (Location × Entry) :=
  (List.range l.length).map fun n => (l.take n, .directory)

def readEntry? (path : String) : IO (Option Entry) := do
  let real ← IO.FS.realPath path
  if ← real.isDir then return some .directory
  let bytes ← try IO.FS.readBinFile real catch _ => return none
  return some (.file (.bytes bytes.toList))

/-- All entries from a location on. Links lead to what they are read with; those
that lead nowhere are left out. -/
partial def readTree (l : Location) : IO (List (Location × Entry)) := do
  let real ← try IO.FS.realPath (pathAt l) catch _ => return []
  let target := location real.toString
  match ← readEntry? real.toString with
  | none => return []
  | some e =>
    if target != l then return (l, .link (some target)) :: ancestors target ++ [(target, e)]
    if e != .directory then return [(l, e)]
    let children ← try real.readDir catch _ => pure #[]
    let below ← children.toList.mapM fun c => readTree (l ++ [c.fileName])
    return (l, .directory) :: below.flatten

def namedLocation (start : FileSystem) (word : String) : IO Location := do
  try
    return location (← IO.FS.realPath word).toString
  catch _ => return (start.absolute (Path.ofString word)).parts

/-- The entries that a command line may need: those of the working directory, of the paths it names,
and the configuration files of the user. -/
def readFiles (here : Location) (home : Path) (words : List String) : IO FileSystem := do
  let start : FileSystem := { workingDirectory := here }
  let named ← words.mapM (namedLocation start)
  let personal := [".importlens.yaml", ".importlens.json"].map fun n => (home.child n).parts
  let outside := (named ++ personal).filter fun l => !(here.isPrefixOf l) && !(l.isPrefixOf here)
  let trees ← (here :: outside).mapM fun l => do return ancestors l ++ (← readTree l)
  return trees.flatten.foldl (fun fs (l, e) =>
    if l.isEmpty || (fs.entryAt? l).isSome then fs else fs.put l e) start

def cellList (w : Workbook) : String :=
  String.join (w.cells.map fun c =>
    let text := match c.content with
      | .string s => Text.quoted s
      | .number s => s
      | .boolean b => if b then "TRUE" else "FALSE"
      | .formula s => "=" ++ s
      | .blank => ""
    Workbook.cellName c.row c.column ++ "\t" ++ text ++ "\n")

def writeEntry (l : Location) : Entry → IO Unit
  | .directory => IO.FS.createDirAll (pathAt l)
  | .link _ => throw (IO.userError ("a link cannot be made: " ++ pathAt l))
  | .file (.bytes bs) => IO.FS.writeBinFile (pathAt l) ⟨bs.toArray⟩
  | .file (.workbook w) => IO.FS.writeFile (pathAt l) (cellList w)

def writeChanges (before after : FileSystem) : IO Unit := do
  for (l, e) in after.entries do
    if before.entryAt? l != some e then writeEntry l e
  for (l, e) in before.entries do
    if e != .directory && (after.entryAt? l).isNone then IO.FS.removeFile (pathAt l)

def readEnvironment : IO (List (String × String)) := do
  let found ← (Section.analysis.settings ++ Section.output.settings).mapM fun s => do
    return (← IO.getEnv s.variableName).map fun v => (s.variableName, v)
  return found.filterMap id

def program (words : List String) : IO UInt32 := do
  let here := location (← IO.currentDir).toString
  let home := Path.ofString ((← IO.getEnv "HOME").getD "/")
  let files ← readFiles here home words
  let time ← Std.Time.PlainDateTime.now
  let columns := ((← IO.getEnv "COLUMNS").bind String.toNat?).getD 80
  let world : World :=
    { files, home, environment := ← readEnvironment, timestamp := time.format "uuuuMMdd_HHmmss" }
  let (result, after) := CommandLine.run columns (fun _ => 0) words world
  writeChanges files after.files
  for e in after.logs do
    IO.eprintln (time.format "uuuu-MM-dd HH:mm:ss" ++ " - " ++ e.source ++ " - " ++ e.level.name
      ++ " - " ++ e.message)
  IO.print after.printed
  match result with
  | .ok exit =>
    IO.eprint (exit.errors.getD "")
    return exit.code.toUInt32
  | .error f =>
    IO.eprintln (f.kind.name ++ ": " ++ f.message)
    return 1

end ImportAudit.Main

def main (words : List String) : IO UInt32 :=
  ImportAudit.Main.program words
