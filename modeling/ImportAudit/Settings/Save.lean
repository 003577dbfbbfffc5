import ImportAudit.Json.Print
import ImportAudit.Settings.File
import ImportAudit.Settings
import ImportAudit.Yaml.Print

/-!
# Writing settings

Settings are written to a file as JSON or YAML, and as a summary to read.
-/

namespace ImportAudit

namespace FileSystem

def writeText (fs : FileSystem) (text : String) (c : Content) : Except FileFault FileSystem :=
  if text == "" then .error .notFound
  else
    let p := Path.ofString text
    if Text.endsIn text "/" then
      match fs.locate p with
      | .error f => .error f
      | .ok l =>
        match fs.entryAt? l.dropLast with
        | some .directory => .error .isDirectory
        | some _ => .error .notDirectory
        | none => .error .notFound
    else if namesDirectory text then
      match fs.entry p with
      | .error f => .error f
      | .ok (_, .directory) => .error .isDirectory
      | .ok _ => .error .notDirectory
    else fs.write p c

end FileSystem

namespace Settings

/-- The text of a configuration, or what was written of it before the fault. -/
def render (data : Value) (kind : ConfigSyntax) : Json.Writing :=
  match kind with
  | .yaml => if data.isWritable then .ok (Yaml.print data) else .error ("", .longNumber)
  | .json => Json.print ⟨some "  ", true⟩ data

def syntaxOfFormat (format : String) : ConfigSyntax :=
  if Text.lower format == "yaml" then .yaml else .json

/-- Save settings. What was written before a fault stays in the file. -/
def save (c : Settings) (path : String) (kind : ConfigSyntax) : Action Unit := do
  let write (text : String) : Action Unit :=
    Action.changeFiles (fun f => if f = .nullCharacter then .file f path
        else .configuration ("Error saving configuration file: " ++ f.message path))
      (·.writeText path (.bytes (Text.encodeUtf8 text)))
  match render (← Action.ofExcept c.complete) kind with
  | .ok text => write text
  | .error (text, f) =>
    write text
    throw (f.failure text)

/-! ## The summary -/

def points (s : String) : List Text.Point :=
  s.toList.map .char

def shownPoints : Value → Except Failure (List Text.Point)
  | .torn t => .ok t.points
  | v => v.textOrFailure.map points

def joined (v : Value) : Except Failure (List Text.Point) := do
  let items ← match v.items with
    | .ok xs => pure xs
    | .error _ => throw (.wrongType "can only join an iterable")
  let texts ← items.zipIdx.mapM fun (x, i) =>
    match x with
    | .str s => Except.ok (points s)
    | .torn t => .ok t.points
    | x =>
      .error (.wrongType ("sequence item " ++ toString i ++ ": expected str instance, "
        ++ x.typeName ++ " found"))
  return (points ", ").intercalate texts

def count (v : Value) : Except Failure Nat :=
  match v.items with
  | .ok xs => .ok xs.length
  | .error _ => .error (.wrongType ("object of type '" ++ v.typeName ++ "' has no len()"))

def summary (c : Settings) : Except Failure Value := do
  c.require .extensions
  let extensions ← joined c.analysis.extensions
  c.require .excludedDirectories
  let excluded ← count c.analysis.excludedDirectories
  let workers ←
    if c.analysis.workers.isTruthy then shownPoints c.analysis.workers else pure (points "auto")
  let timeout ←
    if c.analysis.timeout.isTruthy then (· ++ points "s") <$> shownPoints c.analysis.timeout
    else pure (points "none")
  let directory ← shownPoints c.output.directory
  let title ← shownPoints c.output.title
  let format ← shownPoints c.output.format
  let lines :=
    [points "importlens Configuration Summary:",
      points "Analysis:",
      points "  - Extensions: " ++ extensions,
      points ("  - Excluded directories: " ++ toString excluded ++ " directories"),
      points "  - Max workers: " ++ workers,
      points "  - Parse timeout: " ++ timeout,
      [],
      points "Output:",
      points "  - Directory: " ++ directory,
      points "  - Title: " ++ title,
      points "  - Format: " ++ format,
      []]
  return .ofPoints ((points "\n").intercalate lines)

end Settings

end ImportAudit
