import ImportAudit.Json.Read
import ImportAudit.World
import ImportAudit.Yaml.Read

/-!
# Configuration files

A configuration file is YAML or JSON by the end of its name, and holds a mapping. A section without
anything in it counts as an empty one.
-/

namespace ImportAudit

def Text.endsIn (text ending : String) : Bool :=
  ending.toList.isSuffixOf text.toList

namespace FileSystem

/-- Whether a text can only be the path of a directory. -/
def namesDirectory (text : String) : Bool :=
  Text.endsIn text "/" || Text.endsIn text "/."

/-- The entry that a text leads to. Nothing is under an empty text, and a file is no directory. -/
def entryOfText (fs : FileSystem) (text : String) : Except FileFault Entry :=
  if text == "" then .error .notFound
  else
    match fs.entry (Path.ofString text) with
    | .error f => .error f
    | .ok (_, .directory) => .ok .directory
    | .ok (_, e) => if namesDirectory text then .error .notDirectory else .ok e

def readText (fs : FileSystem) (text : String) : Except FileFault Content :=
  match fs.entryOfText text with
  | .error f => .error f
  | .ok (.file _) => fs.read (Path.ofString text)
  | .ok _ => .error .isDirectory

def leadsToEntry (fs : FileSystem) (text : String) : Bool :=
  (fs.entryOfText text).toOption.isSome

end FileSystem

namespace Text

def normalBreaks : List Char → List Char
  | '\r' :: '\n' :: cs => '\n' :: normalBreaks cs
  | '\r' :: cs => '\n' :: normalBreaks cs
  | c :: cs => c :: normalBreaks cs
  | [] => []

end Text

inductive ConfigSyntax
  | json
  | yaml
  deriving DecidableEq, Repr

namespace ConfigFile

def syntaxOf (path : String) : ConfigSyntax :=
  if Text.endsIn path ".yaml" || Text.endsIn path ".yml" then .yaml else .json

/-- A fault of decoding. YAML is decoded piece by piece, and the position of a character that is cut
off counts from the piece that it starts. -/
def decodeFault (kind : ConfigSyntax) (f : Text.DecodeFault) : Failure :=
  .undecodable (if kind = .yaml ∧ f.reason = .unexpectedEnd then { f with position := 0 } else f)

/-- What a text of a syntax stands for. An empty YAML document counts as an empty mapping. -/
def parse (kind : ConfigSyntax) (text : String) : Except Failure Value :=
  match kind with
  | .json =>
    match Json.read text with
    | .ok v => .ok v
    | .error f =>
      match f.cause with
      | .longNumber _ => .error (.invalidValue (f.message text))
      | _ => .error (.configuration ("Invalid configuration file format: " ++ f.message text))
  | .yaml =>
    match Yaml.read text with
    | .ok v => .ok (if v.isTruthy then v else .map [])
    | .error (.malformed _) => .error (.configuration "Invalid configuration file format")
    | .error (.impossible f _) => .error f

def fillSection (entries : List (Value × Value)) (name : String) : List (Value × Value) :=
  match Value.lookup (.str name) entries with
  | some .null => Value.put (.str name) (.map []) entries
  | _ => entries

def documentOf (path : String) (bs : List UInt8) : Except Failure Value := do
  let kind := syntaxOf path
  let text ← (Text.decode .utf8 bs).mapError (decodeFault kind)
  parse kind (String.ofList (Text.normalBreaks text.toList))

def document (fs : FileSystem) (path : String) : Except Failure Value :=
  if !fs.leadsToEntry path then .error (.configuration ("Configuration file not found: " ++ path))
  else
    match fs.readText path with
    | .ok (.bytes bs) => documentOf path bs
    | .ok (.workbook _) => .error (.undecodable ⟨.utf8, 0, [], .invalidStart⟩)
    | .error f => .error (.configuration ("Error reading configuration file: " ++ f.message path))

def read (fs : FileSystem) (path : String) : Except Failure (List (Value × Value)) := do
  match ← document fs path with
  | .map es => return ["analysis", "output"].foldl fillSection es
  | _ => throw (.configuration ("Configuration file must contain a mapping: " ++ path))

/-- Where configuration files are looked for, in this order. -/
def defaultPaths (home : Path) : List String :=
  ["importlens.yaml", "importlens.yml", "importlens.json", ".importlens.yaml", ".importlens.yml",
    ".importlens.json", (home.child ".importlens.yaml").text, (home.child ".importlens.json").text]

def find? (fs : FileSystem) (paths : List String) : Option String :=
  paths.find? fs.leadsToEntry

end ConfigFile

end ImportAudit
