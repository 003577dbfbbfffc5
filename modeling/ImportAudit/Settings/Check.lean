import ImportAudit.Settings
import ImportAudit.Text.Blank

/-!
# The check of a configuration

The check looks at the settings that a configuration has and reports the first that is not admitted.
-/

namespace ImportAudit

namespace Value

/-- Whether a value is a number above zero. A number that is not comparable to zero passes. -/
def isPositive (v : Value) : Bool :=
  match v.number? with
  | some (.whole n) => decide (0 < n)
  | some (.real x) => !Double.le x Double.zero
  | none => false

def isPositiveWhole (v : Value) : Bool :=
  match v.number? with
  | some (.whole n) => decide (0 < n)
  | _ => false

def isMap : Value → Bool
  | map _ => true
  | _ => false

def isList : Value → Bool
  | list _ => true
  | _ => false

/-- Whether a value is a text with something in it once dots and then blanks are
taken off its ends. -/
def isExtension : Value → Bool
  | str s => Text.trim (Text.trimWith (· == '.') s) != ""
  | torn _ => true
  | _ => false

/-- What stands under a text key, for a value of any type. A text has the keys that occur in it and
a list the keys that are in it, but neither gives the value of one. -/
def member? (v : Value) (key : String) : Except Failure (Option Value) :=
  match v with
  | map es => .ok (lookup (str key) es)
  | str s =>
    if (s.splitOn key).length == 1 then .ok none
    else .error (.wrongType "string indices must be integers, not 'str'")
  | list xs =>
    if xs.any (same (str key)) then
      .error (.wrongType "list indices must be integers or slices, not str")
    else .ok none
  | torn t =>
    let wanted := key.toList.map Text.Point.char
    if (List.range (t.points.length + 1)).any fun n => wanted.isPrefixOf (t.points.drop n) then
      .error (.wrongType "string indices must be integers, not 'str'")
    else .ok none
  | tuple xs =>
    if xs.any (same (str key)) then
      .error (.wrongType "tuple indices must be integers or slices, not str")
    else .ok none
  | set xs =>
    if xs.any (same (str key)) then .error (.wrongType "'set' object is not subscriptable")
    else .ok none
  | bytes _ => .error (.wrongType "a bytes-like object is required, not 'str'")
  | v => .error (.wrongType ("argument of type '" ++ v.typeName ++ "' is not iterable"))

end Value

namespace Settings

def formats : List String := ["xlsx", "json"]

def fault? (s : Setting) (v : Value) : Option Failure :=
  match s with
  | .extensions =>
    match v with
    | .list (x :: xs) =>
      if (x :: xs).all Value.isExtension then none
      else some (.configuration "extensions must contain non-empty strings")
    | _ => some (.configuration "extensions must be a non-empty list")
  | .excludedDirectories =>
    if v.isList then none else some (.configuration "exclude_dirs must be a list")
  | .workers =>
    match v with
    | .null => none
    | v =>
      if v.isPositiveWhole then none
      else some (.configuration "max_workers must be a positive integer")
  | .timeout =>
    match v with
    | .null => none
    | v =>
      if v.isPositive then none
      else some (.configuration "parse_timeout must be a positive number of seconds")
  | .format =>
    if formats.any fun f => Value.same (.str f) v then none
    else some (.configuration ("format must be one of: " ++ (Value.list (formats.map .str)).shown))
  | .directory =>
    match v with
    | .torn _ => none
    | v =>
      match v.textOrFailure with
      | .ok text =>
        if Text.trim text == "" then some (.configuration "directory must not be empty") else none
      | .error f => some f
  | .title => none

/-- The settings that are checked in a section, in this order. -/
def checked : Section → List Setting
  | .analysis => [.extensions, .excludedDirectories, .workers, .timeout]
  | .output => [.format, .directory]

def checkSetting (entries : List (Value × Value)) (s : Setting) : Except Failure Unit :=
  match (Value.lookup (.str s.name) entries).bind (fault? s) with
  | some f => .error f
  | none => .ok ()

def checkSection (part : Section) (entries : List (Value × Value)) : Except Failure Unit :=
  (checked part).forM (checkSetting entries)

def checkShape (data : Value) (part : Section) : Except Failure Unit := do
  match ← data.member? part.name with
  | some v => if !v.isMap then throw (.configuration (part.name ++ " must be a mapping"))
  | none => pure ()

def checkPart (data : Value) (part : Section) : Except Failure Unit :=
  match data.get? part.name with
  | some (.map es) => checkSection part es
  | _ => .ok ()

def checkData (data : Value) : Except Failure Unit := do
  [Section.analysis, .output].forM (checkShape data)
  [Section.analysis, .output].forM (checkPart data)

def check (c : Settings) : Except Failure Unit := do
  checkData (← c.complete)

end Settings

end ImportAudit
