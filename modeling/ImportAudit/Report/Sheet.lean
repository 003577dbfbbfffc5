import ImportAudit.Calendar
import ImportAudit.Decimal.Read
import ImportAudit.Failure
import ImportAudit.Report.Workbook
import ImportAudit.Table

/-!
# The sheet of a report

The first row holds the title, the second the columns, and each further row one line of the report.
A title over more than one column is written by what it looks like: a formula, a link, a number or a
text. All other cells are texts.
-/

namespace ImportAudit

namespace Sheet

def maxText : Nat := 32767

def maxLink : Nat := 2079

def maxRows : Nat := 1048576

def maxColumns : Nat := 16384

def cut (s : String) : String :=
  if maxText < s.length then String.ofList (s.toList.take maxText) else s

/-- The number of a day in a sheet. Day 1 is the first of January 1900, a year that
sheets take for a leap year. -/
def sheetDay (year month day : Nat) : Int :=
  let n : Int := (Calendar.dayNumber year month day : Int) - Calendar.dayNumber 1899 12 31
  if 59 < n then n + 1 else n

def sheetTime (m : Moment) : Double :=
  let micros := ((m.hour * 60 + m.minute) * 60 + m.second) * 1000000 + m.microsecond
  let whole : Int := (Calendar.dayNumber m.year m.month m.day : Int) - Calendar.dayNumber 1899 12 31
  let whole := if whole = 0 then -1 else whole
  let perDay : Int := 86400 * 1000000
  let exact : Int := whole * perDay + micros
  let exact := if 59 * perDay < exact then exact + perDay else exact
  Double.ofQuotient (decide (exact < 0)) exact.natAbs perDay.natAbs

def dropStart? (start s : String) : Option String :=
  if start.toList.isPrefixOf s.toList then
    some (String.ofList (s.toList.drop start.length))
  else none

def linkText? (s : String) : Option String :=
  if ["http://", "https://", "ftp://", "ftps://"].any fun p => (dropStart? p s).isSome then some s
  else
    match dropStart? "mailto:" s, dropStart? "internal:" s, dropStart? "external:" s with
    | some t, _, _ => some t
    | _, some t, _ => some t
    | _, _, some t => some (t.map fun c => if c == '/' then '\\' else c)
    | _, _, _ => none

/-- The formula that a text is, if it is one: it starts with an equals sign,
inside braces or not. -/
def formula? (s : String) : Option String :=
  match s.toList with
  | '=' :: cs => some (String.ofList (cs.dropWhile (· == '=')))
  | '\x7b' :: '=' :: cs =>
    if cs.getLast? = some '\x7d' then some (String.ofList cs.dropLast) else none
  | _ => none

def linkFits (s : String) : Bool :=
  let (before, after) := s.toList.span (· != '#')
  decide (before.length ≤ maxLink) && decide (after.length - 1 ≤ maxLink)

/-- What a text becomes in a cell that is written by what it looks like, and whether it is a link. A
link that is too long is left out. -/
def typedText (s : String) : Option (CellContent × Bool) :=
  if s == "" then some (.blank, false)
  else
    match formula? s with
    | some f => some (.formula f, false)
    | none =>
      match linkText? s with
      | some t => if linkFits s then some (.string (cut t), true) else none
      | none => some (.string (cut s), false)

def bytesPattern : Failure :=
  .wrongType "cannot use a string pattern on a bytes-like object"

def number : Double → Except Failure CellContent
  | .finite negative m e => .ok (.number (Double.finite negative m e).generalText)
  | _ =>
    .error (.wrongType
      "NAN/INF not supported in write_number() without 'nan_inf_to_errors' Workbook() option")

/-- A number by its text in bytes. Any other bytes are no text when the workbook is written. -/
def bytesNumber (bs : List UInt8) : Except Failure CellContent :=
  let text := String.ofList (bs.map fun b => Char.ofNat b.toNat)
  match if bs.all (· < 0x80) then Decimal.readDouble text else none with
  | some x => number x
  | none => .error bytesPattern

/-- The part of a text with half a surrogate pair that a cell keeps, if there is none in it. -/
def tornText (t : Text.Torn) : Except Failure String :=
  match Text.whole? (t.points.take maxText) with
  | some s => .ok s
  | none => .error (.unencodable t.fault)

def typedTitle (title : Value) : Except Failure (Option (CellContent × Bool)) :=
  let plain (c : CellContent) : Option (CellContent × Bool) := some (c, false)
  match title with
  | .null => .ok (plain .blank)
  | .bool b => .ok (plain (.boolean b))
  | .int n =>
    match Double.ofInt n with
    | .infinity _ => .error (.overflow "int too large to convert to float")
    | x => (number x).map plain
  | .float x => (number x).map plain
  | .str s => .ok (typedText s)
  | .torn t =>
    match typedText t.mended with
    | some (.string _, false) => (tornText t).map fun s => plain (.string s)
    | some _ => .error (.unencodable t.fault)
    | none => .ok none
  | .bytes bs => (bytesNumber bs).map plain
  | .date y m d => (number (Double.ofInt (sheetDay y m d))).map plain
  | .moment m =>
    if m.offset.isSome then
      .error (.wrongType ("Excel doesn't support timezones in datetimes. Set the tzinfo in the "
        ++ "datetime/time object to None or use the 'remove_timezone' Workbook() option"))
    else (number (sheetTime m)).map plain
  | v => .error (.wrongType ("Unsupported type <class '" ++ v.shortTypeName ++ "'> in write()"))

def text : Value → Except Failure String
  | .str s => .ok (cut s)
  | .torn t => tornText t
  | .bytes _ => .error bytesPattern
  | v =>
    match v.unhashable? with
    | some part => .error (.wrongType ("unhashable type: '" ++ part.typeName ++ "'"))
    | none =>
      match v with
      | .tuple _ => .error (.wrongType "expected string or bytes-like object, got 'tuple'")
      | v => .error (.wrongType ("object of type '" ++ v.typeName ++ "' has no len()"))

/-- A cell that only holds a text. Beyond the last row and the last column nothing is written. -/
def textCell (row column : Nat) (style : CellStyle) (v : Value) : Except Failure (Option Cell) :=
  if row < maxRows ∧ column < maxColumns then (text v).map fun s =>
    some ⟨row, column, .string s, style⟩ else .ok none

/-- The cells of the first row, and the links among them. A title over more columns
than a sheet has is left out. -/
def titleCells (title : Value) (columns : Nat) : Except Failure (List Cell × List (Nat × Nat)) :=
  if maxColumns < columns then return ([], [])
  else if 1 < columns then do
    let first ← typedTitle title
    let rest := (List.range (columns - 1)).map fun i => Cell.mk 0 (i + 1) .blank .title
    match first with
    | none => return (rest, [])
    | some (content, isLink) =>
      return (⟨0, 0, content, .title⟩ :: rest, if isLink then [(0, 0)] else [])
  else do
    return ([⟨0, 0, .string (← text title), .title⟩], [])

/-- A cell of the report. Lines are wrapped if there is more than one. -/
def dataCell (row column : Nat) : Value → Except Failure (Option Cell)
  | .str s => textCell row column (if s.toList.contains '\n' then .wrapped else .plain) (.str s)
  | .torn t =>
    let wraps := t.points.contains (.char '\n')
    textCell row column (if wraps then .wrapped else .plain) (.torn t)
  | .bytes _ => .error (.wrongType "a bytes-like object is required, not 'str'")
  | .list xs => textCell row column .plain (.list xs)
  | .tuple xs => textCell row column .plain (.tuple xs)
  | .set xs => textCell row column .plain (.set xs)
  | .map es => textCell row column .plain (.map es)
  | v => .error (.wrongType ("argument of type '" ++ v.typeName ++ "' is not iterable"))

def headerCells (columns : List String) : Except Failure (List Cell) := do
  return (← columns.zipIdx.mapM fun c => textCell 1 c.2 .plain (.str c.1)).filterMap id

def rowCells (columns : List String) (row : Nat) (r : Row) : Except Failure (List Cell) := do
  return (← columns.zipIdx.mapM fun c => dataCell row c.2 (r.shown c.1)).filterMap id

def workbook (title : Value) (rows : List Row) : Except Failure Workbook := do
  let columns := Table.unionColumns rows
  let first ← titleCells title columns.length
  let header ← headerCells columns
  let data ← rows.zipIdx.mapM fun r => rowCells columns (r.2 + 2) r.1
  return { sheet := "result"
           cells := first.1 ++ header ++ data.flatten
           mergedColumns :=
             if 1 < columns.length ∧ columns.length ≤ maxColumns then some columns.length else none
           links := first.2 }

end Sheet

end ImportAudit
