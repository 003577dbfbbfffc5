import ImportAudit.Failure

/-!
# Writing JSON

Values are written over several lines with an indentation, or in one line. Characters beyond ASCII
are written as themselves or as escapes. Dates, bytes and sets have no form in JSON, and neither has
a value that contains itself, a mapping with a tuple as a key or a whole number with too many
digits. A text that is torn has a form in ASCII alone.
-/

namespace ImportAudit.Json

structure Style where
  /-- What one level of indentation is; none for all in one line. -/
  indent : Option String
  /-- Whether characters beyond ASCII are escaped. -/
  ascii : Bool

inductive WriteFault
  | value (typeName : String)
  | key (typeName : String)
  | longNumber
  | circle
  /-- Halves of surrogate pairs where the characters themselves are written. -/
  | torn (halves : List (Fin 0x800))
  deriving DecidableEq, Repr

def WriteFault.failure (written : String) : WriteFault → Failure
  | value t => .wrongType ("Object of type " ++ t ++ " is not JSON serializable")
  | key t => .wrongType ("keys must be str, int, float, bool or None, not " ++ t)
  | longNumber => Failure.longNumber
  | circle => .invalidValue "Circular reference detected"
  | torn halves => .unencodable ⟨written.length, halves⟩

def unicodeEscape (n : Nat) : List Char :=
  '\\' :: 'u' :: Text.hexDigits 4 n

def escapeChar (ascii : Bool) (c : Char) : List Char :=
  if c == '"' || c == '\\' then ['\\', c]
  else if c == '\n' then ['\\', 'n']
  else if c == '\r' then ['\\', 'r']
  else if c == '\t' then ['\\', 't']
  else if c.toNat == 8 then ['\\', 'b']
  else if c.toNat == 12 then ['\\', 'f']
  else if c.toNat < 0x20 then unicodeEscape c.toNat
  else if !ascii || c.toNat < 0x7f then [c]
  else if c.toNat < 0x10000 then unicodeEscape c.toNat
  else
    let n := c.toNat - 0x10000
    unicodeEscape (0xd800 + n / 0x400) ++ unicodeEscape (0xdc00 + n % 0x400)

def stringText (ascii : Bool) (s : String) : String :=
  String.ofList ('"' :: s.toList.flatMap (escapeChar ascii) ++ ['"'])

def floatText : Double → String
  | .nan => "NaN"
  | .infinity negative => if negative then "-Infinity" else "Infinity"
  | x => x.text

def intText (n : Int) : Except WriteFault String :=
  if Value.isLong (.int n) then .error .longNumber else .ok (toString n)

namespace Style

def newline (st : Style) (level : Nat) : String :=
  match st.indent with
  | none => ""
  | some unit => "\n" ++ String.join (List.replicate level unit)

def separator (st : Style) (level : Nat) : String :=
  match st.indent with
  | none => ", "
  | some _ => "," ++ st.newline level

end Style

/-- Text written so far together with the fault that ended it. -/
abbrev Writing := Except (String × WriteFault) String

namespace Writing

def after (start : String) (w : Writing) : Writing :=
  match w with
  | .ok s => .ok (start ++ s)
  | .error (s, f) => .error (start ++ s, f)

/-- An item of a list after what sets it off. A number that cannot be written
ends the text before that. -/
def setOff (mark : String) (v : Value) (w : Writing) : Writing :=
  if v.isLong then w else after mark w

def andThen (a b : Writing) : Writing :=
  match a with
  | .ok s => after s b
  | .error e => .error e

end Writing

open Writing

def tornText (ascii : Bool) (t : Text.Torn) : Writing :=
  if ascii then
    .ok (String.ofList ('"' :: t.points.flatMap escapePoint ++ ['"']))
  else
    .error (String.ofList ('"' :: t.start.flatMap (escapeChar false)), .torn t.halves)
where
  escapePoint : Text.Point → List Char
    | .char c => escapeChar true c
    | p => unicodeEscape p.toNat

def keyFault? : Value → Option WriteFault
  | .str _ | .torn _ | .null | .bool _ | .float _ => none
  | .int n => if Value.isLong (.int n) then some .longNumber else none
  | v => some (.key v.shortTypeName)

def keyText (ascii : Bool) : Value → Writing
  | .torn t => tornText ascii t
  | .null => .ok (stringText ascii "null")
  | .bool b => .ok (stringText ascii (if b then "true" else "false"))
  | .float x => .ok (stringText ascii (floatText x))
  | v => .ok (stringText ascii v.text)

mutual

def write (st : Style) (level : Nat) : Value → Writing
  | .null => .ok "null"
  | .bool b => .ok (if b then "true" else "false")
  | .int n => (intText n).mapError ("", ·)
  | .float x => .ok (floatText x)
  | .str s => .ok (stringText st.ascii s)
  | .torn t => tornText st.ascii t
  | .date .. => .error ("", .value "date")
  | .moment _ => .error ("", .value "datetime")
  | .bytes _ => .error ("", .value "bytes")
  | .list xs => writeList st level xs
  | .tuple xs => writeList st level xs
  | .set _ => .error ("", .value "set")
  | .map [] => .ok "\x7b\x7d"
  | .map (e :: es) =>
    andThen (after ("\x7b" ++ st.newline (level + 1)) (writeMember st (level + 1) e))
      (andThen (writeMembers st (level + 1) es) (.ok (st.newline level ++ "\x7d")))
  | .knot _ => .error ("", .circle)

def writeList (st : Style) (level : Nat) : List Value → Writing
  | [] => .ok "[]"
  | x :: xs =>
    andThen (setOff ("[" ++ st.newline (level + 1)) x (write st (level + 1) x))
      (andThen (writeItems st (level + 1) xs) (.ok (st.newline level ++ "]")))

def writeItems (st : Style) (level : Nat) : List Value → Writing
  | [] => .ok ""
  | x :: xs => andThen (setOff (st.separator level) x (write st level x)) (writeItems st level xs)

def writeMember (st : Style) (level : Nat) : Value × Value → Writing
  | (k, v) =>
    match keyFault? k with
    | some f => .error ("", f)
    | none => andThen (keyText st.ascii k) (after ": " (write st level v))

/-- The members after the first. A key without a name ends the text before the separator. -/
def writeMembers (st : Style) (level : Nat) : List (Value × Value) → Writing
  | [] => .ok ""
  | (k, v) :: es =>
    match keyFault? k with
    | some f => .error ("", f)
    | none =>
      andThen
        (after (st.separator level) (andThen (keyText st.ascii k) (after ": " (write st level v))))
        (writeMembers st level es)

end

def print (st : Style) (v : Value) : Writing := write st 0 v

/-- The text of a value in the characters themselves. Where it has no encoding that shows only once
it is written, after all other faults. -/
def printCharacters (indent : Option String) (v : Value) :
    Except Failure (Except Text.EncodeFault String) :=
  match print ⟨indent, true⟩ v with
  | .error (s, f) => .error (f.failure s)
  | .ok _ =>
    match print ⟨indent, false⟩ v with
    | .ok s => .ok (.ok s)
    | .error (s, .torn halves) => .ok (.error ⟨s.length, halves⟩)
    | .error (s, f) => .error (f.failure s)

end ImportAudit.Json
