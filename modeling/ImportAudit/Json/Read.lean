import ImportAudit.Value
import ImportAudit.Decimal.Read

/-!
# Reading JSON

A strict reader that also takes the three names of numbers that are not finite. A key that is
repeated keeps its place and takes its last value. An escape may name half of a surrogate pair that
stands alone. A fault is known by its cause and by how much text is left where it was found.
-/

namespace ImportAudit.Json

inductive Cause
  | expectingValue
  | expectingName
  | expectingColon
  | expectingComma
  | unterminatedString
  | controlCharacter
  | badEscape
  | badUnicodeEscape
  | extraData
  | byteOrderMark
  | longNumber (digits : Nat)
  deriving DecidableEq, Repr

/-- A cause, and the number of characters from the place of the fault to the end. -/
structure Fault where
  cause : Cause
  left : Nat
  deriving DecidableEq, Repr

abbrev Reading (α : Type) := Except Fault (α × List Char)

def fault {α : Type} (cause : Cause) (at_ : List Char) : Except Fault α :=
  .error ⟨cause, at_.length⟩

def isSpace (c : Char) : Bool :=
  c == ' ' || c == '\t' || c == '\n' || c == '\r'

def skipSpace (cs : List Char) : List Char := cs.dropWhile isSpace

/-! ## Strings -/

def hexValue? (c : Char) : Option Nat :=
  if c.isDigit then some (c.toNat - 0x30)
  else if 'a' ≤ c ∧ c ≤ 'f' then some (c.toNat - 0x61 + 10)
  else if 'A' ≤ c ∧ c ≤ 'F' then some (c.toNat - 0x41 + 10)
  else none

def hexValue4? (a b c d : Char) : Option Nat := do
  let a ← hexValue? a
  let b ← hexValue? b
  let c ← hexValue? c
  let d ← hexValue? d
  return ((a * 16 + b) * 16 + c) * 16 + d

def simpleEscape? : Char → Option Char
  | '"' => some '"'
  | '\\' => some '\\'
  | '/' => some '/'
  | 'b' => some (Char.ofNat 8)
  | 'f' => some (Char.ofNat 12)
  | 'n' => some '\n'
  | 'r' => some '\r'
  | 't' => some '\t'
  | _ => none

def isHighSurrogate (n : Nat) : Bool := decide (0xd800 ≤ n) && decide (n ≤ 0xdbff)

def isLowSurrogate (n : Nat) : Bool := decide (0xdc00 ≤ n) && decide (n ≤ 0xdfff)

/-- The body of a string, of which `start` is the text from the opening quote on, and the characters
after its closing quote. -/
def readString (start : List Char) :
    Nat → List Text.Point → List Char → Reading (List Text.Point)
  | 0, _, _ => fault .unterminatedString start
  | _ + 1, _, [] => fault .unterminatedString start
  | fuel + 1, built, c :: cs =>
    if c == '"' then .ok (built.reverse, cs)
    else if c != '\\' then
      if c.toNat < 0x20 then fault .controlCharacter (c :: cs)
      else readString start fuel (.char c :: built) cs
    else
      match cs with
      | [] => fault .unterminatedString start
      | 'u' :: rest =>
        match rest with
        | a :: b :: d :: e :: after :: more =>
          match hexValue4? a b d e with
          | none => fault .badUnicodeEscape cs
          | some n =>
            match isHighSurrogate n, after :: more with
            | true, '\\' :: 'u' :: p :: q :: r :: s :: t :: tail =>
              match hexValue4? p q r s with
              | none => fault .badUnicodeEscape ('u' :: p :: q :: r :: s :: t :: tail)
              | some low =>
                if isLowSurrogate low then
                  let code := 0x10000 + (n - 0xd800) * 0x400 + (low - 0xdc00)
                  readString start fuel (.ofNat code :: built) (t :: tail)
                else readString start fuel (.ofNat n :: built) (after :: more)
            | _, _ => readString start fuel (.ofNat n :: built) (after :: more)
        | _ => fault .badUnicodeEscape cs
      | e :: rest =>
        match simpleEscape? e with
        | some d => readString start fuel (.char d :: built) rest
        | none => fault .badEscape (c :: cs)

/-! ## Numbers -/

def takeMinus : List Char → Bool × List Char
  | '-' :: cs => (true, cs)
  | cs => (false, cs)

/-- The digits before the point, and what follows them. A zero in front stands alone. -/
def takeWhole : List Char → List Char × List Char
  | '0' :: cs => (['0'], cs)
  | cs => cs.span Char.isDigit

def takeFraction : List Char → List Char × List Char
  | '.' :: cs => if (cs.span Char.isDigit).1.isEmpty then ([], '.' :: cs) else cs.span Char.isDigit
  | cs => ([], cs)

def takeExponent : List Char → Option Int × List Char
  | [] => (none, [])
  | c :: cs =>
    let (down, body) := Decimal.takeSign cs
    let (ds, rest) := body.span Char.isDigit
    if (c == 'e' || c == 'E') && !ds.isEmpty then
      let e : Int := Decimal.digitsValue ds
      (some (if down then -e else e), rest)
    else (none, c :: cs)

/-- The value of the parts of a number; none for a whole number with too many digits. -/
def numberValue? (negative : Bool) (whole fraction : List Char) (exponent : Option Int) :
    Option Value :=
  if fraction.isEmpty && exponent.isNone then
    let n : Int := Decimal.digitsValue whole
    if Decimal.maxDigits < whole.length then none else some (.int (if negative then -n else n))
  else
    let power : Int := exponent.getD 0 - fraction.length
    some (.float (Double.ofDecimal negative (Decimal.digitsValue (whole ++ fraction)) power))

def readNumber (cs : List Char) : Option (Reading Value) :=
  let (negative, rest) := takeMinus cs
  let (whole, rest) := takeWhole rest
  if whole.isEmpty then none
  else
    let (fraction, rest) := takeFraction rest
    let (exponent, rest) := takeExponent rest
    match numberValue? negative whole fraction exponent with
    | some v => some (.ok (v, rest))
    | none => some (fault (.longNumber whole.length) cs)

def names : List (String × Value) :=
  [("null", .null), ("true", .bool true), ("false", .bool false), ("NaN", .float .nan),
    ("Infinity", .float (.infinity false)), ("-Infinity", .float (.infinity true))]

def readAtom (cs : List Char) : Reading Value :=
  match names.find? fun n => n.1.toList.isPrefixOf cs with
  | some (name, v) => .ok (v, cs.drop name.length)
  | none => (readNumber cs).getD (fault .expectingValue cs)

/-! ## Values -/

mutual

def readValue : Nat → List Char → Reading Value
  | 0, cs => fault .expectingValue cs
  | fuel + 1, cs =>
    match cs with
    | '"' :: rest =>
      (readString cs cs.length [] rest).map fun (points, rest) => (.ofPoints points, rest)
    | '[' :: rest =>
      match skipSpace rest with
      | ']' :: rest => .ok (.list [], rest)
      | rest => (readItems fuel [] rest).map fun (xs, rest) => (.list xs, rest)
    | '\x7b' :: rest =>
      match skipSpace rest with
      | '\x7d' :: rest => .ok (.map [], rest)
      | rest => (readMembers fuel [] rest).map fun (es, rest) => (.map (Value.ofEntries es), rest)
    | _ => readAtom cs

/-- The items of a list from a value on, and what follows the closing bracket; `built`
are those before, last first. -/
def readItems : Nat → List Value → List Char → Reading (List Value)
  | 0, _, cs => fault .expectingValue cs
  | fuel + 1, built, cs =>
    match readValue fuel cs with
    | .error f => .error f
    | .ok (v, rest) =>
      match skipSpace rest with
      | ']' :: rest => .ok ((v :: built).reverse, rest)
      | ',' :: rest => readItems fuel (v :: built) (skipSpace rest)
      | rest => fault .expectingComma rest

def readMembers : Nat → List (Value × Value) → List Char → Reading (List (Value × Value))
  | 0, _, cs => fault .expectingName cs
  | fuel + 1, built, cs =>
    match cs with
    | '"' :: rest =>
      match readString cs cs.length [] rest with
      | .error f => .error f
      | .ok (name, rest) =>
        match skipSpace rest with
        | ':' :: rest =>
          match readValue fuel (skipSpace rest) with
          | .error f => .error f
          | .ok (v, rest) =>
            let built := (.ofPoints name, v) :: built
            match skipSpace rest with
            | '\x7d' :: rest => .ok (built.reverse, rest)
            | ',' :: rest => readMembers fuel built (skipSpace rest)
            | rest => fault .expectingComma rest
        | rest => fault .expectingColon rest
    | _ => fault .expectingName cs

end

def read (source : String) : Except Fault Value :=
  let cs := source.toList
  if cs.head? == some (Char.ofNat 0xfeff) then fault .byteOrderMark cs
  else
    -- A value is nested no deeper than the text is long, and each step of a list or a mapping takes
    -- a character.
    match readValue (2 * cs.length + 2) (skipSpace cs) with
    | .error f => .error f
    | .ok (v, rest) =>
      match skipSpace rest with
      | [] => .ok v
      | rest => fault .extraData rest

/-! ## Messages -/

def Cause.text : Cause → String
  | expectingValue => "Expecting value"
  | expectingName => "Expecting property name enclosed in double quotes"
  | expectingColon => "Expecting ':' delimiter"
  | expectingComma => "Expecting ',' delimiter"
  | unterminatedString => "Unterminated string starting at"
  | controlCharacter => "Invalid control character at"
  | badEscape => "Invalid \\escape"
  | badUnicodeEscape => "Invalid \\uXXXX escape"
  | extraData => "Extra data"
  | byteOrderMark => "Unexpected UTF-8 BOM (decode using utf-8-sig)"
  | longNumber n => Decimal.longMessage n

/-- What went wrong and where: the line, the column and the offset, of which
only the last counts from zero. -/
def Fault.message (source : String) (f : Fault) : String :=
  let cs := source.toList
  let offset := cs.length - f.left
  let before := cs.take offset
  let line := before.count '\n' + 1
  let column := (before.reverse.takeWhile (· != '\n')).length + 1
  match f.cause with
  | .longNumber _ => f.cause.text
  | _ =>
    f.cause.text ++ ": line " ++ toString line ++ " column " ++ toString column ++ " (char " ++
      toString offset
      ++ ")"

end ImportAudit.Json
