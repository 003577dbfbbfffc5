import ImportAudit.Decimal.Double
import ImportAudit.Text.Blank
import ImportAudit.Text.Digit
import ImportAudit.Text.Lower

/-!
# Reading numbers that people write

Blanks around a number do not count, digits of any script do, and single
underscores may stand between digits.
-/

namespace ImportAudit.Decimal

/-- Blanks that may surround a number: all but the four separators of ASCII. -/
def isMargin (c : Char) : Bool :=
  Text.isBlank c && !(decide (0x1c ≤ c.toNat) && decide (c.toNat ≤ 0x1f))

def asciiDigits (cs : List Char) : List Char :=
  cs.map fun c => match Text.digitValue? c with
    | some d => Char.ofNat (0x30 + d)
    | none => c

/-- Drop the underscores; none may stand at an end or beside anything but a digit. -/
def dropUnderscores (cs : List Char) : Option (List Char) :=
  go false cs
where
  go (afterDigit : Bool) : List Char → Option (List Char)
    | [] => some []
    | '_' :: d :: cs => if afterDigit && d.isDigit then (go true cs).map (d :: ·) else none
    | '_' :: [] => none
    | c :: cs => (go c.isDigit cs).map (c :: ·)

/-- A sign and what follows it; `true` for a minus. -/
def takeSign : List Char → Bool × List Char
  | '-' :: cs => (true, cs)
  | '+' :: cs => (false, cs)
  | cs => (false, cs)

def digitsValue (ds : List Char) : Nat :=
  ds.foldl (fun n d => 10 * n + (d.toNat - 0x30)) 0

def maxDigits : Nat := 4300

def longMessage (digits : Nat) : String :=
  "Exceeds the limit (" ++ toString maxDigits ++
    " digits) for integer string conversion: value has "
    ++ toString digits ++ " digits; use sys.set_int_max_str_digits() to increase the limit"

def readInt (s : String) : Option Int :=
  let cs := asciiDigits (Text.trimList isMargin s.toList)
  (dropUnderscores cs).bind fun cs =>
    let (negative, ds) := takeSign cs
    if ds.isEmpty || !ds.all Char.isDigit || decide (maxDigits < ds.length) then none
    else
      let n : Int := digitsValue ds
      some (if negative then -n else n)

/-- Read an unsigned decimal: digits, a point and digits, and an exponent, of
which some may be missing. -/
def readPlain (negative : Bool) (cs : List Char) : Option Double :=
  let (whole, rest) := cs.span Char.isDigit
  let (fraction, rest) := match rest with
    | '.' :: rest => rest.span Char.isDigit
    | _ => ([], rest)
  let digits := digitsValue (whole ++ fraction)
  let shift : Int := -fraction.length
  if whole.isEmpty && fraction.isEmpty then none
  else
    match rest with
    | [] => some (Double.ofDecimal negative digits shift)
    | c :: rest =>
      if c == 'e' || c == 'E' then
        let (down, ds) := takeSign rest
        if ds.isEmpty || !ds.all Char.isDigit then none
        else
          let e : Int := digitsValue ds
          some (Double.ofDecimal negative digits (shift + if down then -e else e))
      else none

/-- Read a number with or without a fraction, an infinity, or the name of what is not a number. -/
def readDouble (s : String) : Option Double :=
  let cs := asciiDigits (Text.trimList isMargin s.toList)
  (dropUnderscores cs).bind fun cs =>
    let (negative, rest) := takeSign cs
    let name := String.ofList (rest.map Char.toLower)
    if name == "inf" || name == "infinity" then some (.infinity negative)
    else if name == "nan" then some .nan
    else readPlain negative rest

end ImportAudit.Decimal
