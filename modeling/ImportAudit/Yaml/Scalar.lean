import ImportAudit.Decimal.Read
import ImportAudit.Yaml.Token

/-!
# What plain texts stand for

A text without quotes and without a tag stands for a value of the first kind whose form it has.
-/

namespace ImportAudit.Yaml

def standard (name : String) : String :=
  "tag:yaml.org,2002:" ++ name

namespace Scalar

def isDigitOrUnderscore (c : Char) : Bool :=
  c.isDigit || c == '_'

def dropSign : List Char → List Char
  | '+' :: cs => cs
  | '-' :: cs => cs
  | cs => cs

def isBool (s : String) : Bool :=
  ["yes", "Yes", "YES", "no", "No", "NO", "true", "True", "TRUE", "false", "False", "FALSE", "on",
    "On", "ON", "off", "Off", "OFF"].contains s

def isNull (s : String) : Bool :=
  ["", "~", "null", "Null", "NULL"].contains s

def isExponent : List Char → Bool
  | [] => true
  | e :: sign :: cs => (e == 'e' || e == 'E') && (sign == '+' || sign == '-') && !cs.isEmpty &&
    cs.all Char.isDigit
  | _ => false

/-- Groups of minutes or seconds, each after a colon; gives what is left after
as many as there are. -/
def sixties : Nat → List Char → Option (List Char)
  | 0, cs => some cs
  | fuel + 1, ':' :: a :: b :: cs =>
    if decide ('0' ≤ a) && decide (a ≤ '5') && b.isDigit then more fuel cs
    else if a.isDigit then more fuel (b :: cs)
    else none
  | fuel + 1, ':' :: a :: [] => if a.isDigit then more fuel [] else none
  | _ + 1, _ => none
where
  more (fuel : Nat) (cs : List Char) : Option (List Char) :=
    match cs with
    | ':' :: _ => sixties fuel cs
    | _ => some cs

def afterSixties (cs : List Char) : Option (List Char) :=
  let rest := cs.dropWhile isDigitOrUnderscore
  sixties rest.length rest

def isFloat (s : String) : Bool :=
  let cs := s.toList
  let unsigned := dropSign cs
  let fraction (cs : List Char) : Bool := isExponent (cs.dropWhile isDigitOrUnderscore)
  (match unsigned with
    | d :: _ =>
      d.isDigit &&
        (match unsigned.dropWhile isDigitOrUnderscore with
          | '.' :: rest => fraction rest
          | _ => false)
    | [] => false)
  || (match cs with
    | '.' :: d :: rest => d.isDigit && fraction rest
    | _ => false)
  || (match unsigned with
    | d :: _ =>
      d.isDigit &&
        (match afterSixties unsigned with
          | some ('.' :: rest) => rest.all isDigitOrUnderscore
          | _ => false)
    | [] => false)
  || [".inf", ".Inf", ".INF"].contains (String.ofList unsigned)
  || [".nan", ".NaN", ".NAN"].contains s

def isInt (s : String) : Bool :=
  let isBinary (c : Char) : Bool := c == '0' || c == '1' || c == '_'
  let isOctal (c : Char) : Bool := (decide ('0' ≤ c) && decide (c ≤ '7')) || c == '_'
  let isHex (c : Char) : Bool :=
    isDigitOrUnderscore c || (decide ('a' ≤ c) && decide (c ≤ 'f')) ||
      (decide ('A' ≤ c) && decide (c ≤ 'F'))
  match dropSign s.toList with
  | ['0'] => true
  | '0' :: 'b' :: cs => !cs.isEmpty && cs.all isBinary
  | '0' :: 'x' :: cs => !cs.isEmpty && cs.all isHex
  | '0' :: cs => cs.all isOctal
  | d :: cs =>
    d.isDigit && (cs.all isDigitOrUnderscore || afterSixties (d :: cs) == some [])
  | [] => false

/-! ## Dates -/

def shortNumber (exactlyTwo : Bool) : List Char → Option (Nat × List Char)
  | a :: b :: cs =>
    let digit (c : Char) : Nat := c.toNat - '0'.toNat
    if !a.isDigit then none
    else if b.isDigit then some (10 * digit a + digit b, cs)
    else if exactlyTwo then none
    else some (digit a, b :: cs)
  | [a] => if a.isDigit && !exactlyTwo then some (a.toNat - '0'.toNat, []) else none
  | [] => none

def expect (c : Char) : List Char → Option (List Char)
  | d :: cs => if d == c then some cs else none
  | [] => none

def isSpace (c : Char) : Bool :=
  c == ' ' || c == '\t'

def offset? (cs : List Char) : Option (Option Int) :=
  match cs.dropWhile isSpace with
  | [] => if cs.isEmpty then some none else none
  | ['Z'] => some (some 0)
  | sign :: rest =>
    if !(sign == '+' || sign == '-') then none
    else do
      let (hours, rest) ← shortNumber false rest
      let minutes ← match rest with
        | [] => some 0
        | rest =>
          match ← shortNumber true (← expect ':' rest) with
          | (m, []) => some m
          | _ => none
      let total : Int := hours * 60 + minutes
      some (some (if sign == '-' then -total else total))

def time? (cs : List Char) : Option (Nat × Nat × Nat × Nat × Option Int) := do
  let (hour, rest) ← shortNumber false cs
  let (minute, rest) ← shortNumber true (← expect ':' rest)
  let (second, rest) ← shortNumber true (← expect ':' rest)
  let (micro, rest) := match rest with
    | '.' :: rest =>
      let ds := (rest.takeWhile Char.isDigit).take 6
      let padded := ds ++ List.replicate (6 - ds.length) '0'
      (padded.foldl (fun n d => 10 * n + (d.toNat - '0'.toNat)) 0, rest.dropWhile Char.isDigit)
    | rest => (0, rest)
  return (hour, minute, second, micro, ← offset? rest)

/-- The parts of a date or of a point in time. Months and days alone have two
digits if they have to. -/
def timestamp? (twoDigitDates : Bool) (s : String) : Option (Sum (Nat × Nat × Nat) Moment) := do
  let cs := s.toList
  let yearDigits := cs.take 4
  if yearDigits.length ≠ 4 ∨ !yearDigits.all Char.isDigit then none
  let year := yearDigits.foldl (fun n d => 10 * n + (d.toNat - '0'.toNat)) 0
  let rest ← expect '-' (cs.drop 4)
  let (month, afterMonth) ← shortNumber false rest
  let (day, afterDay) ← shortNumber false (← expect '-' afterMonth)
  match afterDay with
  | [] =>
    -- A date alone.
    if twoDigitDates ∧ cs.length ≠ 10 then none else some (.inl (year, month, day))
  | c :: rest =>
    let rest ← if c == 'T' || c == 't' then some rest
      else if isSpace c then some (rest.dropWhile isSpace)
      else none
    let (hour, minute, second, microsecond, offset) ← time? rest
    some (.inr { year, month, day, hour, minute, second, microsecond, offset })

/-! ## The kind of a text -/

/-- A text without a line feed at its end, which does not count, unless there is nothing else. -/
def withoutFeed (s : String) : String :=
  let cs := s.toList
  if cs.length ≠ 1 ∧ cs.getLast? = some '\n' then String.ofList cs.dropLast else s

def implicitTag (s : String) : String :=
  if isBool s then standard "bool"
  else if isFloat s then standard "float"
  else if isInt s then standard "int"
  else if s == "<<" then standard "merge"
  else if isNull s then standard "null"
  else if (timestamp? true s).isSome then standard "timestamp"
  else if s == "=" then standard "value"
  else standard "str"

end Scalar

end ImportAudit.Yaml
