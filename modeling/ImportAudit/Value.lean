import ImportAudit.Calendar
import ImportAudit.Decimal.Layout
import ImportAudit.Decimal.Read
import ImportAudit.Text.Torn

/-!
# Values of configuration data

What a configuration file can hold: nothing, truth values, numbers, texts, dates, bytes, and
collections: lists, tuples, sets and mappings. A mapping keeps its entries, and a set its items, in
the order in which they were first written. A collection may contain itself.
-/

namespace ImportAudit

structure Moment where
  year : Nat
  month : Nat
  day : Nat
  hour : Nat := 0
  minute : Nat := 0
  second : Nat := 0
  microsecond : Nat := 0
  /-- Minutes that the local time is ahead, where that is known. -/
  offset : Option Int := none
  deriving DecidableEq, Repr, Inhabited

/-- A point in time in microseconds, without its offset where that is known. -/
def Moment.instant (m : Moment) : Int :=
  let minutes : Int :=
    ((Calendar.dayNumber m.year m.month m.day : Int) * 24 + m.hour) * 60 + m.minute -
      m.offset.getD 0
  (minutes * 60 + m.second) * 1000000 + m.microsecond

inductive Value
  | null
  | bool (b : Bool)
  | int (n : Int)
  | float (x : Double)
  | str (s : String)
  /-- A text that has no encoding. -/
  | torn (t : Text.Torn)
  | date (year month day : Nat)
  | moment (m : Moment)
  | bytes (bs : List UInt8)
  | list (items : List Value)
  | tuple (items : List Value)
  | set (items : List Value)
  | map (entries : List (Value × Value))
  /-- A list or mapping in the place of one of its own parts. -/
  | knot (isMap : Bool)
  deriving Repr, Inhabited

namespace Value

/-- The text of points, which is torn if there is a half among them. -/
def ofPoints (ps : List Text.Point) : Value :=
  match h : Text.whole? ps with
  | some s => str s
  | none => torn ⟨ps, h⟩

def typeName : Value → String
  | null => "NoneType"
  | bool _ => "bool"
  | int _ => "int"
  | float _ => "float"
  | str _ => "str"
  | torn _ => "str"
  | date .. => "datetime.date"
  | moment _ => "datetime.datetime"
  | bytes _ => "bytes"
  | list _ => "list"
  | tuple _ => "tuple"
  | set _ => "set"
  | map _ => "dict"
  | knot isMap => if isMap then "dict" else "list"

def shortTypeName : Value → String
  | date .. => "date"
  | moment _ => "datetime"
  | v => v.typeName

/-- Whether a value counts as given: it is not nothing, false, zero or empty. -/
def isTruthy : Value → Bool
  | null => false
  | bool b => b
  | int n => n != 0
  | float x => !x.isZero
  | str s => s != ""
  | torn _ => true
  | date .. => true
  | moment _ => true
  | bytes bs => !bs.isEmpty
  | list xs => !xs.isEmpty
  | tuple xs => !xs.isEmpty
  | set xs => !xs.isEmpty
  | map es => !es.isEmpty
  | knot _ => true

/-- The number that a value is; a truth value counts as one or zero. -/
inductive Number
  | whole (n : Int)
  | real (x : Double)

def number? : Value → Option Number
  | bool b => some (.whole (if b then 1 else 0))
  | int n => some (.whole n)
  | float x => some (.real x)
  | _ => none

/-- Whether two numbers are equal, or one and the same although it is not a number. -/
def Number.eq : Number → Number → Bool
  | .whole a, .whole b => a == b
  | .whole a, .real y => exact a y
  | .real x, .whole b => exact b x
  | .real x, .real y => x == y || Double.eq x y
where
  exact (n : Int) : Double → Bool
    | .finite negative m e =>
      let (p, q) := Double.quotient m e
      decide ((if negative then -(p : Int) else p) = n * q)
    | _ => false

mutual

/-- Whether two values are equal. Numbers of different types are equal if their values are, and
points in time with known offsets if they are the same instant. -/
def same : Value → Value → Bool
  | null, null => true
  | str s, str t => s == t
  | torn s, torn t => s == t
  | date y m d, date y' m' d' => y == y' && m == m' && d == d'
  | moment a, moment b => a.offset.isSome == b.offset.isSome && a.instant == b.instant
  | bytes a, bytes b => a == b
  | list xs, list ys => sameAll xs ys
  | tuple xs, tuple ys => sameAll xs ys
  | set xs, set ys => xs.length == ys.length && (itemsBeyond xs ys).isEmpty
  | map es, map fs => es.length == fs.length && (entriesBeyond es fs).isEmpty
  | knot a, knot b => a == b
  | bool a, bool b => a == b
  | bool a, int n => n == (if a then 1 else 0)
  | int n, bool a => n == (if a then 1 else 0)
  | int m, int n => m == n
  | a, b =>
    match a.number?, b.number? with
    | some x, some y => x.eq y
    | _, _ => false
termination_by structural _ v => v

def sameAll : List Value → List Value → Bool
  | [], [] => true
  | x :: xs, y :: ys => same x y && sameAll xs ys
  | _, _ => false
termination_by structural _ ys => ys

def itemsBeyond : List Value → List Value → List Value
  | xs, [] => xs
  | xs, y :: ys => itemsBeyond (xs.filter fun x => !same x y) ys
termination_by structural _ ys => ys

def entriesBeyond : List (Value × Value) → List (Value × Value) → List (Value × Value)
  | es, [] => es
  | es, (k, v) :: fs => entriesBeyond (es.filter fun e => !(same e.1 k && same e.2 v)) fs
termination_by structural _ fs => fs

end

mutual

/-- The first part of a value that keeps it from being a key or an item of a set. -/
def unhashable? : Value → Option Value
  | list xs => some (list xs)
  | tuple xs => unhashableIn? xs
  | set xs => some (set xs)
  | map es => some (map es)
  | knot isMap => some (knot isMap)
  | _ => none

def unhashableIn? : List Value → Option Value
  | [] => none
  | x :: xs => (unhashable? x).or (unhashableIn? xs)

end

def isHashable (v : Value) : Bool :=
  v.unhashable?.isNone

def lookup (key : Value) (entries : List (Value × Value)) : Option Value :=
  (entries.find? fun e => same e.1 key).map (·.2)

/-- Put a value under a key: a key that is there keeps its place, a new one comes last. -/
def put (key value : Value) : List (Value × Value) → List (Value × Value)
  | [] => [(key, value)]
  | e :: es => if same e.1 key then (e.1, value) :: es else e :: put key value es

def ofEntries (entries : List (Value × Value)) : List (Value × Value) :=
  entries.foldl (fun m e => put e.1 e.2 m) []

def get? (v : Value) (key : String) : Option Value :=
  match v with
  | map es => lookup (str key) es
  | _ => none

/-! ## The text of a value -/

mutual

/-- Whether every whole number in a value has few enough digits to be written. -/
def isWritable : Value → Bool
  | int n => decide (n.natAbs < Nat.pow 10 Decimal.maxDigits)
  | list xs => allWritable xs
  | tuple xs => allWritable xs
  | set xs => allWritable xs
  | map es => entriesWritable es
  | _ => true

def allWritable : List Value → Bool
  | [] => true
  | x :: xs => isWritable x && allWritable xs

def entriesWritable : List (Value × Value) → Bool
  | [] => true
  | (k, v) :: es => isWritable k && isWritable v && entriesWritable es

end

mutual

def isEndless : Value → Bool
  | list xs => anyEndless xs
  | tuple xs => anyEndless xs
  | map es => entriesEndless es
  | knot _ => true
  | _ => false

def anyEndless : List Value → Bool
  | [] => false
  | x :: xs => isEndless x || anyEndless xs

def entriesEndless : List (Value × Value) → Bool
  | [] => false
  | (_, v) :: es => isEndless v || entriesEndless es

end

def isLong : Value → Bool
  | int n => !isWritable (int n)
  | _ => false

def padded (width n : Nat) : String :=
  let ds := Nat.toDigits 10 n
  String.ofList (List.replicate (width - ds.length) '0' ++ ds)

def dateText (year month day : Nat) : String :=
  padded 4 year ++ "-" ++ padded 2 month ++ "-" ++ padded 2 day

def momentText (mark : String) (m : Moment) : String :=
  dateText m.year m.month m.day ++ mark ++ padded 2 m.hour ++ ":" ++ padded 2 m.minute ++ ":" ++
    padded 2 m.second
    ++ (if m.microsecond = 0 then "" else "." ++ padded 6 m.microsecond)
    ++ match m.offset with
      | none => ""
      | some o =>
        (if o < 0 then "-" else "+") ++ padded 2 (o.natAbs / 60) ++ ":" ++ padded 2 (o.natAbs % 60)

def offsetShown (offset : Int) : String :=
  if offset = 0 then "datetime.timezone.utc"
  else
    let seconds := offset * 60
    "datetime.timezone(datetime.timedelta("
      ++ (if seconds < 0 then "days=-1, seconds=" ++ toString (seconds + 86400) else "seconds=" ++
        toString seconds) ++ "))"

/-- How a point in time is shown: seconds only if there are any. -/
def momentShown (m : Moment) : String :=
  let clock := [m.hour, m.minute]
    ++ (if m.second = 0 ∧ m.microsecond = 0 then [] else [m.second])
    ++ (if m.microsecond = 0 then [] else [m.microsecond])
  "datetime.datetime(" ++ ", ".intercalate (([m.year, m.month, m.day] ++ clock).map toString)
    ++ (match m.offset with
      | none => ""
      | some o => ", tzinfo=" ++ offsetShown o) ++ ")"

def quoteByte (quote : Char) (b : UInt8) : List Char :=
  let c := Char.ofNat b.toNat
  if c == quote || c == '\\' then ['\\', c]
  else if c == '\n' then ['\\', 'n']
  else if c == '\r' then ['\\', 'r']
  else if c == '\t' then ['\\', 't']
  else if 0x20 ≤ b.toNat ∧ b.toNat < 0x7f then [c]
  else '\\' :: 'x' :: Text.hexDigits 2 b.toNat

def quotedBytes (bs : List UInt8) : String :=
  let q := Text.quoteMark (bs.map fun b => Char.ofNat b.toNat)
  String.ofList ('b' :: q :: bs.flatMap (quoteByte q) ++ [q])

mutual

/-- The text of a value inside a list or a mapping, and of a value that is quoted. -/
def shown : Value → String
  | null => "None"
  | bool b => if b then "True" else "False"
  | int n => toString n
  | float x => x.text
  | str s => Text.quoted s
  | torn t => t.quoted
  | date y m d =>
    "datetime.date(" ++ toString y ++ ", " ++ toString m ++ ", " ++ toString d ++ ")"
  | moment m => momentShown m
  | bytes bs => quotedBytes bs
  | list xs => "[" ++ shownAll xs ++ "]"
  | tuple xs => "(" ++ shownAll xs ++ (if xs.length = 1 then ",)" else ")")
  | set [] => "set()"
  | set (x :: xs) => "\x7b" ++ shownAll (x :: xs) ++ "\x7d"
  | map es => "\x7b" ++ shownEntries es ++ "\x7d"
  | knot isMap => if isMap then "\x7b...\x7d" else "[...]"

def shownAll : List Value → String
  | [] => ""
  | [x] => shown x
  | x :: xs => shown x ++ ", " ++ shownAll xs

def shownEntries : List (Value × Value) → String
  | [] => ""
  | [e] => shownEntry e
  | e :: es => shownEntry e ++ ", " ++ shownEntries es

def shownEntry : Value × Value → String
  | (k, v) => shown k ++ ": " ++ shown v

end

/-- The text of a value that stands alone: a text is itself and a date is written as one. -/
def text : Value → String
  | str s => s
  | date y m d => dateText y m d
  | moment m => momentText " " m
  | v => shown v

end Value

end ImportAudit
