import ImportAudit.Calendar
import ImportAudit.Text.Lower
import ImportAudit.Yaml.Node

/-!
# Reading YAML

The value of a document: the tag of each node says what its text stands for. A mapping takes over
the entries of the mappings it merges, unless it has them itself. Collections are filled after all
at the same depth are there, so that of two faults the one that is less deep is found.
-/

namespace ImportAudit.Yaml

namespace Scalar

def withoutUnderscores (s : String) : String :=
  String.ofList (s.toList.filter (· != '_'))

def badNumber (base : Nat) (s : String) : Fault :=
  .impossible (.invalidValue ("invalid literal for int() with base " ++ toString base ++ ": "
    ++ Text.quoted s))

def dropBaseMark (base : Nat) : List Char → List Char
  | '0' :: c :: cs =>
    let mark := if base = 2 then 'b' else if base = 8 then 'o' else 'x'
    if c.toLower == mark then cs else '0' :: c :: cs
  | cs => cs

/-- A number in a base, with a sign and the mark of the base if they are there. -/
def inBase (base : Nat) (s : String) : Except Fault Int :=
  let cs := Decimal.asciiDigits (Text.trimList Decimal.isMargin s.toList)
  let (negative, cs) := Decimal.takeSign cs
  let digits := (dropBaseMark base cs).map fun c => (hexDigit? c).filter (· < base)
  let start := if digits.isEmpty then none else some 0
  match digits.foldl (fun n d => n.bind fun n => d.map fun d => base * n + d) start with
  | some n => .ok (if negative then -(n : Int) else n)
  | none => .error (badNumber base s)

def decimal (s : String) : Except Fault Int :=
  match Decimal.readInt s with
  | some n => .ok n
  | none =>
    let cs := Decimal.asciiDigits (Text.trimList Decimal.isMargin s.toList)
    let digits := (Decimal.takeSign cs).2
    if digits.all Char.isDigit && decide (Decimal.maxDigits < digits.length) then
      .error (.impossible (.invalidValue (Decimal.longMessage digits.length)))
    else .error (badNumber 10 s)

def splitSign (s : String) : Except Fault (Bool × String) :=
  match s.toList with
  | [] => .error (.impossible (.reported (.other "IndexError") "string index out of range"))
  | '-' :: cs => .ok (true, String.ofList cs)
  | '+' :: cs => .ok (false, String.ofList cs)
  | _ => .ok (false, s)

def int (text : String) : Except Fault Int := do
  let (negative, s) ← splitSign (withoutUnderscores text)
  let n ← match s.toList with
    | ['0'] => pure 0
    | '0' :: 'b' :: cs => inBase 2 (String.ofList cs)
    | '0' :: 'x' :: cs => inBase 16 (String.ofList cs)
    | '0' :: _ => inBase 8 s
    | [] => .error (.impossible (.reported (.other "IndexError") "string index out of range"))
    | cs =>
      if cs.contains ':' then
        (Text.splitAt ':' s).foldlM (fun n part => do return 60 * n + (← decimal part)) 0
      else decimal s
  return if negative then -n else n

def plainFloat (s : String) : Except Fault Double :=
  match Decimal.readDouble s with
  | some x => .ok x
  | none =>
    .error (.impossible (.invalidValue ("could not convert string to float: " ++ Text.quoted s)))

/-- The most groups of sixty: the power of sixty for one more is no number. -/
def maxGroups : Nat := 174

/-- A number with a decimal point, or in groups of sixty of which the last is added first. -/
def float (text : String) : Except Fault Double := do
  let (negative, s) ← splitSign (Text.lower (withoutUnderscores text))
  let x ← if s == ".inf" then pure (Double.infinity false)
    else if s == ".nan" then return .nan
    else if s.toList.contains ':' then do
      let parts ← (Text.splitAt ':' s).mapM plainFloat
      if maxGroups < parts.length then
        .error (.impossible (.overflow "int too large to convert to float"))
      let (total, _) := parts.reverse.foldl
        (fun (total, base) part =>
          (Double.add total (Double.mul part (Double.ofInt base)), base * 60)) (Double.zero, 1)
      pure total
    else plainFloat s
  return if negative then x.neg else x

def bool (text : String) : Except Fault Bool :=
  let s := Text.lower text
  if ["yes", "true", "on"].contains s then .ok true
  else if ["no", "false", "off"].contains s then .ok false
  else .error (.impossible (.missingKey s))

def timestamp (text : String) : Except Fault Value :=
  let refuse (m : String) : Except Fault Value := .error (.impossible (.invalidValue m))
  match timestamp? false (withoutFeed text) with
  | none => .error (.impossible (.noAttribute "'NoneType' object has no attribute 'groupdict'"))
  | some (.inl (y, m, d)) =>
    match Calendar.dateFault? y m d with
    | some f => refuse f
    | none => .ok (.date y m d)
  | some (.inr t) =>
    match t.offset.bind Calendar.offsetFault?, Calendar.dateFault? t.year t.month t.day,
      Calendar.timeFault? t.hour t.minute t.second with
    | some f, _, _ => refuse f
    | none, some f, _ => refuse f
    | none, none, some f => refuse f
    | none, none, none => .ok (.moment t)

def sixBits? (c : Char) : Option Nat :=
  if 'A' ≤ c ∧ c ≤ 'Z' then some (c.toNat - 'A'.toNat)
  else if 'a' ≤ c ∧ c ≤ 'z' then some (c.toNat - 'a'.toNat + 26)
  else if c.isDigit then some (c.toNat - '0'.toNat + 52)
  else if c == '+' then some 62
  else if c == '/' then some 63
  else none

/-- The bytes of an encoding in base 64. Characters without a meaning are passed over, and the text
ends where its last group is filled up. -/
def bytes : List Char → Nat → Nat → Nat → Option (List UInt8)
  | [], 0, _, _ => some []
  | [], _ + 1, _, _ => none
  | c :: cs, position, left, pads =>
    if c == '=' then
      if 2 ≤ position then if 4 ≤ position + pads + 1 then some []
      else bytes cs position left (pads + 1)
      else bytes cs position left pads
    else
      match sixBits? c with
      | none => bytes cs position left pads
      | some b =>
        let out (n : Nat) : UInt8 := UInt8.ofNat n
        match position with
        | 0 => bytes cs 1 b 0
        | 1 => (bytes cs 2 (b % 16) 0).map (out (left * 4 + b / 16) :: ·)
        | 2 => (bytes cs 3 (b % 4) 0).map (out (left * 16 + b / 4) :: ·)
        | _ => (bytes cs 0 0 0).map (out (left * 64 + b) :: ·)

def binary (text : String) : Except Fault Value :=
  if text.toList.any fun c => 0x7f < c.toNat then .error (.malformed "bytes beyond ASCII")
  else
    match bytes text.toList 0 0 0 with
    | some bs => .ok (.bytes bs)
    | none => .error (.malformed "bytes that are cut off")

def value (tag text : String) : Except Fault Value :=
  if tag == standard "str" then .ok (.str text)
  else if tag == standard "null" then .ok .null
  else if tag == standard "bool" then (bool text).map .bool
  else if tag == standard "int" then (int text).map .int
  else if tag == standard "float" then (float text).map .float
  else if tag == standard "timestamp" then timestamp text
  else if tag == standard "binary" then binary text
  else .error (.malformed "an unknown tag")

def tornValue (tag : String) (t : Text.Torn) : Except Fault Value :=
  if tag == standard "str" then .ok (.torn t)
  else if tag == standard "null" then .ok .null
  else if tag == standard "bool" then .error (.impossible (.reported .key t.quoted))
  else if tag == standard "int" then
    .error (.impossible (.invalidValue ("invalid literal for int() with base 10: " ++ t.quoted)))
  else if tag == standard "float" then
    .error (.impossible (.invalidValue ("could not convert string to float: " ++ t.quoted)))
  else if tag == standard "timestamp" then
    .error (.impossible (.noAttribute "'NoneType' object has no attribute 'groupdict'"))
  else if tag == standard "binary" then .error (.malformed "bytes beyond ASCII")
  else .error (.malformed "an unknown tag")

def tags : List String :=
  ["str", "null", "bool", "int", "float", "timestamp", "binary"].map standard

end Scalar

/-! ## Faults at a depth -/

/-- A result, or a fault and how deep it is. -/
abbrev Found (α : Type) := Except (Nat × Fault) α

namespace Found

variable {α β : Type}

/-- Two results. Of two faults the one that is less deep is found, or else the first. -/
def both : Found α → Found β → Found (α × β)
  | .ok a, .ok b => .ok (a, b)
  | .ok _, .error e => .error e
  | .error e, .ok _ => .error e
  | .error d, .error e => .error (if e.1 < d.1 then e else d)

def atDepth (depth : Nat) (x : Except Fault α) : Found α :=
  x.mapError (depth, ·)

def malformed (depth : Nat) (what : String) : Found α :=
  .error (depth, .malformed what)

end Found

open Found

namespace Node

def tag : Node → String
  | scalar tag _ => tag
  | torn tag _ => tag
  | sequence tag _ => tag
  | mapping tag _ => tag
  | loop _ => ""
  | knot n => n.tag

def isMerge (n : Node) : Bool :=
  n.tag == standard "merge"

/-- Whether a key is the mark before the text that a mapping stands for. As any
other key it is a text. -/
def isValueMark (n : Node) : Bool :=
  n.tag == standard "value"

def collectionTags : List String :=
  ["seq", "omap", "pairs", "map", "set"].map standard

def isKey : Node → Bool
  | scalar .. => true
  | torn .. => true
  | mapping tag _ => !collectionTags.contains tag
  | _ => false

def isMapping : Node → Bool
  | mapping .. => true
  | knot n => n.isMapping
  | _ => false

/-! ### Mappings that stand for texts -/

mutual

/-- The text of a node. That of a mapping is under the value mark. -/
def text : Node → Except Fault (String ⊕ Text.Torn)
  | scalar _ s => .ok (.inl s)
  | torn _ t => .ok (.inr t)
  | mapping _ entries => markedText entries
  | knot (mapping tag _) =>
    -- The value marks of a mapping are gone once its entries are gone through.
    if tag == standard "map" || tag == standard "set" then
      .error (.malformed "a text that is a collection")
    else .error (.impossible Failure.endless)
  | _ => .error (.malformed "a text that is a collection")

def markedText : List (Node × Node) → Except Fault (String ⊕ Text.Torn)
  | [] => .error (.malformed "a text that is a collection")
  | (k, v) :: es => if isValueMark k then text v else markedText es

end

def textValue (tag : String) (n : Node) : Except Fault Value := do
  match ← text n with
  | .inl s => Scalar.value tag s
  | .inr t => Scalar.tornValue tag t

def markedValue (tag : String) (entries : List (Node × Node)) : Except Fault Value :=
  if !Scalar.tags.contains tag then .error (.malformed "an unknown tag")
  else if tag == standard "timestamp" then do
    let _ ← markedText entries
    .error (.impossible (.wrongType "expected string or bytes-like object, got 'list'"))
  else textValue tag (mapping tag entries)

/-! ### Merged mappings -/

mutual

def mergesFit : List (Node × Node) → Bool
  | [] => true
  | (k, v) :: es => (!isMerge k || isSource v) && mergesFit es

/-- Whether a node can be merged: a mapping, or a sequence of mappings. -/
def isSource : Node → Bool
  | mapping _ entries => mergesFit entries
  | sequence _ items => areSources items
  | knot n => isSource n
  | _ => false

def areSources : List Node → Bool
  | [] => true
  | n :: ns => isMapping n && isSource n && areSources ns

end

/-! ### Values -/

/-- How deep the value of a text is found. The tag of a collection shows one level
further down that it does not fit. -/
def textDepth (depth : Nat) (tag : String) : Nat :=
  if collectionTags.contains tag then depth + 1 else depth

/-- Entries that are taken over, and then those of the mapping itself. -/
def joined (taken own : Found (List (Value × Value))) : Found (List (Value × Value)) :=
  (both taken own).map fun (taken, own) => taken ++ own

mutual

def toValue (depth : Nat) : Node → Found Value
  | scalar tag s => atDepth (textDepth depth tag) (Scalar.value tag s)
  | torn tag t => atDepth (textDepth depth tag) (Scalar.tornValue tag t)
  | sequence tag items =>
    if tag == standard "seq" then (itemValues (depth + 1) items).map .list
    else if tag == standard "omap" || tag == standard "pairs" then
      (pairValues (depth + 1) items).map .list
    else if collectionTags.contains tag then malformed (depth + 1) "a mapping that is a sequence"
    else malformed depth "an unknown tag"
  | mapping tag entries =>
    if tag == standard "map" || tag == standard "set" then
      if mergesFit entries then
        (joined (takenOver (depth + 1) entries) (ownValues (depth + 1) entries)).map fun es =>
          let es := Value.ofEntries es
          if tag == standard "map" then .map es else .set (es.map Prod.fst)
      else malformed (depth + 1) "a merge of what is no mapping"
    else if collectionTags.contains tag then malformed (depth + 1) "a sequence that is a mapping"
    else atDepth depth (markedValue tag entries)
  | knot n => (toValue depth n).map fun _ => .knot n.isMapping
  | loop _ => malformed depth "an anchor that is not there"

def itemValues (depth : Nat) : List Node → Found (List Value)
  | [] => .ok []
  | n :: ns => (both (toValue depth n) (itemValues depth ns)).map fun (v, vs) => v :: vs

def pairValues (depth : Nat) : List Node → Found (List Value)
  | [] => .ok []
  | n :: ns => (both (pairValue depth n) (pairValues depth ns)).map fun (v, vs) => v :: vs

def pairValue (depth : Nat) : Node → Found Value
  | mapping _ [(k, v)] =>
    (both (toValue depth k) (toValue depth v)).map fun (key, value) => .tuple [key, value]
  | knot (mapping _ []) => .ok (.tuple [.knot true, .knot true])
  | knot n => (pairValue depth n).map fun _ => .tuple [.knot true, .knot true]
  | _ => malformed depth "a pair that is no mapping of one entry"

def takenOver (depth : Nat) : List (Node × Node) → Found (List (Value × Value))
  | [] => .ok []
  | (k, v) :: es =>
    if isMerge k then joined (sourceValues depth v) (takenOver depth es) else takenOver depth es

/-- The entries of a mapping that is merged, or of a sequence of mappings of
which the first wins. -/
def sourceValues (depth : Nat) : Node → Found (List (Value × Value))
  | mapping _ entries => joined (takenOver depth entries) (ownValues depth entries)
  | sequence _ items => sourcesValues depth items
  | knot n => sourceValues depth n
  | _ => .ok []

def sourcesValues (depth : Nat) : List Node → Found (List (Value × Value))
  | [] => .ok []
  | n :: ns => joined (sourcesValues depth ns) (sourceValues depth n)

def ownValues (depth : Nat) : List (Node × Node) → Found (List (Value × Value))
  | [] => .ok []
  | (k, v) :: es =>
    if isMerge k then ownValues depth es
    else
      let key :=
        if isValueMark k then atDepth depth (textValue (standard "str") k) else toValue depth k
      let checked := if isKey k then .ok () else malformed depth "a key that is a collection"
      (both (both (both key checked) (toValue depth v)) (ownValues depth es)).map
        fun (((key, _), value), es) => (key, value) :: es

end

end Node

/-- The value of the one document of a text; an empty text has nothing as its value. Where the
tokens break off, a fault in the document before that place counts. -/
def read (text : String) : Except Fault Value := do
  let ts := match tokens text with
    | .ok ts => ts
    | .error (ts, f) => ts ++ [.broken f]
  match ← Node.ofTokens ts with
  | none => return .null
  | some n => (n.toValue 0).mapError Prod.snd

end ImportAudit.Yaml
