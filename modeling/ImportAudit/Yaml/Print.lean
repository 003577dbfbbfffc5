import ImportAudit.Yaml.Scalar
import ImportAudit.Yaml.Cursor

/-!
# Writing YAML

A value is written as blocks, the entries of a mapping in the order of their keys; a set is a
mapping to nothing, and a tuple a list with a tag of its own. A text is written plainly if it would
be read back as itself, else in single quotes, or in double quotes if it has characters that need an
escape. Long texts are broken at spaces.
-/

namespace ImportAudit.Yaml

/-! ## The form of a text -/

structure Traits where
  isEmpty : Bool
  hasBreaks : Bool
  plain : Bool
  single : Bool
  block : Bool

def isWrittenBreak (c : Char) : Bool :=
  c == '\n' || c.toNat == 0x85 || c.toNat == 0x2028 || c.toNat == 0x2029

def isSpecial (c : Char) : Bool :=
  !(c == '\n' || (decide (' ' ≤ c) && decide (c ≤ '~')))

def opensMark (c : Char) (alone : Bool) : Bool :=
  "#,[]\x7b\x7d&*!|>'\"%@`".toList.contains c || (alone && (c == '?' || c == ':' || c == '-'))

/-- Whether a character inside a text has a meaning: a colon before a blank, a
number sign after one. -/
def innerMark (c : Char) (afterBlank alone : Bool) : Bool :=
  (c == ':' && alone) || (c == '#' && afterBlank)

def hasInnerMark : Char → List Char → Bool
  | _, [] => false
  | before, c :: cs =>
    innerMark c (endsWord before) (match cs with
      | [] => true
      | d :: _ => endsWord d) || hasInnerMark c cs

def hasPair (p q : Char → Bool) : List Char → Bool
  | a :: b :: cs => (p a && q b) || hasPair p q (b :: cs)
  | _ => false

def traits (s : String) : Traits :=
  match s.toList with
  | [] => { isEmpty := true, hasBreaks := false, plain := true, single := true, block := false }
  | c :: cs =>
    let text := c :: cs
    let alone := match cs with
      | [] => true
      | d :: _ => endsWord d
    let separator := ["---".toList, "...".toList].any fun m => m.isPrefixOf text
    let marks := separator || opensMark c alone || hasInnerMark c cs
    let isSpace (c : Char) : Bool := c == ' '
    let last := text.getLast?.getD ' '
    let breaks := text.any isWrittenBreak
    let outer := isSpace c || isWrittenBreak c || isSpace last || isWrittenBreak last
    let spaceAfterBreak := hasPair isWrittenBreak isSpace text
    let escaped := text.any isSpecial || hasPair isSpace isWrittenBreak text
    { isEmpty := false
      hasBreaks := breaks
      plain := !outer && !spaceAfterBreak && !escaped && !breaks && !marks
      single := !spaceAfterBreak && !escaped
      block := !isSpace last && !escaped }

/-! ## The page -/

structure Page where
  text : String := ""
  column : Nat := 0
  afterBlank : Bool := true
  /-- Whether the line has only indentation and marks so far. -/
  onlyIndented : Bool := true

namespace Page

def width : Nat := 80

def put (p : Page) (cs : List Char) : Page :=
  { p with text := p.text ++ String.ofList cs, column := p.column + cs.length }

def mark (p : Page) (m : String) (spaced afterBlank keepsIndent : Bool) : Page :=
  let cs := if p.afterBlank || !spaced then m.toList else ' ' :: m.toList
  { p.put cs with afterBlank, onlyIndented := p.onlyIndented && keepsIndent }

def endLine (p : Page) (mark : Char) : Page :=
  { text := p.text.push mark, column := 0, afterBlank := true, onlyIndented := true }

/-- Go to an indentation, on a new line unless there is nothing but indentation on this one. -/
def indent (p : Page) (n : Nat) : Page :=
  let p := if !p.onlyIndented || decide (n < p.column) ||
    (p.column == n && !p.afterBlank) then p.endLine '\n' else p
  if p.column < n then { p.put (List.replicate (n - p.column) ' ') with afterBlank := true } else p

def midLine (p : Page) : Page :=
  { p with afterBlank := false, onlyIndented := false }

end Page

/-! ## Texts -/

/-- Write a plain text. A single space past the width becomes a line break. -/
def writePlain (split : Bool) (indent : Nat) (s : String) (p : Page) : Page :=
  if s == "" then p
  else go s.toList [] false (if p.afterBlank then p else p.put [' ']).midLine
where
  /-- `run` is a run of spaces or of other characters that is not written yet. -/
  go : List Char → List Char → Bool → Page → Page
    | [], run, _, p => p.put run
    | c :: cs, run, spaces, p =>
      if (c == ' ') == spaces then go cs (run ++ [c]) spaces p
      else
        let p := if spaces && run.length = 1 && split &&
          decide (Page.width < p.column) then (p.indent indent).midLine
          else p.put run
        go cs [c] (c == ' ') p

inductive Run
  | word
  | spaces
  | breaks
  deriving DecidableEq

def runOf (c : Char) : Run :=
  if c == ' ' then .spaces else if isWrittenBreak c then .breaks else .word

/-- Write a text in single quotes. A quote is written twice, and a line break as
an empty line more. -/
def writeSingle (split : Bool) (indent : Nat) (s : String) (p : Page) : Page :=
  let p := p.mark "'" true false false
  (go s.toList [] .word true p).mark "'" false false false
where
  flush (run : List Char) (kind : Run) (first last : Bool) (p : Page) : Page :=
    match kind with
    | .word => p.put run
    | .spaces =>
      if run.length = 1 && decide (Page.width < p.column) && split && !first &&
        !last then p.indent indent else p.put run
    | .breaks =>
      let p := if run.head? = some '\n' then p.endLine '\n' else p
      (run.foldl Page.endLine p).indent indent
  /-- `first` tells whether the run that is not written yet starts the text. -/
  go : List Char → List Char → Run → Bool → Page → Page
    | [], run, kind, first, p => flush run kind first true p
    | c :: cs, run, kind, first, p =>
      if c == '\'' then go cs [] .word false ((flush run kind first false p).put ['\'', '\''])
      else if runOf c = kind then go cs (run ++ [c]) kind first p
      else go cs [c] (runOf c) (first && run.isEmpty) (flush run kind first false p)

def writtenEscapes : List (Nat × Char) :=
  [(0, '0'), (7, 'a'), (8, 'b'), (9, 't'), (10, 'n'), (11, 'v'), (12, 'f'), (13, 'r'), (27, 'e'),
    (34, '"'), (92, '\\'), (0x85, 'N'), (0xa0, '_'), (0x2028, 'L'), (0x2029, 'P')]

def upperHex (width n : Nat) : List Char :=
  (Text.hexDigits width n).map Char.toUpper

def writtenEscape? (c : Char) : Option (List Char) :=
  let n := c.toNat
  match writtenEscapes.lookup n with
  | some letter => some ['\\', letter]
  | none =>
    if ' ' ≤ c ∧ c ≤ '~' then none
    else if n ≤ 0xff then some ('\\' :: 'x' :: upperHex 2 n)
    else if n ≤ 0xffff then some ('\\' :: 'u' :: upperHex 4 n)
    else some ('\\' :: 'U' :: upperHex 8 n)

def writtenPoint : Text.Point → List Char ⊕ Char
  | .char c =>
    match writtenEscape? c with
    | some e => .inl e
    | none => .inr c
  | p => .inl ('\\' :: 'u' :: upperHex 4 p.toNat)

/-- Write a text in double quotes. A line past the width is broken after a backslash. -/
def writeDouble (split : Bool) (indent : Nat) (ps : List Text.Point) (p : Page) : Page :=
  (go ps.length ps [] 0 (p.mark "\"" true false false)).mark "\"" false false false
where
  breakLine (next : Option Text.Point) (run : List Char) (p : Page) : Page :=
    let p := ((p.put (run ++ ['\\'])).indent indent).midLine
    if next = some (.char ' ') then p.put ['\\'] else p
  /-- `run` holds characters that are not written yet, `i` counts those before. -/
  go (length : Nat) : List Text.Point → List Char → Nat → Page → Page
    | [], run, _, p => p.put run
    | point :: ps, run, i, p =>
      let mayBreak := split && decide (0 < i) && decide (i + 1 < length)
      match writtenPoint point with
      | .inl e =>
        let p := (p.put run).put e
        go length ps [] (i + 1)
          (if mayBreak && decide (Page.width + 1 < p.column) then breakLine ps.head? [] p else p)
      | .inr c =>
        if mayBreak && (c == ' ' || run.isEmpty) && decide (Page.width < p.column + run.length) then
          go length ps [c] (i + 1) (breakLine (some (.char c)) run p)
        else go length ps (run ++ [c]) (i + 1) p

def writeLines (indent : Nat) (s : String) (p : Page) : Page :=
  let cs := s.toList
  let hint := match cs with
    | [] => ""
    | c :: _ =>
      let last := cs.getLast?.getD ' '
      (if c == ' ' || isWrittenBreak c then "2" else "")
        ++ (if !isWrittenBreak last then "-"
            else if cs.length = 1 ||
              (cs.dropLast.getLast?.map isWrittenBreak).getD false then "+" else "")
  go cs true ((p.mark ("|" ++ hint) true false false).endLine '\n')
where
  go : List Char → Bool → Page → Page
    | [], atStart, p => if atStart then p else p.endLine '\n'
    | c :: cs, atStart, p =>
      if isWrittenBreak c then go cs true (p.endLine c)
      else go cs false ((if atStart then p.indent indent else p).put [c])

/-! ## Values -/

structure Leaf where
  tag : String
  text : String
  asLines : Bool := false

def floatText (x : Double) : String :=
  match x with
  | .nan => ".nan"
  | .infinity negative => if negative then "-.inf" else ".inf"
  | x =>
    let cs := x.text.toList
    if cs.contains '.' then x.text
    else
      let (digits, exponent) := cs.span (· != 'e')
      String.ofList (if exponent.isEmpty then digits else digits ++ ['.', '0'] ++ exponent)

def base64Digit (n : Nat) : Char :=
  ("ABCDEFGHIJKLMNOPQRSTUVWXYZabcdefghijklmnopqrstuvwxyz0123456789+/".toList).getD (n % 64) '='

def base64 : List UInt8 → List Char
  | [] => []
  | [a] => [base64Digit (a.toNat / 4), base64Digit (a.toNat % 4 * 16), '=', '=']
  | [a, b] =>
    [base64Digit (a.toNat / 4), base64Digit (a.toNat % 4 * 16 + b.toNat / 16),
      base64Digit (b.toNat % 16 * 4), '=']
  | a :: b :: c :: bs =>
    base64Digit (a.toNat / 4) :: base64Digit (a.toNat % 4 * 16 + b.toNat / 16)
      :: base64Digit (b.toNat % 16 * 4 + c.toNat / 64) :: base64Digit c.toNat :: base64 bs

/-- Bytes in base 64, 57 bytes to a line. -/
def base64Lines : Nat → List UInt8 → List Char
  | 0, _ => []
  | fuel + 1, bs =>
    if bs.isEmpty then [] else base64 (bs.take 57) ++ '\n' :: base64Lines fuel (bs.drop 57)

def leaf? : Value → Option Leaf
  | .null => some ⟨"null", "null", false⟩
  | .bool b => some ⟨"bool", if b then "true" else "false", false⟩
  | .int n => some ⟨"int", toString n, false⟩
  | .float x => some ⟨"float", floatText x, false⟩
  | .str s => some ⟨"str", s, false⟩
  | .date y m d => some ⟨"timestamp", Value.dateText y m d, false⟩
  | .moment m => some ⟨"timestamp", Value.momentText " " m, false⟩
  | .bytes bs => some ⟨"binary", String.ofList (base64Lines bs.length bs), true⟩
  | _ => none

def writeLeaf (isKey : Bool) (outer : Option Nat) (l : Leaf) (p : Page) : Page :=
  let indent := (outer.map (· + 2)).getD 2
  let t := traits l.text
  let implied := Scalar.implicitTag l.text == standard l.tag
  let split := !isKey
  let tagged (p : Page) : Page :=
    if l.tag == "str" then p else p.mark ("!!" ++ l.tag) true false false
  if !l.asLines && implied && t.plain && !(isKey && (t.isEmpty || t.hasBreaks)) then
    writePlain split indent l.text p
  else if l.asLines && !isKey && t.block then writeLines indent l.text (tagged p)
  else if !l.asLines && t.single && !(isKey && t.hasBreaks) then
    writeSingle split indent l.text (tagged p)
  else writeDouble split indent (l.text.toList.map .char) (tagged p)

/-- Whether a key stands on one line before its colon. -/
def isShortKey (v : Value) : Bool :=
  match leaf? v with
  | some l =>
    let t := traits l.text
    decide (l.text.length + l.tag.length + 2 < 128) && !t.isEmpty && !t.hasBreaks
  | none =>
    match v with
    | .torn t =>
      let breaks := (t.points.filterMap Text.Point.char?).any isWrittenBreak
      decide (t.points.length + 5 < 128) && !breaks
    | .tuple [] => true
    | _ => false

/-! ## The order of keys -/

mutual

/-- Whether one key comes before another; none if they cannot be compared. -/
def keyLess? : Value → Value → Option Bool
  | .str s, .str t => some (decide (s < t))
  | .str s, .torn t => some (decide (s.toList.map Char.toNat < t.points.map Text.Point.toNat))
  | .torn s, .str t => some (decide (s.points.map Text.Point.toNat < t.toList.map Char.toNat))
  | .torn s, .torn t =>
    some (decide (s.points.map Text.Point.toNat < t.points.map Text.Point.toNat))
  | .tuple xs, .tuple ys => itemsLess? xs ys
  | .bytes s, .bytes t => some (decide (s.map UInt8.toNat < t.map UInt8.toNat))
  | .date y m d, .date y' m' d' => some (decide ([y, m, d] < [y', m', d']))
  | .moment s, .moment t =>
    let instant (m : Moment) : List Int :=
      [m.year, m.month, m.day, m.hour, (m.minute : Int) - m.offset.getD 0, m.second, m.microsecond]
    if s.offset.isSome = t.offset.isSome then some (decide (instant s < instant t)) else none
  | a, b =>
    match a.number?, b.number? with
    | some (.whole m), some (.whole n) => some (decide (m < n))
    | some (.whole m), some (.real y) => some (Double.lt (Double.ofInt m) y)
    | some (.real x), some (.whole n) => some (Double.lt x (Double.ofInt n))
    | some (.real x), some (.real y) => some (Double.lt x y)
    | _, _ => none

def itemsLess? : List Value → List Value → Option Bool
  | _, [] => some false
  | [], _ => some true
  | x :: xs, y :: ys => if x.same y then itemsLess? xs ys else keyLess? x y

end

def comparable (a : Value) (keys : List Value) : Bool :=
  keys.all fun b => (keyLess? a b).isSome

def allComparable : List Value → Bool
  | [] => true
  | a :: keys => comparable a keys && allComparable keys

/-- Put entries in the order of their keys; keys that cannot be compared stay as they are. -/
def sortEntries (es : List (Value × Value)) : List (Value × Value) :=
  if allComparable (es.map (·.1)) then es.mergeSort fun a b =>
    !(keyLess? b.1 a.1).getD false else es

mutual

def sorted : Value → Value
  | .list xs => .list (sortedAll xs)
  | .tuple xs => .tuple (sortedAll xs)
  | .set xs => .set ((sortEntries (xs.map (·, .null))).map Prod.fst)
  | .map es => .map (sortEntries (sortedEntries es))
  | v => v

def sortedAll : List Value → List Value
  | [] => []
  | x :: xs => sorted x :: sortedAll xs

def sortedEntries : List (Value × Value) → List (Value × Value)
  | [] => []
  | (k, v) :: es => (k, sorted v) :: sortedEntries es

end

/-! ## Blocks -/

def Page.brackets (p : Page) : Page :=
  (p.mark "[" true true false).mark "]" false false false

def Page.tupleTag (p : Page) : Page :=
  p.mark "!!python/tuple" true false false

def itemIndent (inMapping : Bool) (outer : Option Nat) (p : Page) : Nat :=
  match outer with
  | none => 0
  | some n => if inMapping && !p.onlyIndented then n else n + 2

/-- Write a key and the colon after it. A key that is not short follows a mark of its own. -/
def putKey (indent : Nat) (k : Value) (write : Bool → Page → Page) (p : Page) : Page :=
  let p := p.indent indent
  if isShortKey k then (write true p).mark ":" false false false
  else ((write false (p.mark "?" true false true)).indent indent).mark ":" true false true

mutual

/-- Write a value inside something with an indentation. A sequence in a mapping
is not indented further. -/
def writeValue (inMapping isKey : Bool) (outer : Option Nat) : Value → Page → Page
  | .list [], p => p.brackets
  | .list xs, p => writeItems (itemIndent inMapping outer p) xs p
  | .tuple [], p => p.tupleTag.brackets
  | .tuple xs, p => writeItems (itemIndent inMapping outer p.tupleTag) xs p.tupleTag
  | .set [], p =>
    ((p.mark "!!set" true false false).mark "\x7b" true true false).mark "\x7d" false false false
  | .set xs, p => writeSet ((outer.map (· + 2)).getD 0) xs (p.mark "!!set" true false false)
  | .map [], p => (p.mark "\x7b" true true false).mark "\x7d" false false false
  | .map es, p => writeEntries ((outer.map (· + 2)).getD 0) es p
  | .torn t, p => writeDouble (!isKey) ((outer.map (· + 2)).getD 2) t.points p
  | v, p =>
    match leaf? v with
    | some l => writeLeaf isKey outer l p
    | none => p

def writeItems (indent : Nat) : List Value → Page → Page
  | [], p => p
  | x :: xs, p =>
    writeItems indent xs
      (writeValue false false (some indent) x ((p.indent indent).mark "-" true false true))

def writeSet (indent : Nat) : List Value → Page → Page
  | [], p => p
  | x :: xs, p =>
    let p := putKey indent x (fun isKey => writeValue true isKey (some indent) x) p
    writeSet indent xs (writeLeaf false (some indent) ⟨"null", "null", false⟩ p)

def writeEntries (indent : Nat) : List (Value × Value) → Page → Page
  | [], p => p
  | (k, v) :: es, p =>
    let p := putKey indent k (fun isKey => writeValue true isKey (some indent) k) p
    writeEntries indent es (writeValue true false (some indent) v p)

end

def print (v : Value) : String :=
  ((writeValue false false none (sorted v) {}).indent 0).text

end ImportAudit.Yaml
