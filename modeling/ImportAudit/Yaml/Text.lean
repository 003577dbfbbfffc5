import ImportAudit.Yaml.Cursor

/-!
# Texts in a YAML document

A text is written plainly, in single or double quotes, or as a block of lines. A single line break
inside a text that is not a literal block stands for a space, and each further one for itself. An
escape may name half of a surrogate pair.
-/

namespace ImportAudit.Yaml

/-- What a line break and the empty lines after it stand for. -/
def fold (first : List Char) (more : List (List Char)) : List Char :=
  (if first != ['\n'] then first else if more.isEmpty then [' '] else []) ++ more.flatten

/-! ## Quoted texts -/

def escapes : List (Char × Nat) :=
  [('0', 0), ('a', 7), ('b', 8), ('t', 9), ('\t', 9), ('n', 10), ('v', 11), ('f', 12), ('r', 13),
    ('e', 27), (' ', 32), ('"', 34), ('\\', 92), ('/', 47), ('N', 0x85), ('_', 0xa0), ('L', 0x2028),
    ('P', 0x2029)]

def escapeLength? (c : Char) : Option Nat :=
  match c with
  | 'x' => some 2
  | 'u' => some 4
  | 'U' => some 8
  | _ => none

def hexDigit? (c : Char) : Option Nat :=
  if c.isDigit then some (c.toNat - '0'.toNat)
  else if 'a' ≤ c ∧ c ≤ 'f' then some (c.toNat - 'a'.toNat + 10)
  else if 'A' ≤ c ∧ c ≤ 'F' then some (c.toNat - 'A'.toNat + 10)
  else none

def hexNumber (cs : List Char) : Option Nat :=
  cs.foldl (fun n c => n.bind fun n => (hexDigit? c).map fun d => 16 * n + d) (some 0)

def quotedBreaks : Nat → Cursor → Except Fault (List (List Char) × Cursor)
  | 0, c => .ok ([], c)
  | fuel + 1, c =>
    if c.atSeparator then .error (.malformed "a document separator inside a quoted text")
    else
      let c := c.skipWhile fun ch => ch == ' ' || ch == '\t'
      match c.lineBreak with
      | ([], _) => .ok ([], c)
      | (b, next) => do
        let (bs, c) ← quotedBreaks fuel next
        return (b :: bs, c)

def escape (fuel : Nat) (c : Cursor) : Except Fault (List Text.Point × Cursor) :=
  let ch := c.here
  match escapes.lookup ch, escapeLength? ch with
  | some n, _ => .ok ([.ofNat n], c.step)
  | none, some length =>
    let c := c.step
    let digits := c.rest.take length
    match if digits.length = length then hexNumber digits else none with
    | none => .error (.malformed "an escape without its digits")
    | some n =>
      if n < 0x110000 then .ok ([.ofNat n], c.advance length)
      else if n < Nat.pow 2 31 then
        .error (.impossible (.invalidValue "chr() arg not in range(0x110000)"))
      else .error (.impossible (.overflow "Python int too large to convert to C int"))
  | none, none =>
    match c.lineBreak with
    | ([], _) => .error (.malformed "an unknown escape")
    | (_, next) => do
      let (bs, c) ← quotedBreaks fuel next
      return (bs.flatten.map .char, c)

def quotedWord (double : Bool) : Nat → Cursor → Except Fault (List Text.Point × Cursor)
  | 0, c => .ok ([], c)
  | fuel + 1, c =>
    let (run, c) := c.takeWhile fun ch => !(ch == '\'' || ch == '"' || ch == '\\' || endsWord ch)
    let ch := c.here
    let goOn (taken : List Text.Point) (c : Cursor) : Except Fault (List Text.Point × Cursor) := do
      let (more, c) ← quotedWord double fuel c
      return (run.map .char ++ taken ++ more, c)
    if !double && ch == '\'' && c.peek 1 == '\'' then goOn [.char '\''] (c.advance 2)
    else if (double && ch == '\'') || (!double && (ch == '"' || ch == '\\')) then
      goOn [.char ch] c.step
    else if double && ch == '\\' then do
      let (taken, c) ← escape fuel c.step
      goOn taken c
    else .ok (run.map .char, c)

def quotedSpace (fuel : Nat) (c : Cursor) : Except Fault (List Char × Cursor) := do
  let (blanks, c) := c.takeWhile fun ch => ch == ' ' || ch == '\t'
  if c.here == stop then .error (.malformed "a quoted text without its end")
  else
    match c.lineBreak with
    | ([], _) => return (blanks, c)
    | (b, next) =>
      let (bs, c) ← quotedBreaks fuel next
      return (fold b bs, c)

def quotedRest (double : Bool) : Nat → Cursor → Except Fault (List Text.Point × Cursor)
  | 0, _ => .error (.malformed "a quoted text without its end")
  | fuel + 1, c => do
    let (word, c) ← quotedWord double (fuel + 1) c
    if c.here == (if double then '"' else '\'') then return (word, c.step)
    else
      let (space, c) ← quotedSpace (fuel + 1) c
      let (more, c) ← quotedRest double fuel c
      return (word ++ space.map .char ++ more, c)

def quotedText (double : Bool) (c : Cursor) : Except Fault (List Text.Point × Cursor) :=
  quotedRest double (c.rest.length + 1) c.step

/-! ## Plain texts -/

/-- Whether a plain text ends before a character; in brackets more characters end it. -/
def endsPlain (flow : Bool) (c next : Char) : Bool :=
  endsWord c ||
    (c == ':' && (endsWord next || (flow && [',', '[', ']', '\x7b', '\x7d'].contains next)))
    || (flow && [',', '?', '[', ']', '\x7b', '\x7d'].contains c)

def plainLength (flow : Bool) : List Char → Nat
  | [] => 0
  | c :: cs => if endsPlain flow c (cs.head?.getD stop) then 0 else 1 + plainLength flow cs

def plainBreaks : Nat → Cursor → Option (List (List Char)) × Cursor
  | 0, c => (some [], c)
  | fuel + 1, c =>
    let c := c.skipWhile (· == ' ')
    match c.lineBreak with
    | ([], _) => (some [], c)
    | (b, next) =>
      if next.atSeparator then (none, next)
      else
        let (bs, c) := plainBreaks fuel next
        (bs.map (b :: ·), c)

/-- The space between two words of a plain text, and whether a line ended;
nothing if the text ends here. -/
def plainSpace (fuel : Nat) (c : Cursor) : List Char × Bool × Cursor :=
  let (blanks, c) := c.takeWhile (· == ' ')
  match c.lineBreak with
  | ([], _) => (blanks, false, c)
  | (b, next) =>
    if next.atSeparator then ([], true, next)
    else
      match plainBreaks fuel next with
      | (none, c) => ([], true, c)
      | (some bs, c) => (fold b bs, true, c)

/-- A plain text: its words with the space between them, and whether a line ended after the last
word. A text outside of brackets ends at a line with too little indentation. -/
def plainText (flow : Bool) (indent : Nat) : Nat → List Char → Cursor → List Char × Bool × Cursor
  | 0, _, c => ([], false, c)
  | fuel + 1, space, c =>
    let length := if c.here == '#' then 0 else plainLength flow c.rest
    if length = 0 then ([], false, c)
    else
      let word := c.rest.take length
      let (next, broken, c) := plainSpace fuel (c.advance length)
      if next.isEmpty || c.here == '#' || (!flow && decide (c.column < indent)) then
        (space ++ word, broken, c)
      else
        let length := if c.here == '#' then 0 else plainLength flow c.rest
        if length = 0 then (space ++ word, broken, c)
        else
          let (more, broken, c) := plainText flow indent fuel next c
          (space ++ word ++ more, broken, c)

/-! ## Blocks of lines -/

inductive Chomping
  | strip
  | clip
  | keep
  deriving DecidableEq, Repr

def blockHeader (c : Cursor) : Except Fault ((Chomping × Option Nat) × Cursor) := do
  let chomping? (ch : Char) : Option Chomping :=
    if ch == '+' then some .keep else if ch == '-' then some .strip else none
  let digit? (ch : Char) : Option Nat := if ch.isDigit then some (ch.toNat - '0'.toNat) else none
  let (chomping, increment, c) := match chomping? c.here, digit? c.here with
    | some ch, _ =>
      match digit? (c.peek 1) with
      | some d => (some ch, some d, c.advance 2)
      | none => (some ch, none, c.step)
    | none, some d =>
      match chomping? (c.peek 1) with
      | some ch => (some ch, some d, c.advance 2)
      | none => (none, some d, c.step)
    | none, none => (none, none, c)
  if increment = some 0 then .error (.malformed "a block without indentation")
  else if !(c.here == ' ' || endsLine c.here) then .error (.malformed "an unknown mark of a block")
  else
    let c := c.skipComment
    if !endsLine c.here then .error (.malformed "text after the marks of a block")
    else return ((chomping.getD .clip, increment), c.lineBreak.2)

def blockIndentation : Nat → Cursor → Nat → List (List Char) × Nat × Cursor
  | 0, c, widest => ([], widest, c)
  | fuel + 1, c, widest =>
    let c := c.skipWhile (· == ' ')
    let widest := max widest c.column
    match c.lineBreak with
    | ([], _) => ([], widest, c)
    | (b, next) =>
      let (bs, widest, c) := blockIndentation fuel next widest
      (b :: bs, widest, c)

/-- Go over indentation, but not past a column. -/
def indentTo (indent : Nat) (c : Cursor) : Cursor :=
  c.advance (min (indent - c.column) (c.rest.takeWhile (· == ' ')).length)

def blockBreaks (indent : Nat) : Nat → Cursor → List (List Char) × Cursor
  | 0, c => ([], c)
  | fuel + 1, c =>
    let c := indentTo indent c
    match c.lineBreak with
    | ([], _) => ([], c)
    | (b, next) =>
      let (bs, c) := blockBreaks indent fuel next
      (b :: bs, c)

def atBlockLine (indent : Nat) (c : Cursor) : Bool :=
  c.column == indent && c.here != stop

/-- The lines of a block after some empty lines. The break of the last line and the
empty lines after it come apart. -/
def blockLines (folded : Bool) (indent : Nat) :
    Nat → List (List Char) → Cursor → List Char × List Char × List (List Char) × Cursor
  | 0, breaks, c => ([], [], breaks, c)
  | fuel + 1, breaks, c =>
    if !atBlockLine indent c then ([], [], breaks, c)
    else
      let flush := !(c.here == ' ' || c.here == '\t')
      let (line, c) := c.takeWhile fun ch => !isBreak ch
      let (b, c) := c.lineBreak
      let (next, c) := blockBreaks indent fuel c
      if atBlockLine indent c then
        let joint :=
          if folded && b == ['\n'] && flush && !(c.here == ' ' || c.here == '\t') then
            if next.isEmpty then [' '] else []
          else b
        let (more, last, tail, c) := blockLines folded indent fuel next c
        (breaks.flatten ++ line ++ joint ++ more, last, tail, c)
      else (breaks.flatten ++ line, b, next, c)

def blockText (folded : Bool) (indent : Int) (c : Cursor) : Except Fault (List Char × Cursor) := do
  let fuel := c.rest.length + 1
  let ((chomping, increment), c) ← blockHeader c.step
  let least := (max 1 (indent + 1)).toNat
  let (breaks, width, c) := match increment with
    | none =>
      let (bs, widest, c) := blockIndentation fuel c 0
      (bs, max least widest, c)
    | some n =>
      let width := least + n - 1
      let (bs, c) := blockBreaks width fuel c
      (bs, width, c)
  if !atBlockLine width c then
    -- No line at all: of the empty lines only those at the end of a text are kept.
    return (if chomping = .keep then breaks.flatten else [], c)
  let (text, last, tail, c) := blockLines folded width fuel breaks c
  return (text ++ (if chomping = .strip then [] else last) ++
    (if chomping = .keep then tail.flatten else []), c)

end ImportAudit.Yaml
