import ImportAudit.Yaml.Token

/-!
# A place in a YAML text

A cursor knows what is left of the text and the line and column it is at. Past the end there is a
null character, which no text has in it.
-/

namespace ImportAudit.Yaml

def stop : Char := Char.ofNat 0

def isBreak (c : Char) : Bool :=
  c == '\n' || c == '\r' || c.toNat == 0x85 || c.toNat == 0x2028 || c.toNat == 0x2029

def endsLine (c : Char) : Bool :=
  c == stop || isBreak c

def endsWord (c : Char) : Bool :=
  c == ' ' || c == '\t' || endsLine c

def isReadable (c : Char) : Bool :=
  let n := c.toNat
  n == 9 || n == 10 || n == 13 || (decide (0x20 ≤ n) && decide (n ≤ 0x7e)) || n == 0x85
    || (decide (0xa0 ≤ n) && decide (n ≤ 0xd7ff)) || (decide (0xe000 ≤ n) && decide (n ≤ 0xfffd)) ||
      decide (0x10000 ≤ n)

structure Cursor where
  rest : List Char
  index : Nat := 0
  line : Nat := 0
  column : Nat := 0

namespace Cursor

def peek (c : Cursor) (distance : Nat) : Char :=
  c.rest.getD distance stop

def here (c : Cursor) : Char :=
  c.peek 0

/-- Go over one character. A byte order mark takes no room. -/
def step (c : Cursor) : Cursor :=
  match c.rest with
  | [] => c
  | ch :: rest =>
    if isBreak ch && !(ch == '\r' && rest.head? == some '\n') then
      ⟨rest, c.index + 1, c.line + 1, 0⟩
    else if ch.toNat == 0xfeff then ⟨rest, c.index + 1, c.line, c.column⟩
    else ⟨rest, c.index + 1, c.line, c.column + 1⟩

def advance : Nat → Cursor → Cursor
  | 0, c => c
  | n + 1, c => advance n c.step

def takeWhile (p : Char → Bool) (c : Cursor) : List Char × Cursor :=
  let run := c.rest.takeWhile p
  (run, c.advance run.length)

def skipWhile (p : Char → Bool) (c : Cursor) : Cursor :=
  (c.takeWhile p).2

/-- Take the end of a line, if there is one here; what it stands for is mostly a plain line feed. -/
def lineBreak (c : Cursor) : List Char × Cursor :=
  let ch := c.here
  if ch == '\r' && c.peek 1 == '\n' then (['\n'], c.advance 2)
  else if ch == '\n' || ch == '\r' || ch.toNat == 0x85 then (['\n'], c.step)
  else if isBreak ch then ([ch], c.step)
  else ([], c)

/-- Whether a mark of three characters stands here as a word. -/
def atMark (mark : Char) (c : Cursor) : Bool :=
  c.here == mark && c.peek 1 == mark && c.peek 2 == mark && endsWord (c.peek 3)

def atSeparator (c : Cursor) : Bool :=
  c.atMark '-' || c.atMark '.'

def skipComment (c : Cursor) : Cursor :=
  let c := c.skipWhile (· == ' ')
  if c.here == '#' then c.skipWhile fun ch => !isBreak ch else c

/-- Go to the next token; the flag tells whether a line ended on the way. -/
def toToken : Nat → Cursor → Bool → Cursor × Bool
  | 0, c, broken => (c, broken)
  | fuel + 1, c, broken =>
    let c := c.skipComment
    match c.lineBreak with
    | ([], _) => (c, broken)
    | (_, next) => toToken fuel next true

end Cursor

end ImportAudit.Yaml
