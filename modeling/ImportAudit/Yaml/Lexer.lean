import ImportAudit.Yaml.Text

/-!
# From text to YAML tokens

Whether a text is a key shows only at the colon after it. Until then its place is kept as
a candidate, and the tokens that make it a key are put in at that place. A candidate ends
with its line and after 1024 characters. Where there is a fault, the tokens before it
count up to the first candidate.
-/

namespace ImportAudit.Yaml

structure Candidate where
  /-- The depth of brackets it is in. -/
  level : Nat
  /-- The number of tokens before it. -/
  place : Nat
  /-- Whether only a key may stand there. -/
  required : Bool
  index : Nat
  line : Nat
  column : Nat

structure Lexer where
  cursor : Cursor
  tokens : List Token := []
  level : Nat := 0
  indent : Int := -1
  outer : List Int := []
  keyAllowed : Bool := true
  candidates : List Candidate := []

namespace Lexer

def maxKey : Nat := 1024

def push (l : Lexer) (t : Token) : Lexer :=
  { l with tokens := l.tokens ++ [t] }

def inFlow (l : Lexer) : Bool :=
  l.level != 0

def missingColon : Fault := .malformed "a key without its colon"

def isStale (l : Lexer) (k : Candidate) : Bool :=
  k.line != l.cursor.line || decide (maxKey < l.cursor.index - k.index)

def dropStale (l : Lexer) : Except Fault Lexer :=
  if l.candidates.any fun k => l.isStale k && k.required then .error missingColon
  else .ok { l with candidates := l.candidates.filter fun k => !l.isStale k }

def dropCandidate (l : Lexer) : Except Fault Lexer :=
  if l.candidates.any fun k => k.level == l.level && k.required then .error missingColon
  else .ok { l with candidates := l.candidates.filter fun k => k.level != l.level }

def saveCandidate (l : Lexer) : Except Fault Lexer := do
  if !l.keyAllowed then return l
  let required := !l.inFlow && l.indent == (l.cursor.column : Int)
  let l ← l.dropCandidate
  let c := l.cursor
  let k := ⟨l.level, l.tokens.length, required, c.index, c.line, c.column⟩
  return { l with candidates := k :: l.candidates }

def unwind (column : Int) : Nat → Lexer → Lexer
  | 0, l => l
  | fuel + 1, l =>
    if !l.inFlow && decide (column < l.indent) then
      unwind column fuel
        ({ l with indent := l.outer.head?.getD (-1), outer := l.outer.drop 1 }.push .blockEnd)
    else l

def unwindTo (l : Lexer) (column : Int) : Lexer :=
  unwind column (l.outer.length + 1) l

/-- Start a block at a column, if it is indented more than the current one;
tokens go in at a place. -/
def indentAt (l : Lexer) (column : Nat) (place : Nat) (t : Token) : Lexer :=
  if l.indent < column then
    { l with indent := column, outer := l.indent :: l.outer, tokens := l.tokens.insertIdx place t }
  else l

/-! ## Tokens of each kind -/

def mark (l : Lexer) (t : Token) (keyAllowed : Bool) : Lexer :=
  { l.push t with cursor := l.cursor.step, keyAllowed }

def fetchStreamEnd (l : Lexer) : Except Fault Lexer := do
  let l ← (l.unwindTo (-1)).dropCandidate
  return { l.push .streamEnd with keyAllowed := false, candidates := [] }

def isNameChar (c : Char) : Bool :=
  c.isAlphanum || c == '-' || c == '_'

def name (c : Cursor) : Except Fault (String × Cursor) :=
  match c.takeWhile isNameChar with
  | ([], _) => .error (.malformed "a missing name")
  | (cs, c) => .ok (String.ofList cs, c)

/-- The handle of a tag: an exclamation mark, or a name between two of them. -/
def tagHandle (c : Cursor) : Except Fault (String × Cursor) :=
  if c.here != '!' then .error (.malformed "a tag handle without its mark")
  else if c.peek 1 == ' ' then .ok ("!", c.step)
  else
    let (cs, next) := c.step.takeWhile isNameChar
    if next.here != '!' then .error (.malformed "a tag handle without its second mark")
    else .ok ("!" ++ String.ofList cs ++ "!", next.step)

def isUriChar (c : Char) : Bool :=
  c.isAlphanum || "-;/?:@&=+$,_.!~*'()[]".toList.contains c

def uriBytes : Nat → Cursor → Except Fault (List UInt8 × Cursor)
  | 0, c => .ok ([], c)
  | fuel + 1, c =>
    if c.here != '%' then .ok ([], c)
    else
      match hexDigit? (c.peek 1), hexDigit? (c.peek 2) with
      | some a, some b => do
        let (bs, c) ← uriBytes fuel (c.advance 3)
        return (UInt8.ofNat (16 * a + b) :: bs, c)
      | _, _ => .error (.malformed "an escape without its digits")

def uriParts : Nat → Cursor → Except Fault (String × Cursor)
  | 0, c => .ok ("", c)
  | fuel + 1, c =>
    let (cs, c) := c.takeWhile isUriChar
    if c.here != '%' then .ok (String.ofList cs, c)
    else do
      let (bs, c) ← uriBytes c.rest.length c
      match Text.decode .utf8 bs with
      | .error _ => .error (.malformed "an escape that is no text")
      | .ok s =>
        let (more, c) ← uriParts fuel c
        return (String.ofList cs ++ s ++ more, c)

def uri (c : Cursor) : Except Fault (String × Cursor) := do
  if !(isUriChar c.here || c.here == '%') then .error (.malformed "a tag without its name")
  uriParts (c.rest.length + 1) c

def endsTag (c : Char) : Bool :=
  c == ' ' || endsLine c

def number (c : Cursor) : Except Fault (Nat × Cursor) :=
  match c.takeWhile Char.isDigit with
  | ([], _) => .error (.malformed "a missing number")
  | (ds, c) => .ok (ds.foldl (fun n d => 10 * n + (d.toNat - '0'.toNat)) 0, c)

def directive (c : Cursor) : Except Fault (Directive × Cursor) := do
  let (word, c) ← name c.step
  if !endsTag c.here then .error (.malformed "an unknown character in a directive")
  let (d, c) ← if word == "YAML" then do
      let (major, c) ← number (c.skipWhile (· == ' '))
      if c.here != '.' then .error (.malformed "a version without its second part")
      let (_, c) ← number c.step
      if !endsTag c.here then .error (.malformed "text after a version")
      pure (Directive.version major, c)
    else if word == "TAG" then do
      let (handle, c) ← tagHandle (c.skipWhile (· == ' '))
      if c.here != ' ' then .error (.malformed "text after a tag handle")
      let (start, c) ← uri (c.skipWhile (· == ' '))
      if !endsTag c.here then .error (.malformed "text after a tag")
      pure (Directive.tag handle start, c)
    else pure (Directive.other, c.skipWhile fun ch => !isBreak ch)
  let c := c.skipComment
  if !endsLine c.here then .error (.malformed "text after a directive")
  return (d, c.lineBreak.2)

def fetchDirective (l : Lexer) : Except Fault Lexer := do
  let l ← (l.unwindTo (-1)).dropCandidate
  let (d, c) ← directive l.cursor
  return { l.push (.directive d) with cursor := c, keyAllowed := false }

def fetchSeparator (l : Lexer) (t : Token) : Except Fault Lexer := do
  let l ← (l.unwindTo (-1)).dropCandidate
  return { l.push t with cursor := l.cursor.advance 3, keyAllowed := false }

def fetchOpening (l : Lexer) (t : Token) : Except Fault Lexer := do
  let l ← l.saveCandidate
  return { l.mark t true with level := l.level + 1 }

def fetchClosing (l : Lexer) (t : Token) : Except Fault Lexer := do
  let l ← l.dropCandidate
  if !l.inFlow then .error (.malformed "a closing bracket without its opening one")
  return { l.mark t false with level := l.level - 1 }

def fetchFlowEntry (l : Lexer) : Except Fault Lexer := do
  let l ← l.dropCandidate
  return l.mark .flowEntry true

def fetchItem (l : Lexer) (start t : Token) (keyAllowed : Bool) : Except Fault Lexer := do
  if !l.inFlow && !l.keyAllowed then .error (.malformed "an item that may not stand here")
  let l := if l.inFlow then l else l.indentAt l.cursor.column l.tokens.length start
  let l ← l.dropCandidate
  return l.mark t keyAllowed

/-- A colon: it makes the candidate before it a key. -/
def fetchValue (l : Lexer) : Except Fault Lexer := do
  match l.candidates.find? fun k => k.level == l.level with
  | some k =>
    let l := { l with
      candidates := l.candidates.filter fun k => k.level != l.level
      tokens := l.tokens.insertIdx k.place .key }
    let l := if l.inFlow then l else l.indentAt k.column k.place .blockMappingStart
    return l.mark .value false
  | none =>
    if !l.inFlow && !l.keyAllowed then .error (.malformed "a value that may not stand here")
    let l := if l.inFlow then l else l.indentAt l.cursor.column l.tokens.length .blockMappingStart
    let l ← l.dropCandidate
    return l.mark .value (!l.inFlow)

def anchorName (c : Cursor) : Except Fault (String × Cursor) := do
  let (word, c) ← name c.step
  if !(endsWord c.here || "?:,]\x7d%@`".toList.contains c.here) then
    .error (.malformed "an unknown character in a name")
  return (word, c)

def fetchAnchor (l : Lexer) (t : String → Token) : Except Fault Lexer := do
  let l ← l.saveCandidate
  let (word, c) ← anchorName l.cursor
  return { l.push (t word) with cursor := c, keyAllowed := false }

def tag (c : Cursor) : Except Fault (Token × Cursor) := do
  let ch := c.peek 1
  let (t, c) ← if ch == '<' then do
      let (suffix, c) ← uri (c.advance 2)
      if c.here != '>' then .error (.malformed "a tag without its closing bracket")
      pure (Token.tag none suffix, c.step)
    else if endsWord ch then pure (Token.tag none "!", c.step)
    else do
      -- A second mark before the end of the word makes the first part a handle.
      let hasHandle := (c.rest.drop 1).takeWhile (fun ch => !endsTag ch) |>.contains '!'
      let (handle, c) ← if hasHandle then tagHandle c else pure ("!", c.step)
      let (suffix, c) ← uri c
      pure (Token.tag (some handle) suffix, c)
  if !endsTag c.here then .error (.malformed "text after a tag")
  return (t, c)

def fetchTag (l : Lexer) : Except Fault Lexer := do
  let l ← l.saveCandidate
  let (t, c) ← tag l.cursor
  return { l.push t with cursor := c, keyAllowed := false }

def fetchBlock (l : Lexer) (folded : Bool) : Except Fault Lexer := do
  let l ← l.dropCandidate
  let (text, c) ← blockText folded l.indent l.cursor
  return { l.push (.scalar (String.ofList text) false) with cursor := c, keyAllowed := true }

def fetchQuoted (l : Lexer) (double : Bool) : Except Fault Lexer := do
  let l ← l.saveCandidate
  let (text, c) ← quotedText double l.cursor
  return { l.push (.ofPoints text) with cursor := c, keyAllowed := false }

def fetchPlain (l : Lexer) : Except Fault Lexer := do
  let l ← l.saveCandidate
  let (text, broken, c) :=
    plainText l.inFlow (l.indent + 1).toNat (l.cursor.rest.length + 1) [] l.cursor
  return { l.push (.scalar (String.ofList text) true) with cursor := c, keyAllowed := broken }

/-! ## The next token -/

def atPlain (l : Lexer) : Bool :=
  let ch := l.cursor.here
  !(endsWord ch || "-?:,[]\x7b\x7d#&*!|>'\"%@`".toList.contains ch)
    || (!endsWord (l.cursor.peek 1) && (ch == '-' || (!l.inFlow && (ch == '?' || ch == ':'))))

/-- Go to the next token. Blocks that are indented more than it end before it. -/
def settle (l : Lexer) : Except Fault Lexer := do
  let (c, broken) := l.cursor.toToken (l.cursor.rest.length + 1) false
  let l ← { l with cursor := c, keyAllowed := l.keyAllowed || (broken && !l.inFlow) }.dropStale
  return l.unwindTo l.cursor.column

def fetchHere (l : Lexer) : Except Fault Lexer :=
  let c := l.cursor
  let ch := c.here
  let alone := endsWord (c.peek 1)
  if ch == stop then l.fetchStreamEnd
  else if ch == '%' && c.column == 0 then l.fetchDirective
  else if c.column == 0 && c.atMark '-' then l.fetchSeparator .documentStart
  else if c.column == 0 && c.atMark '.' then l.fetchSeparator .documentEnd
  else if ch == '[' then l.fetchOpening .flowSequenceStart
  else if ch == '\x7b' then l.fetchOpening .flowMappingStart
  else if ch == ']' then l.fetchClosing .flowSequenceEnd
  else if ch == '\x7d' then l.fetchClosing .flowMappingEnd
  else if ch == ',' then l.fetchFlowEntry
  else if ch == '-' && alone then l.fetchItem .blockSequenceStart .blockEntry true
  else if ch == '?' && (l.inFlow || alone) then l.fetchItem .blockMappingStart .key (!l.inFlow)
  else if ch == ':' && (l.inFlow || alone) then l.fetchValue
  else if ch == '*' then l.fetchAnchor .alias
  else if ch == '&' then l.fetchAnchor .anchor
  else if ch == '!' then l.fetchTag
  else if ch == '|' && !l.inFlow then l.fetchBlock false
  else if ch == '>' && !l.inFlow then l.fetchBlock true
  else if ch == '\'' then l.fetchQuoted false
  else if ch == '"' then l.fetchQuoted true
  else if l.atPlain then l.fetchPlain
  else .error (.malformed "a character that starts nothing")

def fetch (l : Lexer) : Except Fault Lexer := do
  let l ← l.settle
  l.fetchHere

/-- The tokens before the first place at which a key may have started. -/
def fixed (l : Lexer) : List Token :=
  let places := (l.candidates.filter fun k => !l.isStale k).map Candidate.place
  l.tokens.take (places.foldl min l.tokens.length)

/-- Read all tokens. Every step but the last goes over a character. -/
def run : Nat → Lexer → Except (List Token × Fault) (List Token)
  | 0, l => .ok l.tokens
  | fuel + 1, l => do
    let l ← l.fetch.mapError (l.fixed, ·)
    if l.tokens.getLast? = some .streamEnd then return l.tokens else run fuel l

def runAll (cs : List Char) : Except (List Token × Fault) (List Token) :=
  let start : Cursor := { rest := cs }
  let start := if start.here.toNat == 0xfeff then start.step else start
  run (cs.length + 2) { cursor := start }

end Lexer

/-- How many characters before a place are there when it is looked at: the first block and those
after it are looked at as a whole. -/
def blockStart (place : Nat) : Nat :=
  if place < 8192 then 0 else place / 4096 * 4096

/-- The tokens of a text, or those before a fault. A character that may not stand in a document is a
fault as soon as its block is looked at. -/
def tokens (text : String) : Except (List Token × Fault) (List Token) :=
  let cs := text.toList
  match cs.findIdx? fun c => !isReadable c with
  | none => Lexer.runAll cs
  | some place =>
    match Lexer.runAll (cs.take (blockStart place)) with
    | .error (ts, .impossible f hf) => .error (ts, .impossible f hf)
    | _ => .error ([], .malformed "a character that may not stand in a document")

end ImportAudit.Yaml
