import ImportAudit.Java.Token
import ImportAudit.Text.Identifier

/-!
# From characters to tokens

White space is that of ASCII and separates tokens. Comments are tokens. Each token is the
longest that its class allows. Inside a string the lexer is in a mode of its own, and an
expression spliced into a string brings it back to code until the brace that closes the
splice; so the modes form a stack.
-/

namespace ImportAudit.Java

open Text

def isSpace (c : Char) : Bool :=
  c == ' ' || (decide (9 ≤ c.toNat) && decide (c.toNat ≤ 13))

/-! ## Matchers

A matcher gives the length of what it matches at the start of the characters.
-/

abbrev Matcher := List Char → Option Nat

namespace Matcher

def one (p : Char → Bool) : Matcher
  | [] => none
  | c :: _ => if p c then some 1 else none

def text : List Char → Matcher
  | [], _ => some 0
  | _ :: _, [] => none
  | p :: ps, c :: cs => if p == c then (text ps cs).map (· + 1) else none

def andThen (a b : Matcher) : Matcher := fun cs =>
  (a cs).bind fun n => (b (cs.drop n)).map (n + ·)

def optional (a : Matcher) : Matcher := fun cs =>
  some ((a cs).getD 0)

def longest (choices : List Matcher) : Matcher := fun cs =>
  (choices.filterMap fun m => m cs).max?

def first (choices : List Matcher) : Matcher := fun cs =>
  choices.findSome? fun m => m cs

end Matcher

def symbols : List String :=
  [">>>=", "<<=", ">>=", ">>>", "...", "->", "::", "++", "--", "&&", "||", "==", "!=", "<=", ">=",
    "+=", "-=", "*=", "/=", "&=", "|=", "^=", "%=", "<<", ">>", "(", ")", "\x7b", "\x7d", "[", "]",
    ";", ",", ".", "=", "<", ">", "!", "~", "?", ":", "+", "-", "*", "/", "&", "|", "^", "%",
    "@interface", "@"]

def symbolMatcher : Matcher :=
  .first (symbols.map fun s => .text s.toList)

/-! ## Numbers -/

/-- The length of the longest start that ends in a digit and is made of digits and runs
of at most `most` underscores; `gap` is the number of underscores just read and `length`
the characters before them. -/
def groupsLength (p : Char → Bool) (most gap length : Nat) : List Char → Nat
  | [] => length
  | c :: cs =>
    if p c then groupsLength p most 0 (length + gap + 1) cs
    else if c == '_' && decide (gap < most) then groupsLength p most (gap + 1) length cs
    else length

def digitGroups (p : Char → Bool) : Matcher
  | [] => none
  | c :: cs => if p c then some (groupsLength p 1 0 1 cs) else none

/-- A zero, or digits without a leading zero; several underscores may stand
together after the second digit. -/
def plainDigits : Matcher
  | [] => none
  | '0' :: _ => some 1
  | c :: '_' :: '_' :: _ => if c.isDigit then some 1 else none
  | c :: cs => if c.isDigit then some (groupsLength Char.isDigit cs.length 0 1 cs) else none

def isHexDigit (c : Char) : Bool :=
  c.isDigit || (decide ('a' ≤ c) && decide (c ≤ 'f')) || (decide ('A' ≤ c) && decide (c ≤ 'F'))

def isOctalDigit (c : Char) : Bool :=
  decide ('0' ≤ c) && decide (c ≤ '7')

def isBinaryDigit (c : Char) : Bool :=
  c == '0' || c == '1'

def among (choices : List Char) : Matcher :=
  .one choices.contains

def exponent (marks : List Char) : Matcher :=
  (among marks).andThen ((Matcher.optional (among ['+', '-'])).andThen (digitGroups Char.isDigit))

def numberMatcher : Matcher :=
  let digits := digitGroups Char.isDigit
  let long := Matcher.optional (among ['l', 'L'])
  let real := among ['f', 'F', 'd', 'D']
  let power := exponent ['e', 'E']
  let hexMark := Matcher.first [.text ['0', 'x'], .text ['0', 'X']]
  let hexDigits := digitGroups isHexDigit
  .longest [
    plainDigits.andThen long,
    hexMark.andThen (hexDigits.andThen long),
    (Matcher.first [.text ['0', 'o'], .text ['0', 'O'], .text ['0']]).andThen
      ((digitGroups isOctalDigit).andThen long),
    (Matcher.first [.text ['0', 'b'], .text ['0', 'B']]).andThen
      ((digitGroups isBinaryDigit).andThen long),
    digits.andThen ((among ['.']).andThen
      ((Matcher.optional digits).andThen ((Matcher.optional power).andThen (.optional real)))),
    (among ['.']).andThen (digits.andThen ((Matcher.optional power).andThen (.optional real))),
    plainDigits.andThen (power.andThen (.optional real)),
    plainDigits.andThen ((Matcher.optional power).andThen real),
    hexMark.andThen ((Matcher.longest [
        hexDigits.andThen (.optional (among ['.'])),
        (Matcher.optional hexDigits).andThen ((among ['.']).andThen hexDigits)]).andThen
      (.optional ((exponent ['p', 'P']).andThen (.optional real))))]

/-! ## Characters, strings and comments -/

/-- The content and the closing quote of a character literal; `seen` says
whether there has been content. -/
def characterBody : Bool → Matcher
  | _, [] => none
  | _, ['\\'] => none
  | _, '\\' :: _ :: rest => (characterBody true rest).map (· + 2)
  | seen, c :: rest =>
    if c == '\'' then (if seen then some 1 else none)
    else if c == '\n' then none
    else (characterBody true rest).map (· + 1)

def escapeMatcher : Matcher :=
  let octal := Matcher.one isOctalDigit
  let hex := Matcher.one isHexDigit
  (among ['\\']).andThen (.first [
    octal.andThen ((Matcher.optional octal).andThen (.optional octal)),
    (among ['x']).andThen (hex.andThen hex),
    (among ['u']).andThen (hex.andThen (hex.andThen (hex.andThen hex))),
    .one fun c => c != 'x' && c != 'u'])

def blockComment : Matcher
  | [] => none
  | ['*'] => none
  | '*' :: '/' :: _ => some 2
  | _ :: rest => (blockComment rest).map (· + 1)

/-- The length of a run of text in a text block after the quote that it starts with;
it may hold escaped quotes. -/
def quotedRun : List Char → Nat
  | [] => 0
  | '\\' :: '"' :: rest => quotedRun rest + 2
  | c :: rest => if c == '"' || c == '\\' then 0 else quotedRun rest + 1

def runLength (p : Char → Bool) (cs : List Char) : Nat :=
  (cs.takeWhile p).length

/-! ## The lexer -/

/-- What the lexer is inside of: code, with the number of open braces, or a
string that may be a text block. -/
inductive Mode
  | code (depth : Nat)
  | string (block : Bool)
  deriving DecidableEq, Repr

structure Step where
  lexeme : Lexeme
  length : Nat
  modes : List Mode

/-- A word. The one keyword that is not made of letters alone holds a hyphen. -/
def wordLength (cs : List Char) : Nat :=
  let keyword := "non-sealed".toList
  if keyword.isPrefixOf cs && !(cs.drop keyword.length).head?.any isIdentifierPart then
    keyword.length
  else runLength isIdentifierPart cs

def codeStep (depth : Nat) (outer : List Mode) (c : Char) (cs : List Char) : Step :=
  let here := Mode.code depth :: outer
  if isIdentifierStart c then ⟨.word, wordLength (c :: cs), here⟩
  else
    match numberMatcher (c :: cs), c, cs with
    | some n, _, _ => ⟨.number, n, here⟩
    | none, '"', '"' :: '"' :: _ => ⟨.quote, 3, .string true :: here⟩
    | none, '"', _ => ⟨.quote, 1, .string false :: here⟩
    | none, '/', '/' :: rest => ⟨.comment, 2 + runLength (· != '\n') rest, here⟩
    | none, '/', '*' :: rest =>
      match blockComment rest with
      | some n => ⟨.comment, 2 + n, here⟩
      | none => ⟨.symbol, 1, here⟩
    | none, '\'', rest =>
      match characterBody false rest with
      | some n => ⟨.character, 1 + n, here⟩
      | none => ⟨.stray, 1, here⟩
    | none, '\x7b', _ => ⟨.symbol, 1, .code (depth + 1) :: outer⟩
    | none, '\x7d', _ =>
      if depth != 0 then ⟨.symbol, 1, .code (depth - 1) :: outer⟩
      else if outer.isEmpty then ⟨.symbol, 1, here⟩
      else ⟨.splice, 1, outer⟩
    | none, _, _ =>
      match symbolMatcher (c :: cs) with
      | some n => ⟨.symbol, n, here⟩
      | none => ⟨.stray, 1, here⟩

def stringStep (block : Bool) (outer : List Mode) (c : Char) (cs : List Char) : Step :=
  let here := Mode.string block :: outer
  match c, cs with
  | '\\', '\x7b' :: _ => ⟨.splice, 2, .code 0 :: here⟩
  | '\\', rest =>
    match escapeMatcher (c :: rest) with
    | some n => ⟨.fragment, n, here⟩
    -- A text block takes any character after a backslash.
    | none => if block && !rest.isEmpty then ⟨.fragment, 2, here⟩ else ⟨.stray, 1, here⟩
  | '"', rest =>
    if !block then ⟨.quote, 1, outer⟩
    else if ['"', '"'].isPrefixOf rest then ⟨.quote, 3, outer⟩
    else ⟨.fragment, 1 + quotedRun rest, here⟩
  | _, rest => ⟨.fragment, 1 + runLength (fun d => d != '"' && d != '\\') rest, here⟩

def step (modes : List Mode) (c : Char) (cs : List Char) : Step :=
  match modes with
  | .string block :: outer => stringStep block outer c cs
  | .code depth :: outer => codeStep depth outer c cs
  | [] => codeStep 0 [] c cs

def skipsSpace : List Mode → Bool
  | .string _ :: _ => false
  | _ => true

/-- The tokens of the input, with an end token after them. Every step takes at least one character,
so the length of the input is fuel enough. -/
def scan : Nat → List Mode → Nat → Nat → List Char → List Token
  | fuel + 1, modes, line, place, c :: cs =>
    if skipsSpace modes && isSpace c then
      scan fuel modes (if c == '\n' then line + 1 else line) place cs
    else
      let s := step modes c cs
      let taken := (c :: cs).take s.length
      ⟨s.lexeme, String.ofList taken, line, place⟩ ::
        scan fuel s.modes (line + taken.count '\n') (place + 1) ((c :: cs).drop s.length)
  | _, _, line, place, _ => [⟨.finish, "", line, place⟩]

def byteOrderMark : Char :=
  Char.ofNat 0xfeff

def tokens (source : String) : List Token :=
  let cs := source.toList
  let cs := if cs.head? == some byteOrderMark then cs.drop 1 else cs
  scan cs.length [.code 0] 1 0 cs

end ImportAudit.Java
