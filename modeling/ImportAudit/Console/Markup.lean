import ImportAudit.Console.Picture
import ImportAudit.Console.Style
import ImportAudit.Failure

/-!
# Markup

Text for the console can have tags in square brackets: a style opens one, and a slash in front
closes it. A backslash before a tag makes it a text. What is shown is the text without its tags.
-/

namespace ImportAudit.Console

/-- A part of a marked-up text: characters, or a tag in brackets after a number of backslashes. -/
inductive MarkupToken
  | chars (cs : List Char)
  | bracket (slashes : Nat) (tag : List Char)
  deriving DecidableEq, Repr

def startsTag (c : Char) : Bool :=
  ('a' ≤ c && c ≤ 'z') || c == '#' || c == '/' || c == '@'

/-- How far a scan has come: the characters since the last tag, the last first; the backslashes
after them; and the characters of what may become a tag. -/
structure MarkupScan where
  chars : List Char := []
  slashes : Nat := 0
  tag : Option (List Char) := none

namespace MarkupScan

def text (s : MarkupScan) (c : Char) : MarkupScan :=
  if c == '\\' then { s with slashes := s.slashes + 1 }
  else { chars := c :: List.replicate s.slashes '\\' ++ s.chars }

def giveUp (s : MarkupScan) : MarkupScan :=
  match s.tag with
  | none => s
  | some t => t.reverse.foldl text ({ s with tag := none }.text '[')

def open_ (s : MarkupScan) (c : Char) : MarkupScan :=
  if c == '[' then { s with tag := some [] } else s.text c

def tokens (s : MarkupScan) : List MarkupToken :=
  let cs := (List.replicate s.slashes '\\' ++ s.chars).reverse
  if cs.isEmpty then [] else [.chars cs]

end MarkupScan

/-- The parts of a marked-up text. A bracket that is not closed before the next
one opens is a text. -/
def markupTokensFrom (s : MarkupScan) : List Char → List MarkupToken
  | [] => s.giveUp.tokens
  | c :: cs =>
    match s.tag with
    | none => markupTokensFrom (s.open_ c) cs
    | some [] =>
      if startsTag c then markupTokensFrom { s with tag := some [c] } cs
      else markupTokensFrom (s.giveUp.open_ c) cs
    | some t =>
      if c == ']' then
        { s with slashes := 0 }.tokens ++ .bracket s.slashes t.reverse :: markupTokensFrom {} cs
      else if c == '[' then markupTokensFrom (s.giveUp.open_ c) cs
      else markupTokensFrom { s with tag := some (c :: t) } cs

def markupTokens (cs : List Char) : List MarkupToken :=
  markupTokensFrom {} cs

/-- Write a text so that no tag is found in it. A single backslash at its end is written twice. -/
def escape (s : String) : String :=
  let cs := (markupTokens s.toList).flatMap fun
    | .chars cs => cs
    | .bracket n tag => List.replicate (2 * n + 1) '\\' ++ '[' :: tag ++ [']']
  String.ofList (match cs.reverse with
    | '\\' :: '\\' :: _ => cs
    | '\\' :: _ => cs ++ ['\\']
    | _ => cs)

/-- Control characters that are never printed: bell, backspace, and the ways to
move on that are no line feed. -/
def isDropped (c : Char) : Bool :=
  [7, 8, 11, 12, 13].contains c.toNat

/-- Take the backslash off a bracket that opens no tag. -/
def plainBrackets : List Char → List Char
  | '\\' :: '[' :: cs => '[' :: plainBrackets cs
  | c :: cs => c :: plainBrackets cs
  | [] => []

def shownChars (pictures : Bool) (cs : List Char) : List Char :=
  (if pictures then withPictures cs else cs).filter fun c => !isDropped c

/-- The tags that are open, the last first, and what is shown so far. -/
structure MarkupState where
  open_ : List String := []
  shown : List Char := []

def markupFailure (message : String) : Failure :=
  .reported (.other "MarkupError") message

/-- The name of a tag, which ends before the first equals sign. -/
def tagName (tag : List Char) : String :=
  String.ofList (tag.takeWhile (· != '='))

namespace MarkupState

def tag (s : MarkupState) (position : Nat) (tag : List Char) : Except Failure MarkupState :=
  match (tagName tag).toList with
  | '/' :: name =>
    let name := Text.trim (String.ofList name)
    if name == "" then
      match s.open_ with
      | [] =>
        .error (markupFailure ("closing tag '[/]' at position " ++ toString position
          ++ " has nothing to close"))
      | _ :: rest => .ok { s with open_ := rest }
    else if s.open_.contains (normalStyle name) then
      .ok { s with open_ := s.open_.erase (normalStyle name) }
    else
      .error (markupFailure ("closing tag '[" ++ String.ofList tag ++ "]' at position "
        ++ toString position ++ " doesn't match any open tag"))
  | name => .ok { s with open_ := normalStyle (String.ofList name) :: s.open_ }

def run (pictures : Bool) (s : MarkupState) (position : Nat) : List MarkupToken →
    Except Failure MarkupState
  | [] => .ok s
  | .chars cs :: ts =>
    run pictures { s with shown := s.shown ++ shownChars pictures (plainBrackets cs) }
      (position + cs.length) ts
  | .bracket n cs :: ts =>
    let next := position + n + cs.length + 2
    let s := { s with shown := s.shown ++ List.replicate (n / 2) '\\' }
    if n % 2 = 1 then
      run pictures { s with shown := s.shown ++ shownChars pictures ('[' :: cs ++ [']']) } next ts
    else
      match s.tag (position + n) cs with
      | .ok s => run pictures s next ts
      | .error f => .error f

end MarkupState

def rendered (pictures : Bool) (s : String) : Except Failure (List Char) :=
  (MarkupState.run pictures {} 0 (markupTokens s.toList)).map (·.shown)

end ImportAudit.Console
