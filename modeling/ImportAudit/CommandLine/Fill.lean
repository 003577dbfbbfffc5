import ImportAudit.Text.Blank

/-!
# Filled paragraphs

A paragraph is filled into lines of a width. Lines end at blanks and after the hyphens of hyphenated
words; a word that fits on no line is cut.
-/

namespace ImportAudit.CommandLine

/-- Whether a hyphen with these characters before it, the last first, and after it divides a word:
two letters stand before it and two, perhaps with a hyphen between them, follow. -/
def divides (before after : List Char) : Bool :=
  (match before with
    | a :: b :: _ => a.isAlpha && b.isAlpha
    | _ => false)
  && match after with
    | a :: '-' :: b :: _ => a.isAlpha && b.isAlpha
    | a :: b :: _ => a.isAlpha && b.isAlpha
    | _ => false

/-- Cut a word after the hyphens that divide it; `before` holds the characters of the
current part, the last first. -/
def hyphenParts (before : List Char) : List Char → List (List Char)
  | [] => if before.isEmpty then [] else [before.reverse]
  | c :: cs =>
    if c == '-' && divides before cs then (c :: before).reverse :: hyphenParts [] cs
    else hyphenParts (c :: before) cs

def pieces (text : String) : List (List Char) :=
  ((Text.words text).map fun w => hyphenParts [] w.toList).intersperse [[' ']] |>.flatten

/-- Where a piece that is too long is cut: after its last hyphen that fits, or
where the room ends. -/
def cutPlace (room : Nat) (piece : List Char) : Nat :=
  let fitting := piece.take room
  let upToHyphen := (fitting.reverse.dropWhile (· != '-')).length
  if 1 < upToHyphen ∧ (fitting.take (upToHyphen - 1)).any (· != '-') then upToHyphen else room

def closeLine (line : List Char) : List Char :=
  (line.reverse.dropWhile (· == ' ')).reverse

/-- Fill lines with pieces; `line` is the line so far. Every step takes a piece
or makes one shorter. -/
def fillLines (width : Nat) : Nat → List Char → List (List Char) → List (List Char)
  | 0, line, _ => [line]
  | _, line, [] => if line.isEmpty then [] else [closeLine line]
  | fuel + 1, line, p :: ps =>
    if line.isEmpty && p == [' '] then fillLines width fuel [] ps
    else if line.length + p.length ≤ width then fillLines width fuel (line ++ p) ps
    else if width < p.length then
      let place := max 1 (cutPlace (width - line.length) p)
      if line.length < width ∨ line.isEmpty then
        closeLine (line ++ p.take place) :: fillLines width fuel [] (p.drop place :: ps)
      else closeLine line :: fillLines width fuel [] (p :: ps)
    else closeLine line :: fillLines width fuel [] (p :: ps)

def filled (width : Nat) (text : String) : List String :=
  let ps := pieces text
  (fillLines width (2 * (text.length + ps.length) + 1) [] ps).map String.ofList

end ImportAudit.CommandLine
