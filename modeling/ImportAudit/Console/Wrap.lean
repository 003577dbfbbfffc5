import ImportAudit.Console.Width
import ImportAudit.Text.Blank

/-!
# Lines that fit a width

A text is broken into lines at its line feeds, and each of them between words where it is too long.
A word that fits no line is folded, or cut with an ellipsis.
-/

namespace ImportAudit.Console

inductive Overflow
  | fold
  | ellipsis
  deriving DecidableEq, Repr

inductive Justify
  | natural
  | left
  | center
  deriving DecidableEq, Repr

def tabSize : Nat := 8

/-- Put blanks for tabs, up to the next tab stop and at least one; `column` is
where the text starts. -/
def expandTabs (column : Nat) : List (List Char) → List Char
  | [] => []
  | [piece] => piece
  | piece :: pieces =>
    let size := column + cells piece + 1
    let size := size + (tabSize - size % tabSize) % tabSize
    piece ++ List.replicate (size - (column + cells piece)) ' ' ++ expandTabs size pieces

def withoutTabs (cs : List Char) : List Char :=
  expandTabs 0 (Text.splitList (· == '\t') cs)

/-- Cut a text after every run of blanks that a word follows. -/
def blankRuns : List Char → List (List Char)
  | [] => []
  | c :: cs =>
    match blankRuns cs with
    | [] => [[c]]
    | w :: ws =>
      if Text.isBlank c && !(w.head?.any Text.isBlank) then [c] :: w :: ws else (c :: w) :: ws

def wordRuns (cs : List Char) : List (List Char) :=
  match blankRuns cs with
  | g :: w :: ws => if g.all Text.isBlank then (g ++ w) :: ws else g :: w :: ws
  | ws => ws

def trimEnd (cs : List Char) : List Char :=
  (cs.reverse.dropWhile Text.isBlank).reverse

/-- The places to break a word that is folded from `start` on. No break stands at the very start. -/
def foldBreaks (start : Nat) : List (List Char) → List Nat
  | [] => []
  | piece :: pieces =>
    (if start = 0 then [] else [start]) ++ foldBreaks (start + piece.length) pieces

/-- The places to break a text before words that do not fit. The next word starts at `start`, and
`used` cells of the line are taken. -/
def breaksFrom (width : Nat) (overflow : Overflow) (start used : Nat) : List (List Char) → List Nat
  | [] => []
  | w :: ws =>
    let size := cells (trimEnd w)
    let next := start + w.length
    if used + size ≤ width then breaksFrom width overflow next (used + cells w) ws
    else if width < size then
      match overflow with
      | .fold =>
        let pieces := chop width w
        foldBreaks start pieces ++
          breaksFrom width overflow next (pieces.getLast?.elim used cells) ws
      | .ellipsis =>
        (if start = 0 then [] else [start]) ++ breaksFrom width overflow next (cells w) ws
    else if used = 0 ∨ start = 0 then breaksFrom width overflow next used ws
    else start :: breaksFrom width overflow next (cells w) ws

/-- Cut a text at places that count from its start; the text itself starts at `start`. -/
def cutAt (start : Nat) (cs : List Char) : List Nat → List (List Char)
  | [] => [cs]
  | p :: ps => cs.take (p - start) :: cutAt p (cs.drop (p - start)) ps

def dropExcess (width : Nat) (cs : List Char) : List Char :=
  let blanks := (cs.reverse.takeWhile Text.isBlank).length
  cs.take (cs.length - min blanks (cs.length - width))

def truncate (width : Nat) (overflow : Overflow) (cs : List Char) : List Char :=
  if cells cs ≤ width then cs
  else
    match overflow with
    | .fold => setCells width cs
    | .ellipsis => setCells (width - 1) cs ++ ['…']

def justify (width : Nat) (overflow : Overflow) (j : Justify) (cs : List Char) : List Char :=
  match j with
  | .natural => truncate width overflow cs
  | .left =>
    let cs := truncate width overflow cs
    cs ++ List.replicate (width - cells cs) ' '
  | .center =>
    let cs := truncate width overflow (trimEnd cs)
    let cs := List.replicate ((width - cells cs) / 2) ' ' ++ cs
    cs ++ List.replicate (width - cells cs) ' '

def wrapLine (width : Nat) (overflow : Overflow) (j : Justify) (cs : List Char) :
    List (List Char) :=
  let cs := withoutTabs cs
  (cutAt 0 cs (breaksFrom width overflow 0 0 (wordRuns cs))).map fun l =>
    justify width overflow j (dropExcess width l)

def wrap (width : Nat) (overflow : Overflow) (j : Justify) (cs : List Char) : List (List Char) :=
  (Text.splitList (· == '\n') cs).flatMap (wrapLine width overflow j)

end ImportAudit.Console
