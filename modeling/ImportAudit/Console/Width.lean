import ImportAudit.Console.WidthTable
import ImportAudit.Text.Ranges

/-!
# Widths on a terminal

Text is measured in cells. Most characters take one, control characters and marks none,
and pictures and the characters of East Asian scripts two. A joiner takes the character
after it into the glyph before it.
-/

namespace ImportAudit.Console

def charWidth (c : Char) : Nat :=
  let n := c.toNat
  if n < 0x20 ∨ (0x7f ≤ n ∧ n < 0xa0) then 0
  else if n < 0x300 then if n = 0xad then 0 else 1
  else if Text.inRanges zeroWidthRanges n then 0
  else if Text.inRanges wideRanges n then 2
  else 1

/-- Joins two characters to one glyph. -/
def joiner : Char := Char.ofNat 0x200d

/-- Asks for the glyph before it as a picture. -/
def presentationMark : Char := Char.ofNat 0xfe0f

def widens (c : Char) : Bool :=
  Text.inRanges presentedWideRanges c.toNat

structure Glyph where
  chars : List Char
  width : Nat

/-- Go through a text: the glyphs so far, the last first; the last character that took a cell and
was not widened; and whether the next character is joined. -/
def glyphsFrom (done : List Glyph) (last : Option Char) (joined : Bool) : List Char → List Glyph
  | [] => done.reverse
  | c :: cs =>
    match done with
    | [] => glyphsFrom [⟨[c], charWidth c⟩] (if charWidth c = 0 then none else some c) false cs
    | g :: gs =>
      let extended (more : Nat) : List Glyph := ⟨g.chars ++ [c], g.width + more⟩ :: gs
      if joined then glyphsFrom (extended 0) last false cs
      else if c == joiner then glyphsFrom (extended 0) last true cs
      else if c == presentationMark then
        if last.any widens then glyphsFrom (extended 1) none false cs
        else glyphsFrom (extended 0) last false cs
      else if charWidth c = 0 then glyphsFrom (extended 0) last false cs
      else glyphsFrom (⟨[c], charWidth c⟩ :: done) (some c) false cs

def glyphs (cs : List Char) : List Glyph :=
  glyphsFrom [] none false cs

/-- The cells of a text after the character `last`; `skip` says that the next
character is joined. -/
def cellsFrom (last : Option Char) (skip : Bool) : List Char → Nat
  | [] => 0
  | c :: cs =>
    if skip then cellsFrom last false cs
    else if c == joiner then cellsFrom last true cs
    else if c == presentationMark then
      match last with
      | none => cellsFrom none false cs
      | some l => (if widens l then 1 else 0) + cellsFrom none false cs
    else if charWidth c = 0 then cellsFrom last false cs
    else charWidth c + cellsFrom (some c) false cs

def cells (cs : List Char) : Nat :=
  cellsFrom none false cs

/-- The glyphs at the start of a text that fill `room` cells. Half of a wide glyph is a blank. -/
def fill : Nat → List Glyph → List Char
  | _, [] => []
  | 0, _ :: _ => []
  | room + 1, g :: gs =>
    if room + 1 < g.width then [' '] else g.chars ++ fill (room + 1 - g.width) gs

def setCells (width : Nat) (cs : List Char) : List Char :=
  let size := cells cs
  if size ≤ width then cs ++ List.replicate (width - size) ' ' else fill width (glyphs cs)

def crop (width : Nat) (cs : List Char) : List Char :=
  if cells cs ≤ width then cs else fill width (glyphs cs)

def chop (width : Nat) (cs : List Char) : List (List Char) :=
  go [] 0 (glyphs cs)
where
  go (line : List Char) (size : Nat) : List Glyph → List (List Char)
    | [] => if size = 0 then [] else [line]
    | g :: gs =>
      if width < size + g.width then line :: go g.chars g.width gs
      else go (line ++ g.chars) (size + g.width) gs

end ImportAudit.Console
