import ImportAudit.Console.Wrap
import ImportAudit.Decimal.Double

/-!
# Rules, panels and grids

Shapes that are drawn with characters: a line with a title in it, a box around a text, and
a grid of cells under headings.
-/

namespace ImportAudit.Console

def block (width : Nat) (overflow : Overflow) (j : Justify) (cs : List Char) : List (List Char) :=
  (wrap width overflow j cs).map (setCells width)

/-! ## Rules -/

def rule (width : Nat) (title : List Char) : List Char :=
  if width ≤ 4 then List.replicate width '─'
  else
    let title :=
      truncate (width - 4) .ellipsis (withoutTabs (title.map fun c => if c == '\n' then ' ' else c))
    let side := (width - cells title) / 2
    let left := List.replicate (side - 1) '─'
    let right := List.replicate (min (side + 1) (width - left.length - cells title)) '─'
    setCells width (left ++ ' ' :: title ++ ' ' :: right)

/-! ## Panels -/

/-- A box around a text, with a blank line above and below it and two blanks on each side. -/
def panel (width : Nat) (cs : List Char) : List (List Char) :=
  let inner := width - 2
  let bar := List.replicate inner '─'
  let blank := List.replicate inner ' '
  let lines := (block (inner - 4) .fold .natural cs).map fun l =>
    setCells inner (' ' :: ' ' :: l ++ [' ', ' '])
  ('╭' :: bar ++ ['╮']) :: ([blank] ++ lines ++ [blank]).map
    (fun l => '│' :: l ++ ['│']) ++ ['╰' :: bar ++ ['╯']]

/-! ## Grids -/

structure BorderLine where
  left : Char
  fill : Char
  divider : Char
  right : Char

structure Border where
  top : BorderLine
  heading : BorderLine
  underHeading : BorderLine
  row : BorderLine
  bottom : BorderLine

def Border.heavyHead : Border :=
  { top := ⟨'┏', '━', '┳', '┓'⟩
    heading := ⟨'┃', ' ', '┃', '┃'⟩
    underHeading := ⟨'┡', '━', '╇', '┩'⟩
    row := ⟨'│', ' ', '│', '│'⟩
    bottom := ⟨'└', '─', '┴', '┘'⟩ }

def Border.ascii : Border :=
  { top := ⟨'+', '-', '-', '+'⟩
    heading := ⟨'|', ' ', '|', '|'⟩
    underHeading := ⟨'|', '-', '+', '|'⟩
    row := ⟨'|', ' ', '|', '|'⟩
    bottom := ⟨'+', '-', '-', '+'⟩ }

structure Column where
  heading : List Char
  cells : List (List Char)

def endsMeasuredLine (c : Char) : Bool :=
  [0x0a, 0x0b, 0x0c, 0x0d, 0x1c, 0x1d, 0x1e, 0x85, 0x2028, 0x2029].contains c.toNat

def measure (cs : List Char) : Nat :=
  ((Text.splitList endsMeasuredLine cs).map cells).foldl max 0

def padding : Nat := 2

/-- The width that a column asks for, at most `limit`. -/
def Column.width (limit : Nat) (c : Column) : Nat :=
  if limit ≤ padding then limit
  else ((c.heading :: c.cells).map fun t => min limit (min limit (measure t) + padding)).foldl max 0

/-- Take a total off values, in parts by ratios and at most a maximum from each. -/
def reduceFrom (total ratios : Nat) : List (Nat × Nat × Nat) → List Nat
  | [] => []
  | (ratio, maximum, value) :: rest =>
    if ratio = 0 ∨ ratios = 0 then value :: reduceFrom total ratios rest
    else
      let part := min maximum (Double.roundDiv (ratio * total) ratios)
      (value - part) :: reduceFrom (total - part) (ratios - ratio) rest

def reduce (total : Nat) (slots : List (Nat × Nat × Nat)) : List Nat :=
  let slots :=
    slots.map fun (ratio, maximum, value) => (if maximum = 0 then 0 else ratio, maximum, value)
  let ratios := (slots.map (·.1)).foldl (· + ·) 0
  if ratios = 0 then slots.map fun s => s.2.2 else reduceFrom total ratios slots

/-- Make the widest columns narrower until they are as wide as the next ones,
and go on until all fit. -/
def collapse (limit : Nat) : Nat → List Nat → List Nat
  | 0, widths => widths
  | fuel + 1, widths =>
    let total := widths.foldl (· + ·) 0
    if total ≤ limit then widths
    else
      let widest := widths.foldl max 0
      let second := (widths.filter (· != widest)).foldl max 0
      let excess := total - limit
      if widest = second then widths
      else
        collapse limit fuel
          (reduce excess
            (widths.map fun w => (if w = widest then 1 else 0, min excess (widest - second), w)))

def columnWidths (limit : Nat) (columns : List Column) : List Nat :=
  let widths := columns.map fun c => max 1 (c.width limit)
  let total (ws : List Nat) : Nat := ws.foldl (· + ·) 0
  if total widths ≤ limit then widths
  else
    let widths := collapse limit (total widths) widths
    let widths :=
      if total widths ≤ limit then widths
      else reduce (total widths - limit) (widths.map fun w => (1, w, w))
    (columns.zip widths).map fun (c, w) => c.width w

def cellLines (width : Nat) (cs : List Char) : List (List Char) :=
  (block (width - padding) .ellipsis .left cs).map fun l => setCells width (' ' :: l ++ [' '])

def BorderLine.join (b : BorderLine) (parts : List (List Char)) : List Char :=
  b.left :: (parts.intersperse [b.divider]).flatten ++ [b.right]

def BorderLine.draw (b : BorderLine) (widths : List Nat) : List Char :=
  b.join (widths.map fun w => List.replicate w b.fill)

/-- The lines of a row of cells. Cells with fewer lines than others are filled
up below, headings above. -/
def rowLines (b : BorderLine) (isHeading : Bool) (widths : List Nat) (texts : List (List Char)) :
    List (List Char) :=
  let parts := (widths.zip texts).map fun (w, t) => (w, cellLines w t)
  let height := (parts.map fun p => p.2.length).foldl max 0
  let filled := parts.map fun (w, ls) =>
    let blanks := List.replicate (height - ls.length) (List.replicate w ' ')
    if isHeading then blanks ++ ls else ls ++ blanks
  (List.range height).map fun i => b.join (filled.map fun ls => ls.getD i [])

/-- The lines of a grid, with a title above it if there is one. Without columns
there is one empty line. -/
def grid (width : Nat) (b : Border) (title : Option (List Char)) (columns : List Column) :
    List (List Char) :=
  if columns.isEmpty then [[]]
  else
    let extra := columns.length + 1
    let widths := columnWidths (width - extra) columns
    let titleLines := title.toList.flatMap (wrap (widths.foldl (· + ·) extra) .fold .center)
    let rows := (List.range ((columns.map fun c => c.cells.length).foldl max 0)).flatMap fun i =>
      rowLines b.row false widths (columns.map fun c => c.cells.getD i [])
    titleLines ++ [b.top.draw widths] ++ rowLines b.heading true widths (columns.map (·.heading))
      ++ [b.underHeading.draw widths] ++ rows ++ [b.bottom.draw widths]

end ImportAudit.Console
