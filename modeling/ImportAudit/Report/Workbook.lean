/-!
# Workbooks

A workbook of one sheet: the cells that are written, the range that is merged,
and the cells that are links.
-/

namespace ImportAudit

inductive CellStyle
  | title
  | plain
  | wrapped
  deriving DecidableEq, Repr

inductive CellContent
  | string (s : String)
  | number (text : String)
  | boolean (b : Bool)
  | formula (text : String)
  | blank
  deriving DecidableEq, Repr

structure Cell where
  row : Nat
  column : Nat
  content : CellContent
  style : CellStyle
  deriving DecidableEq, Repr

structure Workbook where
  sheet : String
  cells : List Cell := []
  /-- The number of columns over which the first row is merged, if it is. -/
  mergedColumns : Option Nat := none
  links : List (Nat × Nat) := []
  deriving DecidableEq, Repr, Inhabited

namespace Workbook

/-- The letters of a column: after the last letter of the alphabet come two letters, and so on. -/
def columnLetters (column : Nat) : String :=
  String.ofList (go column (column + 1) [])
where
  go : Nat → Nat → List Char → List Char
    | 0, n, letters => if n = 0 then letters else Char.ofNat ('A'.toNat + (n - 1) % 26) :: letters
    | fuel + 1, n, letters =>
      if n = 0 then letters
      else go fuel ((n - 1) / 26) (Char.ofNat ('A'.toNat + (n - 1) % 26) :: letters)

def cellName (row column : Nat) : String :=
  columnLetters column ++ toString (row + 1)

def needsEscape (c : Char) : Bool :=
  let n := c.toNat
  n < 9 || (10 < n && n < 0x20) || n == 0xfffe || n == 0xffff

def hex4 (n : Nat) : List Char :=
  [n / 0x1000, n / 0x100, n / 0x10, n].map fun d =>
    let d := d % 16
    if d < 10 then Char.ofNat ('0'.toNat + d) else Char.ofNat ('A'.toNat + d - 10)

def isHex (c : Char) : Bool :=
  c.isDigit || (decide ('a' ≤ c) && decide (c ≤ 'f')) || (decide ('A' ≤ c) && decide (c ≤ 'F'))

/-- A text as it is stored in a file: characters without a form of their own are written by their
number, and a text that looks like that is marked. -/
def storedText (s : String) : String :=
  String.ofList (go s.toList)
where
  go : List Char → List Char
    | '_' :: 'x' :: a :: b :: c :: d :: '_' :: cs =>
      if isHex a && isHex b && isHex c &&
        isHex d then "_x005F_x".toList ++ [a, b, c, d, '_'] ++ go cs
      else '_' :: go ('x' :: a :: b :: c :: d :: '_' :: cs)
    | c :: cs => if needsEscape c then '_' :: 'x' :: hex4 c.toNat ++ '_' :: go cs else c :: go cs
    | [] => []

end Workbook

end ImportAudit
