/-!
# Blank characters

The blanks are the white space characters of Unicode together with the four separators of ASCII.
Trimming takes blanks off both ends, and `words` cuts a text at every run of blanks.
-/

namespace ImportAudit.Text

def isBlank (c : Char) : Bool :=
  let n := c.toNat
  (decide (9 ≤ n) && decide (n ≤ 13)) || (decide (0x1c ≤ n) && decide (n ≤ 0x20))
    || n == 0x85 || n == 0xa0 || n == 0x1680 || (decide (0x2000 ≤ n) && decide (n ≤ 0x200a))
    || n == 0x2028 || n == 0x2029 || n == 0x202f || n == 0x205f || n == 0x3000

def trimList (p : Char → Bool) (cs : List Char) : List Char :=
  ((cs.dropWhile p).reverse.dropWhile p).reverse

def trimWith (p : Char → Bool) (s : String) : String :=
  String.ofList (trimList p s.toList)

def trim (s : String) : String :=
  trimWith isBlank s

def removeBlanks (s : String) : String :=
  String.ofList (s.toList.filter fun c => !isBlank c)

/-- Cut a list at every character of a class; the pieces between two cuts may be empty. -/
def splitList (p : Char → Bool) : List Char → List (List Char)
  | [] => [[]]
  | c :: cs =>
    if p c then [] :: splitList p cs
    else
      match splitList p cs with
      | [] => [[c]]
      | piece :: pieces => (c :: piece) :: pieces

def splitAt (sep : Char) (s : String) : List String :=
  (splitList (· == sep) s.toList).map String.ofList

/-- The pieces between runs of blanks, none of them empty. -/
def words (s : String) : List String :=
  ((splitList isBlank s.toList).filter fun piece => !piece.isEmpty).map String.ofList

end ImportAudit.Text
