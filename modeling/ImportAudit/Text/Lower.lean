import ImportAudit.Text.LowerTable

/-!
# Lower-casing

The full lower-case mapping of Unicode: every capital has one lower-case form, except
that the dotted capital I becomes two characters and that a capital sigma becomes the
final sigma at the end of a word.
-/

namespace ImportAudit.Text

/-- The lower-case form of a character that has one of a single character, else the character. -/
def lowerChar (c : Char) : Char :=
  let n := c.toNat
  if n < 0x80 then c.toLower
  else
    match lowerRows.find? fun r => decide (r.first ≤ n) && decide (n ≤ r.last) &&
      (n - r.first) % r.step == 0 with
    | some r => Char.ofNat (Int.toNat (n + r.shift))
    | none => c

/-- Whether the character has case and is not skipped when looking for the end of a word. -/
def isCased (c : Char) : Bool :=
  inRanges casedRanges c.toNat

def isCaseIgnorable (c : Char) : Bool :=
  inRanges caseIgnorableRanges c.toNat

/-- Whether the first character that is not skipped has case. -/
def meetsCased (cs : List Char) : Bool :=
  match cs.dropWhile isCaseIgnorable with
  | [] => false
  | c :: _ => isCased c

/-- Lower-case a text of which `before` is what precedes it, nearest character first. -/
def lowerFrom (before : List Char) : List Char → List Char
  | [] => []
  | c :: cs =>
    let low :=
      if c.toNat == 0x3a3 then
        if meetsCased before && !meetsCased cs then [Char.ofNat 0x3c2] else [Char.ofNat 0x3c3]
      else if c.toNat == 0x130 then ['i', Char.ofNat 0x307]
      else [lowerChar c]
    low ++ lowerFrom (c :: before) cs

def lower (s : String) : String :=
  String.ofList (lowerFrom [] s.toList)

end ImportAudit.Text
