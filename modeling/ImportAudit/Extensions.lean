import ImportAudit.Failure
import ImportAudit.Text.Lower

/-!
# File name extensions

An extension is written with or without its dot and in any case. Its normal form is in lower case,
starts with a dot, and has no blanks around it.
-/

namespace ImportAudit

namespace Value

/-- The items of a value that can be gone through: the characters of a text, the
keys of a mapping. -/
def items : Value → Except Failure (List Value)
  | str s => .ok (s.toList.map fun c => str (String.singleton c))
  | torn t => .ok (t.points.map fun p => ofPoints [p])
  | bytes bs => .ok (bs.map fun (b : UInt8) => int b.toNat)
  | list xs => .ok xs
  | tuple xs => .ok xs
  | set xs => .ok xs
  | map es => .ok (es.map (·.1))
  | v => .error (Failure.notIterable v)

end Value

namespace Extensions

def normal? (e : String) : Option String :=
  let e := Text.lower (Text.trim e)
  match e.toList with
  | [] => none
  | '.' :: _ => some e
  | _ => some ("." ++ e)

/-- The normal forms of extensions, each once, in the order of their first occurrence. -/
def normalize (es : List String) : List String :=
  (es.filterMap normal?).eraseDups

/-- The text that an item of a list of extensions is. No name ends in a text that cannot be encoded,
so that it counts for nothing. -/
def text : Value → Except Failure String
  | .str s => .ok s
  | .torn _ => .ok ""
  | .bytes bs =>
    if bs.all fun b => Text.isBlank (Char.ofNat b.toNat) then .ok ""
    else .error (.wrongType "startswith first arg must be bytes or a tuple of bytes, not str")
  | v => .error (Failure.lacks v "strip")

def ofValue (v : Value) : Except Failure (List String) := do
  (← v.items).mapM text

/-- Whether a file name ends with an extension, in any case. -/
def allow (es : List String) (name : String) : Bool :=
  let name := (Text.lower name).toList.reverse
  (normalize es).any fun e => e.toList.reverse.isPrefixOf name

def default : List String := ["java"]

end Extensions

end ImportAudit
