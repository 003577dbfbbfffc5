import ImportAudit.Text.Quoted

/-!
# Texts with half a surrogate pair

An escape in a document can name half of a surrogate pair, which is no character. A text with such
a half in it can be held and compared, but it has no encoding.
-/

namespace ImportAudit.Text

/-- A character, or half of a surrogate pair by its number from the first one on. -/
inductive Point
  | char (c : Char)
  | half (n : Fin 0x800)
  deriving DecidableEq, Repr

namespace Point

def isHalf : Point → Bool
  | char _ => false
  | half _ => true

def toNat : Point → Nat
  | char c => c.toNat
  | half n => 0xd800 + n.val

def ofNat (n : Nat) : Point :=
  if h : 0xd800 ≤ n ∧ n < 0xe000 then half ⟨n - 0xd800, by omega⟩ else char (Char.ofNat n)

theorem ofNat_toNat (c : Char) : ofNat c.toNat = char c := by
  have hvalid : c.toNat < 0xd800 ∨ (0xdfff < c.toNat ∧ c.toNat < 0x110000) := c.valid
  unfold ofNat
  rw [dif_neg (by omega), Char.ofNat_toNat]

def char? : Point → Option Char
  | char c => some c
  | half _ => none

end Point

def whole? (ps : List Point) : Option String :=
  (ps.mapM Point.char?).map String.ofList

theorem whole?_chars (cs : List Char) : whole? (cs.map .char) = some (String.ofList cs) := by
  have hchars : (cs.map Point.char).mapM Point.char? = some cs := by
    induction cs with
    | nil => rfl
    | cons c cs ih => simp [Point.char?, ih]
  rw [whole?, hchars]
  rfl

/-- A text with at least one half in it. -/
structure Torn where
  points : List Point
  torn : whole? points = none
  deriving DecidableEq, Repr

/-- Why a text cannot be encoded: the first halves that stand next to each other, and how many
characters come before them. -/
structure EncodeFault where
  position : Nat
  halves : List (Fin 0x800)
  deriving DecidableEq, Repr

namespace EncodeFault

def escape (n : Fin 0x800) : String :=
  String.ofList ('\\' :: 'u' :: hexDigits 4 (Point.half n).toNat)

def message (f : EncodeFault) : String :=
  let codec := "'utf-8' codec can't encode "
  let reason := ": surrogates not allowed"
  match f.halves with
  | [n] => codec ++ "character '" ++ escape n ++ "' in position " ++ toString f.position ++ reason
  | ns => codec ++ "characters in position " ++ toString f.position ++ "-"
      ++ toString (f.position + ns.length - 1) ++ reason

end EncodeFault

namespace Torn

def start (t : Torn) : List Char :=
  (t.points.takeWhile fun p => !p.isHalf).filterMap Point.char?

/-- The first halves that stand next to each other. -/
def halves (t : Torn) : List (Fin 0x800) :=
  ((t.points.dropWhile fun p => !p.isHalf).takeWhile Point.isHalf).filterMap fun
    | .char _ => none
    | .half n => some n

def fault (t : Torn) : EncodeFault :=
  ⟨t.start.length, t.halves⟩

def mended (t : Torn) : String :=
  String.ofList (t.points.map fun p => p.char?.getD (Char.ofNat 0xfffd))

/-- The quoted form, in which halves are escapes. -/
def quoted (t : Torn) : String :=
  let q := quoteMark (t.points.filterMap Point.char?)
  let shown : Point → List Char
    | .char c => quoteChar q c
    | .half n => (EncodeFault.escape n).toList
  String.ofList (q :: t.points.flatMap shown ++ [q])

end Torn

end ImportAudit.Text
