import ImportAudit.Text.Quoted

/-!
# Text encodings

Decoding is strict: it gives the one text whose encoding the bytes are, or the place and
the reason of the first fault.
-/

namespace ImportAudit.Text

inductive Encoding
  | utf8
  | latin1
  | ascii
  deriving DecidableEq, Repr

inductive DecodeReason
  | invalidStart
  | invalidContinuation
  | unexpectedEnd
  | outOfRange
  | other (text : String)
  deriving DecidableEq, Repr

/-- A fault: the encoding, the faulty bytes, and the position of the first of them. -/
structure DecodeFault where
  encoding : Encoding
  position : Nat
  bytes : List UInt8
  reason : DecodeReason
  deriving DecidableEq, Repr

def Encoding.name : Encoding → String
  | utf8 => "utf-8"
  | latin1 => "latin-1"
  | ascii => "ascii"

def DecodeReason.text : DecodeReason → String
  | invalidStart => "invalid start byte"
  | invalidContinuation => "invalid continuation byte"
  | unexpectedEnd => "unexpected end of data"
  | outOfRange => "ordinal not in range(128)"
  | other s => s

/-- One faulty byte is shown, of several the positions. -/
def DecodeFault.message (f : DecodeFault) : String :=
  let codec := "'" ++ f.encoding.name ++ "' codec can't decode "
  match f.bytes with
  | [b] =>
    codec ++ "byte 0x" ++ String.ofList (hexDigits 2 b.toNat) ++ " in position " ++
      toString f.position ++ ": "
      ++ f.reason.text
  | bs =>
    codec ++ "bytes in position " ++ toString f.position ++ "-" ++
      toString (f.position + bs.length - 1) ++ ": "
      ++ f.reason.text

/-! ## UTF-8 -/

def isContinuation (b : UInt8) : Bool :=
  decide (0x80 ≤ b.toNat) && decide (b.toNat < 0xc0)

def sequenceLength? (b : UInt8) : Option Nat :=
  let n := b.toNat
  if n < 0x80 then some 1
  else if n < 0xc2 then none
  else if n < 0xe0 then some 2
  else if n < 0xf0 then some 3
  else if n < 0xf5 then some 4
  else none

/-- Whether the second byte may follow the first: it continues a character, and the two do not start
an overlong form, a surrogate or a number that is too large. -/
def secondFits (first second : UInt8) : Bool :=
  let a := first.toNat
  let b := second.toNat
  isContinuation second && !(a == 0xe0 && decide (b < 0xa0)) && !(a == 0xed && decide (0xa0 ≤ b))
    && !(a == 0xf0 && decide (b < 0x90)) && !(a == 0xf4 && decide (0x90 ≤ b))

def fitting (first : UInt8) (wanted : Nat) : List UInt8 → Nat
  | [] => 0
  | b :: bs =>
    if wanted = 0 ∨ !secondFits first b then 0
    else 1 + ((bs.take (wanted - 1)).takeWhile isContinuation).length

def decodeSequence (first : UInt8) (rest : List UInt8) : Char :=
  let lead := match rest.length with
    | 0 => first.toNat
    | 1 => first.toNat % 0x20
    | 2 => first.toNat % 0x10
    | _ => first.toNat % 0x08
  Char.ofNat (rest.foldl (fun n b => n * 0x40 + b.toNat % 0x40) lead)

/-- Decode from a position on; every step takes at least one byte. -/
def decodeUtf8 : Nat → Nat → List UInt8 → Except DecodeFault (List Char)
  | _, _, [] => .ok []
  | 0, _, _ :: _ => .ok []
  | fuel + 1, position, b :: bs =>
    match sequenceLength? b with
    | none => .error ⟨.utf8, position, [b], .invalidStart⟩
    | some length =>
      let wanted := length - 1
      let found := fitting b wanted bs
      if found = wanted then
        (decodeUtf8 fuel (position + length) (bs.drop wanted)).map
          (decodeSequence b (bs.take wanted) :: ·)
      else
        let reason := if found = bs.length then DecodeReason.unexpectedEnd else .invalidContinuation
        .error ⟨.utf8, position, b :: bs.take found, reason⟩

/-! ## All encodings -/

def decodeAscii : Nat → List UInt8 → Except DecodeFault (List Char)
  | _, [] => .ok []
  | position, b :: bs =>
    if b.toNat < 0x80 then (decodeAscii (position + 1) bs).map (Char.ofNat b.toNat :: ·)
    else .error ⟨.ascii, position, [b], .outOfRange⟩

def decode (e : Encoding) (bs : List UInt8) : Except DecodeFault String :=
  (match e with
    | .utf8 => decodeUtf8 bs.length 0 bs
    | .latin1 => .ok (bs.map fun (b : UInt8) => Char.ofNat b.toNat)
    | .ascii => decodeAscii 0 bs).map String.ofList

def encodeChar (c : Char) : List UInt8 :=
  let n := c.toNat
  let tail (k : Nat) : UInt8 := UInt8.ofNat (0x80 + n / Nat.pow 0x40 k % 0x40)
  if n < 0x80 then [UInt8.ofNat n]
  else if n < 0x800 then [UInt8.ofNat (0xc0 + n / 0x40), tail 0]
  else if n < 0x10000 then [UInt8.ofNat (0xe0 + n / 0x1000), tail 1, tail 0]
  else [UInt8.ofNat (0xf0 + n / 0x40000), tail 2, tail 1, tail 0]

def encodeUtf8 (s : String) : List UInt8 :=
  s.toList.flatMap encodeChar

def encodeBelow (bound : Nat) (cs : List Char) : Option (List UInt8) :=
  if cs.all fun c => decide (c.toNat < bound) then
    some (cs.map fun c => UInt8.ofNat c.toNat)
  else none

/-- The bytes of a text in an encoding; none if a character of it has none there. -/
def encode? (e : Encoding) (t : String) : Option (List UInt8) :=
  match e with
  | .utf8 => some (encodeUtf8 t)
  | .latin1 => encodeBelow 0x100 t.toList
  | .ascii => encodeBelow 0x80 t.toList

end ImportAudit.Text
