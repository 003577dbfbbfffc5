/-!
# Binary floating point numbers of 64 bits

A finite number is `mantissa · 2 ^ exponent` with a mantissa below `2 ^ 53` and an exponent of at
least `-1074`, in lowest place: a nonzero number has either a mantissa of 53 bits or the least
exponent. A quotient of whole numbers is read as the nearest such number, and of two that are
equally near as the one with the even mantissa.
-/

namespace ImportAudit

inductive Double
  | nan
  | infinity (negative : Bool)
  | finite (negative : Bool) (mantissa : Nat) (exponent : Int)
  deriving DecidableEq, Repr, Inhabited

namespace Double

def precision : Nat := 53

def minExponent : Int := -1074

def maxExponent : Int := 971

def zero : Double := finite false 0 0

/-- The whole number nearest to a quotient, a half going to the even neighbour. -/
def roundDiv (num den : Nat) : Nat :=
  let q := num / den
  let twice := 2 * (num % den)
  if twice < den then q
  else if den < twice then q + 1
  else if q % 2 = 0 then q else q + 1

def bitLength (n : Nat) : Nat :=
  if n = 0 then 0 else Nat.log2 n + 1

def scaled (num den : Nat) (exponent : Int) : Nat × Nat :=
  if exponent < 0 then (num * Nat.pow 2 exponent.natAbs, den)
  else (num, den * Nat.pow 2 exponent.natAbs)

/-- The exponent at which a positive quotient has a mantissa of 53 bits. -/
def quotientExponent (num den : Nat) : Int :=
  -- The guess is the right exponent or one below it.
  let guess : Int := (bitLength num : Int) - (bitLength den : Int) - precision
  let (n, d) := scaled num den guess
  if n < Nat.pow 2 precision * d then guess else guess + 1

/-- The number with a mantissa at an exponent. A mantissa that was rounded up to
54 bits is halved. -/
def ofMantissa (negative : Bool) (mantissa : Nat) (exponent : Int) : Double :=
  let (mantissa, exponent) :=
    if mantissa = Nat.pow 2 precision then (Nat.pow 2 (precision - 1), exponent + 1)
    else (mantissa, exponent)
  if mantissa = 0 then finite negative 0 0
  else if maxExponent < exponent then infinity negative
  else finite negative mantissa exponent

def ofQuotient (negative : Bool) (num den : Nat) : Double :=
  if num = 0 then finite negative 0 0
  else
    let exponent := max (quotientExponent num den) minExponent
    let (n, d) := scaled num den exponent
    ofMantissa negative (roundDiv n d) exponent

/-- The number nearest to `digits · 10 ^ power`. Powers far outside the range are not computed. -/
def ofDecimal (negative : Bool) (digits : Nat) (power : Int) : Double :=
  if digits = 0 then finite negative 0 0
  else
    let size : Int := (Nat.toDigits 10 digits).length + power
    if 400 < size then infinity negative
    else if size < -400 then finite negative 0 0
    else if 0 ≤ power then ofQuotient negative (digits * Nat.pow 10 power.natAbs) 1
    else ofQuotient negative digits (Nat.pow 10 power.natAbs)

def ofInt (n : Int) : Double :=
  ofQuotient (decide (n < 0)) n.natAbs 1

def quotient (mantissa : Nat) (exponent : Int) : Nat × Nat :=
  if exponent < 0 then (mantissa, Nat.pow 2 exponent.natAbs)
  else (mantissa * Nat.pow 2 exponent.natAbs, 1)

def isZero : Double → Bool
  | finite _ 0 _ => true
  | _ => false

def signed (negative : Bool) (n : Nat) : Int :=
  if negative then -(n : Int) else n

/-- Whether one number is less than another. Nothing is less than, or more than,
what is not a number. -/
def lt : Double → Double → Bool
  | nan, _ => false
  | _, nan => false
  | infinity a, infinity b => a && !b
  | infinity a, finite .. => a
  | finite .., infinity b => !b
  | finite a m e, finite b n f =>
    let (p, q) := quotient m e
    let (r, s) := quotient n f
    decide (signed a (p * s) < signed b (r * q))

/-- Whether two numbers are equal as numbers: both zeros are, and what is not a
number is equal to nothing. -/
def eq : Double → Double → Bool
  | nan, _ => false
  | _, nan => false
  | a, b => !lt a b && !lt b a

def le (a b : Double) : Bool := lt a b || eq a b

/-! ## Sums and products -/

def ofRational (num : Int) (den : Nat) : Double :=
  ofQuotient (decide (num < 0)) num.natAbs den

/-- The sum of two numbers, of which none is infinite. -/
def add : Double → Double → Double
  | finite s m e, finite t n f =>
    let (a, b) := quotient m e
    let (c, d) := quotient n f
    let signed (negative : Bool) (n : Nat) : Int := if negative then -(n : Int) else n
    ofRational (signed s (a * d) + signed t (c * b)) (b * d)
  | _, _ => nan

/-- The product of two numbers, of which none is infinite. -/
def mul : Double → Double → Double
  | finite s m e, finite t n f =>
    let (a, b) := quotient m e
    let (c, d) := quotient n f
    ofQuotient (s != t) (a * c) (b * d)
  | _, _ => nan

def neg : Double → Double
  | nan => nan
  | infinity s => infinity !s
  | finite s m e => finite (!s) m e

/-! ## The fewest digits that read back -/

def scaledTen (num den : Nat) (power : Int) : Nat × Nat :=
  if 0 ≤ power then (num, den * Nat.pow 10 power.natAbs) else (num * Nat.pow 10 power.natAbs, den)

/-- The power of ten just above a positive quotient: the least `k` with `num / den < 10 ^ k`. -/
def decimalSize (num den : Nat) : Int :=
  -- The quotient lies between the powers `guess - 1` and `guess + 1`.
  let guess : Int := ((Nat.toDigits 10 num).length : Int) - (Nat.toDigits 10 den).length
  let (n, d) := scaledTen num den guess
  if n < d then guess else guess + 1

/-- The two whole numbers around a quotient, nearest first; of two that are
equally near the even one. -/
def around (n d : Nat) : List Nat :=
  let low := n / d
  if 2 * (n % d) < d || (2 * (n % d) = d && low % 2 = 0) then [low, low + 1] else [low + 1, low]

/-- Of the decimals with `count` digits, the two neighbours of a number that
read back as it, nearest first. -/
def neighbours (mantissa : Nat) (exponent : Int) (count : Nat) : List (Nat × Int) :=
  let (num, den) := quotient mantissa exponent
  let power : Int := decimalSize num den - count
  let (n, d) := scaledTen num den power
  ((around n d).map fun digits => (digits, power)).filter fun c =>
    ofDecimal false c.1 c.2 == finite false mantissa exponent

def dropZeros : Nat → Nat × Int → Nat × Int
  | 0, c => c
  | fuel + 1, (digits, power) =>
    if digits ≠ 0 ∧ digits % 10 = 0 then dropZeros fuel (digits / 10, power + 1)
    else (digits, power)

/-- The decimal with the fewest digits that reads back as a positive finite number: digits and power
of ten. Seventeen digits always do. -/
def shortest (mantissa : Nat) (exponent : Int) : Nat × Int :=
  dropZeros 20
    (((List.range 17).findSome? fun i => (neighbours mantissa exponent (i + 1)).head?).getD (0, 0))

end Double

end ImportAudit
