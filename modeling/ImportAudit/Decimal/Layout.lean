import ImportAudit.Decimal.Double

/-!
# The text of floating point numbers

Numbers from one ten-thousandth up to below ten to the sixteenth are written positionally and keep a
decimal point; others have an exponent with a sign and at least two digits.
-/

namespace ImportAudit.Double

def digitChars (n : Nat) : List Char := Nat.toDigits 10 n

def exponentText (e : Int) : String :=
  let ds := digitChars e.natAbs
  (if e < 0 then "-" else "+") ++ String.ofList (List.replicate (2 - ds.length) '0' ++ ds)

def layout (digits : Nat) (power : Int) : String :=
  let ds := digitChars digits
  -- The exponent of the first digit.
  let top : Int := power + ds.length - 1
  if -4 ≤ top ∧ top < 16 then
    if 0 ≤ power then String.ofList (ds ++ List.replicate power.natAbs '0') ++ ".0"
    else if 0 ≤ top then
      String.ofList (ds.take (top.natAbs + 1)) ++ "." ++ String.ofList (ds.drop (top.natAbs + 1))
    else "0." ++ String.ofList (List.replicate (top.natAbs - 1) '0' ++ ds)
  else
    let fraction := String.ofList (ds.drop 1)
    String.ofList (ds.take 1) ++ (if fraction == "" then "" else "." ++ fraction) ++ "e" ++
      exponentText top

def text : Double → String
  | nan => "nan"
  | infinity negative => if negative then "-inf" else "inf"
  | finite negative mantissa exponent =>
    (if negative then "-" else "") ++
      (if mantissa = 0 then "0.0"
       else
        let (digits, power) := shortest mantissa exponent
        layout digits power)

/-! ## A fixed number of digits -/

/-- The decimal with a number of digits that is nearest to a positive finite number, a half
going to the even neighbour. -/
def rounded (count mantissa : Nat) (exponent : Int) : Nat × Int :=
  let (num, den) := quotient mantissa exponent
  let power : Int := decimalSize num den - count
  let (n, d) := scaledTen num den power
  (roundDiv n d, power)

/-- The text of a number in sixteen digits, as spreadsheets store it: without zeros at the end, and
with an exponent below one ten-thousandth and from ten to the sixteenth on. -/
def generalText : Double → String
  | nan => "NAN"
  | infinity negative => if negative then "-INF" else "INF"
  | finite negative mantissa exponent =>
    (if negative then "-" else "") ++
      (if mantissa = 0 then "0"
       else
        let (digits, power) := dropZeros 20 (rounded 16 mantissa exponent)
        let ds := digitChars digits
        let top : Int := power + ds.length - 1
        if -4 ≤ top ∧ top < 16 then
          if 0 ≤ power then String.ofList (ds ++ List.replicate power.natAbs '0')
          else if 0 ≤ top then
            String.ofList (ds.take (top.natAbs + 1)) ++ "." ++
              String.ofList (ds.drop (top.natAbs + 1))
          else "0." ++ String.ofList (List.replicate (top.natAbs - 1) '0' ++ ds)
        else
          let fraction := String.ofList (ds.drop 1)
          String.ofList (ds.take 1) ++ (if fraction == "" then "" else "." ++ fraction) ++ "E" ++
            exponentText top)

end ImportAudit.Double
