namespace DocComment.Text

/-- The positive number `significand * 2 ^ exponent`. The number below it may be half as far away as
the one above. -/
structure Binary where
  significand : Nat
  exponent : Int
  narrowBelow : Bool

namespace Binary

/-- The magnitude that the bits of a finite number encode. -/
def ofBits (bits : Nat) : Binary :=
  let fraction : Nat := bits % Nat.pow 2 52
  let biased : Nat := bits / Nat.pow 2 52 % 2048
  if biased == 0 then ⟨fraction, -1074, false⟩
  else ⟨Nat.pow 2 52 + fraction, (biased : Int) - 1075, fraction == 0 && 1 < biased⟩

/-- The nearest multiple of `10 ^ power` that reads back as the number, as a count of that unit. All
comparisons are exact: bounds are in quarters of the last binary place. -/
def onGrid? (number : Binary) (power : Int) : Option Nat :=
  let scale := number.exponent - 2
  let quarter := Nat.pow 2 scale.toNat * Nat.pow 10 (-power).toNat
  let unit := Nat.pow 2 (-scale).toNat * Nat.pow 10 power.toNat
  let value := 4 * number.significand * quarter
  let low := (4 * number.significand - (if number.narrowBelow then 1 else 2)) * quarter
  let high := (4 * number.significand + 2) * quarter
  let reads (count : Nat) : Bool :=
    if number.significand % 2 == 0 then low ≤ count * unit && count * unit ≤ high
    else low < count * unit && count * unit < high
  let below := value / unit
  let nearest := if 2 * (value % unit) < unit then below else below + 1
  if reads nearest then some nearest
  else if reads below then some below
  else if reads (below + 1) then some (below + 1)
  else none

/-- The fewest digits that read back and the power of ten of the last one. -/
def shortest (number : Binary) : Nat × Int :=
  let powers := (List.range 640).map fun (step : Nat) => (310 : Int) - (step : Int)
  (powers.findSome? fun power => (number.onGrid? power).map fun count => (count, power)).getD (0, 0)

end Binary

/-- Digits with a point in the place that the power of ten of the last digit gives. -/
def positional (count : Nat) (power : Int) : List Char :=
  let digits := (toString count).toList
  if 0 ≤ power then digits ++ List.replicate power.toNat '0' ++ ".0".toList
  else
    let places := (-power).toNat
    let padded := List.replicate (places + 1 - digits.length) '0' ++ digits
    padded.take (padded.length - places) ++ '.' :: padded.drop (padded.length - places)

/-- The text of a number: positional, with a digit on both sides of the point. -/
def decimalText (number : Float) : String :=
  let bits := number.toBits.toNat
  let sign := if Nat.pow 2 63 ≤ bits then "-" else ""
  if number.isNaN then "NaN"
  else if number.isInf then sign ++ "inf"
  else if bits % Nat.pow 2 63 == 0 then sign ++ "0.0"
  else
    let (count, power) := (Binary.ofBits bits).shortest
    sign ++ String.ofList (positional count power)

/-- The number that a decimal with digits, a fraction and an exponent writes. -/
def decimalNumber (written : List Char) : Float :=
  let (negative, body) := match written with
    | '-' :: rest => (true, rest)
    | '+' :: rest => (false, rest)
    | _ => (false, written)
  let whole := body.takeWhile Char.isDigit
  let afterWhole := body.dropWhile Char.isDigit
  let fraction := match afterWhole with
    | '.' :: rest => rest.takeWhile Char.isDigit
    | _ => []
  let exponent := match (afterWhole.dropWhile fun c => c == '.' || c.isDigit).drop 1 with
    | '-' :: digits => -((String.ofList digits).toNat?.getD 0 : Int)
    | '+' :: digits => ((String.ofList digits).toNat?.getD 0 : Int)
    | digits => ((String.ofList digits).toNat?.getD 0 : Int)
  let count := (String.ofList (whole ++ fraction)).toNat?.getD 0
  let shift := exponent - (fraction.length : Int)
  let magnitude :=
    if 400 < shift && count != 0 then Float.ofScientific 1 false 400
    else Float.ofScientific count (shift < 0) (min shift.natAbs 5000)
  if negative then -magnitude else magnitude

end DocComment.Text
