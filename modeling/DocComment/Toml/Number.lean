import DocComment.Text.Basic
import DocComment.Text.Decimal
import DocComment.Toml.Basic

namespace DocComment.Toml

/-- A sign, which may be left out, and the rest. -/
def splitSign : List Char → List Char × List Char
  | '+' :: rest => (['+'], rest)
  | '-' :: rest => (['-'], rest)
  | text => ([], text)

/-- Digits without the underscores between them; an underscore has a digit on both sides. -/
def joinDigits? (isDigit : Char → Bool) (text : List Char) : Option (List Char) :=
  let groups := Text.splitBy (· == '_') text
  if groups.all fun group => !group.isEmpty && group.all isDigit then some groups.flatten else none

/-- Decimal digits without a needless zero in front. -/
def wholeDigits? (text : List Char) : Option (List Char) :=
  (joinDigits? Char.isDigit text).bind fun digits =>
    match digits with
    | '0' :: _ :: _ => none
    | _ => some digits

private def isOctalDigit (c : Char) : Bool :=
  '0' ≤ c && c ≤ '7'

private def isBinaryDigit (c : Char) : Bool :=
  c == '0' || c == '1'

def ofDigits (base : Nat) (digits : List Char) : Int :=
  ((digits.filterMap Text.hexDigit?).foldl (fun number digit => base * number + digit) 0 : Nat)

/-- The widest whole numbers that are read at all. -/
def isReadable (number : Int) : Bool :=
  -(Int.pow 2 127) ≤ number && number < Int.pow 2 128

/-- A whole number. Only a decimal one has a sign. -/
def integer? (text : List Char) : Option Int :=
  let number? : Option Int :=
    match text with
    | '0' :: 'x' :: digits => (joinDigits? (fun c => (Text.hexDigit? c).isSome) digits).map (ofDigits 16)
    | '0' :: 'o' :: digits => (joinDigits? isOctalDigit digits).map (ofDigits 8)
    | '0' :: 'b' :: digits => (joinDigits? isBinaryDigit digits).map (ofDigits 2)
    | _ =>
      let (sign, body) := splitSign text
      (wholeDigits? body).map fun digits =>
        if sign == ['-'] then -(ofDigits 10 digits) else ofDigits 10 digits
  number?.filter isReadable

/-- A fraction or an exponent, or both, after whole digits; or a number that is not finite. The result is
the text without underscores. A number too large to be finite is refused. -/
def float? (text : List Char) : Option (List Char) :=
  let (sign, body) := splitSign text
  if body == "inf".toList || body == "nan".toList then some text
  else
    let (mantissa, exponent) := match Text.splitOnce (fun c => c == 'e' || c == 'E') body with
      | some (mantissa, exponent) => (mantissa, some exponent)
      | none => (body, none)
    let (whole, fraction) := match Text.splitOnce (· == '.') mantissa with
      | some (whole, fraction) => (whole, some fraction)
      | none => (mantissa, none)
    if exponent.isNone && fraction.isNone then none
    else do
      let whole ← wholeDigits? whole
      let fraction ← match fraction with
        | none => some []
        | some digits => (joinDigits? Char.isDigit digits).map ('.' :: ·)
      let exponent ← match exponent with
        | none => some []
        | some signed =>
          let (sign, digits) := splitSign signed
          (joinDigits? Char.isDigit digits).map fun digits => 'e' :: sign ++ digits
      let written := sign ++ whole ++ fraction ++ exponent
      if (Text.decimalNumber written).isInf then none else some written

end DocComment.Toml
