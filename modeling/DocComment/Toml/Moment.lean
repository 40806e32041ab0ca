import DocComment.Text.Basic
import DocComment.Toml.Basic

namespace DocComment.Toml

/-- Two digits. -/
def two? : List Char → Option (Nat × List Char)
  | a :: b :: rest => if a.isDigit && b.isDigit then some (Text.decimalValue [a, b], rest) else none
  | _ => none

private def two (number : Nat) : List Char :=
  [Char.ofNat ('0'.toNat + number / 10), Char.ofNat ('0'.toNat + number % 10)]

private def isLeap (year : Nat) : Bool :=
  (year % 4 == 0 && year % 100 != 0) || year % 400 == 0

private def daysInMonth (year month : Nat) : Nat :=
  if month == 2 then if isLeap year then 29 else 28
  else if month == 4 || month == 6 || month == 9 || month == 11 then 30
  else 31

/-- A date of the calendar. -/
def date? (text : List Char) : Option (List Char × List Char) := do
  let (century, rest) ← two? text
  let (year, rest) ← two? rest
  let '-' :: rest := rest | none
  let (month, rest) ← two? rest
  let '-' :: rest := rest | none
  let (day, rest) ← two? rest
  if 1 ≤ month && month ≤ 12 && 1 ≤ day && day ≤ daysInMonth (100 * century + year) month then
    some (two century ++ two year ++ '-' :: two month ++ '-' :: two day, rest)
  else none

/-- Seconds after a colon, which may be left out, with a fraction, which may be left out too. -/
private def seconds? : List Char → Option (List Char × List Char)
  | ':' :: text => do
    let (second, rest) ← two? text
    if 60 < second then none
    else match rest with
      | '.' :: after =>
        match after.takeWhile Char.isDigit with
        | [] => none
        | digits =>
          let kept := Text.dropEndWhile (· == '0') (digits.take 9)
          let fraction := if kept.isEmpty then [] else '.' :: kept
          some (':' :: two second ++ fraction, after.dropWhile Char.isDigit)
      | _ => some (':' :: two second, rest)
  | text => some ([], text)

/-- A time of day. -/
def time? (text : List Char) : Option (List Char × List Char) := do
  let (hour, rest) ← two? text
  let ':' :: rest := rest | none
  let (minute, rest) ← two? rest
  if 23 < hour || 59 < minute then none
  else
    let (seconds, rest) ← seconds? rest
    some (two hour ++ ':' :: two minute ++ seconds, rest)

/-- The distance from universal time, which may be left out. -/
private def offset? (text : List Char) : Option (List Char × List Char) :=
  let signed? (sign : Char) (rest : List Char) := do
    let (hour, rest) ← two? rest
    let ':' :: rest := rest | none
    let (minute, rest) ← two? rest
    let sign := if hour == 0 && minute == 0 then '+' else sign
    if 23 < hour || 59 < minute then none
    else some (sign :: two hour ++ ':' :: two minute, rest)
  match text with
  | 'Z' :: rest => some (['Z'], rest)
  | 'z' :: rest => some (['Z'], rest)
  | '+' :: rest => signed? '+' rest
  | '-' :: rest => signed? '-' rest
  | _ => some ([], text)

/-- The text after what divides a date from a time: a letter, or a blank before a digit. -/
private def afterDivider? : List Char → Option (List Char)
  | 'T' :: rest => some rest
  | 't' :: rest => some rest
  | ' ' :: c :: rest => if c.isDigit then some (c :: rest) else none
  | _ => none

/-- A date, a time of day, or a date with a time and perhaps an offset. -/
def moment? (text : List Char) : Option (List Char × List Char) :=
  match date? text with
  | none => time? text
  | some (date, rest) =>
    match afterDivider? rest with
    | none => some (date, rest)
    | some rest => do
      let (time, rest) ← time? rest
      let (offset, rest) ← offset? rest
      some (date ++ 'T' :: time ++ offset, rest)

end DocComment.Toml
