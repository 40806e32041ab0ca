import DocComment.Json.Basic
import DocComment.Text.Basic

namespace DocComment.Json

def isJsonBlank (c : Char) : Bool :=
  c == ' ' || c == '\t' || c == '\n' || c == '\r'

def skipBlank (text : List Char) : List Char :=
  text.dropWhile isJsonBlank

def hex4? (text : List Char) : Option (Nat × List Char) :=
  match text with
  | a :: b :: c :: d :: rest =>
    match Text.hexDigit? a, Text.hexDigit? b, Text.hexDigit? c, Text.hexDigit? d with
    | some a, some b, some c, some d => some (((a * 16 + b) * 16 + c) * 16 + d, rest)
    | _, _, _, _ => none
  | _ => none

/-- The character of an escape after its backslash. A pair of surrogates stands for one character. -/
def escape? (text : List Char) : Option (Char × List Char) :=
  match text with
  | '"' :: rest => some ('"', rest)
  | '\\' :: rest => some ('\\', rest)
  | '/' :: rest => some ('/', rest)
  | 'b' :: rest => some ('\x08', rest)
  | 'f' :: rest => some ('\x0c', rest)
  | 'n' :: rest => some ('\n', rest)
  | 'r' :: rest => some ('\r', rest)
  | 't' :: rest => some ('\t', rest)
  | 'u' :: rest =>
    (hex4? rest).bind fun (high, after) =>
      if 0xD800 ≤ high && high < 0xDC00 then
        match after with
        | '\\' :: 'u' :: lowText =>
          (hex4? lowText).bind fun (low, last) =>
            if 0xDC00 ≤ low && low < 0xE000 then
              some (Char.ofNat (0x10000 + (high - 0xD800) * 0x400 + (low - 0xDC00)), last)
            else none
        | _ => none
      else if 0xDC00 ≤ high && high < 0xE000 then none
      else some (Char.ofNat high, after)
  | _ => none

/-- The characters of a string up to its closing quote. -/
def stringBody? : Nat → List Char → Option (List Char × List Char)
  | 0, _ => none
  | _, [] => none
  | fuel + 1, c :: rest =>
    if c == '"' then some ([], rest)
    else if c == '\\' then
      (escape? rest).bind fun (d, after) =>
        (stringBody? fuel after).map fun (chars, last) => (d :: chars, last)
    else if c.toNat < 32 then none
    else (stringBody? fuel rest).map fun (chars, last) => (c :: chars, last)

/-- Digits of a whole number: a zero stands alone. -/
def wholeDigits? (text : List Char) : Option (List Char × List Char) :=
  match text.takeWhile Char.isDigit with
  | [] => none
  | ['0'] => some (['0'], text.drop 1)
  | '0' :: _ => none
  | digits => some (digits, text.drop digits.length)

def fraction? (text : List Char) : Option (List Char × List Char) :=
  match text with
  | '.' :: rest =>
    match rest.takeWhile Char.isDigit with
    | [] => none
    | digits => some ('.' :: digits, rest.drop digits.length)
  | _ => some ([], text)

def exponent? (text : List Char) : Option (List Char × List Char) :=
  match text with
  | c :: rest =>
    if c == 'e' || c == 'E' then
      let (sign, body) := match rest with
        | '+' :: body => (['+'], body)
        | '-' :: body => (['-'], body)
        | body => ([], body)
      match body.takeWhile Char.isDigit with
      | [] => none
      | digits => some (c :: sign ++ digits, body.drop digits.length)
    else some ([], text)
  | [] => some ([], [])

/-- A number. Minus zero is no integer. -/
def number? (text : List Char) : Option (Json × List Char) :=
  let (negative, body) := match text with
    | '-' :: rest => (true, rest)
    | _ => (false, text)
  (wholeDigits? body).bind fun (digits, afterWhole) =>
    (fraction? afterWhole).bind fun (fraction, afterFraction) =>
      (exponent? afterFraction).map fun (exponent, after) =>
        let value := Text.decimalValue digits
        if fraction.isEmpty && exponent.isEmpty && !(negative && value == 0) then
          (.integer (if negative then -(value : Int) else value), after)
        else (.decimal (String.ofList ((if negative then ['-'] else []) ++ digits ++ fraction ++ exponent)),
          after)

def literal? (word : String) (value : Json) (text : List Char) : Option (Json × List Char) :=
  (Text.stripStart word.toList text).map fun rest => (value, rest)

mutual

def value? : Nat → List Char → Option (Json × List Char)
  | 0, _ => none
  | fuel + 1, text =>
    let text := skipBlank text
    match text with
    | '\x7b' :: rest =>
      match skipBlank rest with
      | '\x7d' :: after => some (.object [], after)
      | _ => (members? fuel rest).map fun (members, after) => (.object members, after)
    | '[' :: rest =>
      match skipBlank rest with
      | ']' :: after => some (.array [], after)
      | _ => (items? fuel rest).map fun (items, after) => (.array items, after)
    | '"' :: rest =>
      (stringBody? (rest.length + 1) rest).map fun (chars, after) => (.string (String.ofList chars), after)
    | 'n' :: _ => literal? "null" .null text
    | 't' :: _ => literal? "true" (.bool true) text
    | 'f' :: _ => literal? "false" (.bool false) text
    | _ => number? text

def items? : Nat → List Char → Option (List Json × List Char)
  | 0, _ => none
  | fuel + 1, text =>
    (value? fuel text).bind fun (item, after) =>
      match skipBlank after with
      | ',' :: rest => (items? fuel rest).map fun (items, last) => (item :: items, last)
      | ']' :: rest => some ([item], rest)
      | _ => none

def members? : Nat → List Char → Option (List (String × Json) × List Char)
  | 0, _ => none
  | fuel + 1, text =>
    match skipBlank text with
    | '"' :: nameText =>
      (stringBody? (nameText.length + 1) nameText).bind fun (name, afterName) =>
        match skipBlank afterName with
        | ':' :: valueText =>
          (value? fuel valueText).bind fun (value, after) =>
            match skipBlank after with
            | ',' :: rest =>
              (members? fuel rest).map fun (members, last) => ((String.ofList name, value) :: members, last)
            | '\x7d' :: rest => some ([(String.ofList name, value)], rest)
            | _ => none
        | _ => none
    | _ => none

end

/-- The value of a JSON text, blanks around it allowed. -/
def read? (text : List Char) : Option Json :=
  (value? (2 * text.length + 2) text).bind fun (value, rest) =>
    if (skipBlank rest).isEmpty then some value else none

end DocComment.Json
