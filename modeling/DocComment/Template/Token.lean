import DocComment.Template.Value

namespace DocComment.Template

inductive Token where
  /-- Text outside all tags. -/
  | data (written : String)
  | valueStart
  | valueEnd
  | tagStart
  | tagEnd
  | name (written : String)
  | string (written : String)
  | integer (value : Nat)
  | decimal (written : String)
  | mark (written : String)
  deriving Repr, DecidableEq, Inhabited

namespace Token

inductive Opening where
  | value
  | tag
  | comment
  deriving Repr, DecidableEq

/-- The text before the first opening marker, and what opens there with the text after it. -/
def splitOpening : List Char → List Char × Option (Opening × List Char)
  | '\x7b' :: '\x7b' :: rest => ([], some (.value, rest))
  | '\x7b' :: '%' :: rest => ([], some (.tag, rest))
  | '\x7b' :: '#' :: rest => ([], some (.comment, rest))
  | [] => ([], none)
  | c :: rest =>
    let (before, found) := splitOpening rest
    (c :: before, found)

/-- The text after a sign of whitespace control, and whether it asks to strip. -/
def control : List Char → Bool × List Char
  | '-' :: rest => (true, rest)
  | '+' :: rest => (false, rest)
  | text => (false, text)

/-- The text after a comment, and whether its end asks to strip. -/
def skipComment : List Char → Option (Bool × List Char)
  | '-' :: '#' :: '\x7d' :: rest => some (true, rest)
  | '#' :: '\x7d' :: rest => some (false, rest)
  | [] => none
  | _ :: rest => skipComment rest

/-- Blanks inside a tag. -/
def isTagBlank (c : Char) : Bool :=
  c == ' ' || c == '\t' || c == '\n' || c == '\r' || c == '\x0c'

/-- The text after a tag that holds one word only, from behind its opening marker on, and whether its
end asks to strip. -/
def bareTag? (word : String) (text : List Char) : Option (Bool × List Char) :=
  (Text.stripStart word.toList (text.dropWhile isTagBlank)).bind fun rest =>
    let (strip, rest) := control (rest.dropWhile isTagBlank)
    (Text.stripStart ['%', '\x7d'] rest).map fun after => (strip, after)

/-- Text up to the tag that ends a raw block: the text, whether that tag strips before and after it,
and the text after the tag. -/
def untilEndRaw : List Char → Option (List Char × Bool × Bool × List Char)
  | [] => none
  | c :: rest =>
    let found : Option (Bool × Bool × List Char) :=
      if c == '\x7b' && rest.head? == some '%' then
        let (before, body) := control (rest.drop 1)
        (bareTag? "endraw" body).map fun (after, last) => (before, after, last)
      else none
    match found with
    | some (before, after, last) => some ([], before, after, last)
    | none => (untilEndRaw rest).map fun (raw, ended) => (c :: raw, ended)

private def hexValue? (digits : List Char) : Option Nat :=
  digits.foldl (fun value c => value.bind fun n => (Text.hexDigit? c).map fun d => 16 * n + d) (some 0)

/-- The character of an escape with four hexadecimal digits. Two surrogates make one character. -/
private def unicodeEscape? (text : List Char) : Option (Char × List Char) := do
  let high ← if text.length < 4 then none else hexValue? (text.take 4)
  let rest := text.drop 4
  if 0xD800 ≤ high && high < 0xDC00 then
    let after ← Text.stripStart ['\\', 'u'] rest
    let low ← if after.length < 4 then none else hexValue? (after.take 4)
    if 0xDC00 ≤ low && low < 0xE000 then
      some (Char.ofNat (0x10000 + (high - 0xD800) * 0x400 + (low - 0xDC00)), after.drop 4)
    else none
  else if 0xDC00 ≤ high && high < 0xE000 then none
  else some (Char.ofNat high, rest)

/-- The character of an escape and the text after it. -/
private def escape? : List Char → Option (Char × List Char)
  | '\\' :: rest => some ('\\', rest)
  | '/' :: rest => some ('/', rest)
  | 'b' :: rest => some ('\x08', rest)
  | 'f' :: rest => some ('\x0c', rest)
  | 'n' :: rest => some ('\n', rest)
  | 'r' :: rest => some ('\r', rest)
  | 't' :: rest => some ('\t', rest)
  | 'u' :: rest => unicodeEscape? rest
  | c :: rest => if c == '"' || c == '\x27' then some (c, rest) else none
  | [] => none

/-- The content of a string up to its closing quote, and the text after it. -/
private def stringBody? (quote : Char) : Nat → List Char → Option (List Char × List Char)
  | 0, _ => none
  | _, [] => none
  | fuel + 1, c :: rest =>
    if c == quote then some ([], rest)
    else if c == '\\' then
      (escape? rest).bind fun (d, after) =>
        (stringBody? quote fuel after).map fun (chars, last) => (d :: chars, last)
    else (stringBody? quote fuel rest).map fun (chars, last) => (c :: chars, last)

/-- The length of a decimal number: digits, a fraction and an exponent. The flag tells whether there
is more than digits. -/
private def numberLength (digitsOnly exponent : Bool) : List Char → Nat × Bool
  | [] => (0, !digitsOnly)
  | c :: rest =>
    if c.isDigit || c == '_' then
      let (length, point) := numberLength digitsOnly exponent rest
      (length + 1, point)
    else if c == '.' && digitsOnly then
      let (length, point) := numberLength false exponent rest
      (length + 1, point)
    else if (c == 'e' || c == 'E') && !exponent then
      match rest with
      | sign :: body =>
        if sign == '+' || sign == '-' then
          let (length, point) := numberLength false true body
          (length + 2, point)
        else
          let (length, point) := numberLength false true (sign :: body)
          (length + 1, point)
      | [] => (1, true)
    else (0, !digitsOnly)

private def radixValue? (radix : Nat) (digits : List Char) : Option Nat :=
  if digits.isEmpty then none
  else digits.foldl (fun value c => value.bind fun n => (Text.hexDigit? c).bind fun d =>
    if d < radix then some (radix * n + d) else none) (some 0)

/-- Numbers without a fraction fit 128 bits. -/
private def wholeToken? (radix : Nat) (written : List Char) : Option Token :=
  if written.getLast? == some '_' then none
  else (radixValue? radix (written.filter (· != '_'))).bind fun value =>
    if value < Nat.pow 2 128 then some (.integer value) else none

private def decimalToken? (written : List Char) : Option Token :=
  let digits := written.filter (· != '_')
  let endsInDigit := match digits.getLast? with
    | some c => c.isDigit || c == '.'
    | none => false
  if written.getLast? != some '_' && endsInDigit then some (.decimal (String.ofList digits)) else none

private def number? (text : List Char) : Option (Token × List Char) :=
  let radix : Option Nat := match text with
    | '0' :: c :: _ =>
      if c == 'b' || c == 'B' then some 2
      else if c == 'o' || c == 'O' then some 8
      else if c == 'x' || c == 'X' then some 16
      else none
    | _ => none
  match radix with
  | some radix =>
    let digits := (text.drop 2).takeWhile fun c =>
      c == '_' || c.isDigit || (radix == 16 && (Text.hexDigit? c).isSome)
    (wholeToken? radix digits).map fun token => (token, text.drop (2 + digits.length))
  | none =>
    let (length, point) := numberLength true false text
    let written := text.take length
    (if point then decimalToken? written else wholeToken? 10 written).map fun token =>
      (token, text.drop length)

private def isNameChar (c : Char) : Bool :=
  c.isAlphanum || c == '_'

private def longMarks : List String :=
  ["//", "**", "==", "!=", ">=", "<="]

private def shortMarks : List Char :=
  "+-*/%.,:~|=><()[]".toList ++ ['\x7b', '\x7d']

/-- The next token inside a tag. -/
private def inside? (text : List Char) : Option (Token × List Char) :=
  match text with
  | [] => none
  | c :: rest =>
    if c == '"' || c == '\x27' then
      (stringBody? c text.length rest).map fun (chars, after) => (.string (String.ofList chars), after)
    else if c.isDigit then number? text
    else if longMarks.contains (String.ofList (text.take 2)) then
      some (.mark (String.ofList (text.take 2)), text.drop 2)
    else if shortMarks.contains c then some (.mark (String.singleton c), rest)
    else if isNameChar c then
      some (.name (String.ofList (text.takeWhile isNameChar)), text.dropWhile isNameChar)
    else none

private def depthAfter (depth : Nat) : Token → Nat
  | .mark written =>
    if ["(", "[", "\x7b"].contains written then depth + 1
    else if [")", "]", "\x7d"].contains written then depth - 1
    else depth
  | _ => depth

/-- The tokens of a tag up to its end, whether the end asks to strip, and the text after it. Brackets
hide the end. -/
def tagTokens? (closing : List Char) : Nat → Nat → List Char → Option (List Token × Bool × List Char)
  | 0, _, _ => none
  | fuel + 1, depth, text =>
    let text := text.dropWhile isTagBlank
    let (strip, afterSign) := control text
    match if depth == 0 then Text.stripStart closing afterSign else none with
    | some rest => some ([], strip, rest)
    | none =>
      (inside? text).bind fun (token, rest) =>
        (tagTokens? closing fuel (depthAfter depth token) rest).map fun (tokens, ended) =>
          (token :: tokens, ended)

private def dataToken (written : List Char) : List Token :=
  if written.isEmpty then [] else [.data (String.ofList written)]

private def stripEnd (strip : Bool) (text : List Char) : List Char :=
  if strip then Text.trimEnd text else text

private def stripStart (strip : Bool) (text : List Char) : List Char :=
  if strip then Text.trimStart text else text

/-- The tokens of template text. Each round reads text up to a tag and the tag. -/
def tokensFrom : Nat → Bool → List Char → Except Fault (List Token)
  | 0, _, _ => .error (.malformed "unexpected end of input")
  | fuel + 1, strip, text =>
    let (lead, found) := splitOpening (stripStart strip text)
    match found with
    | none => .ok (dataToken lead)
    | some (opening, body) =>
      let (stripLead, body) := control body
      let lead := dataToken (stripEnd stripLead lead)
      match opening with
      | .comment =>
        match skipComment body with
        | none => .error (.malformed "unexpected end of comment")
        | some (strip, rest) => return lead ++ (← tokensFrom fuel strip rest)
      | .value =>
        match tagTokens? ['\x7d', '\x7d'] (body.length + 1) 0 body with
        | none => .error (.malformed "unexpected end of expression")
        | some (tokens, strip, rest) =>
          return lead ++ .valueStart :: tokens ++ .valueEnd :: (← tokensFrom fuel strip rest)
      | .tag =>
        match bareTag? "raw" body with
        | some (stripRaw, rawText) =>
          match untilEndRaw rawText with
          | none => .error (.malformed "unexpected end of raw block")
          | some (raw, before, after, rest) =>
            return lead ++ dataToken (stripEnd before (stripStart stripRaw raw)) ++
              (← tokensFrom fuel after rest)
        | none =>
          match tagTokens? ['%', '\x7d'] (body.length + 1) 0 body with
          | none => .error (.malformed "unexpected end of tag")
          | some (tokens, strip, rest) =>
            return lead ++ .tagStart :: tokens ++ .tagEnd :: (← tokensFrom fuel strip rest)

/-- One line end at the end of a template does not count. -/
def dropLineEnd (text : List Char) : List Char :=
  let text := if text.getLast? == some '\n' then text.dropLast else text
  if text.getLast? == some '\r' then text.dropLast else text

def tokens (template : String) : Except Fault (List Token) :=
  let text := dropLineEnd template.toList
  tokensFrom (text.length + 1) false text

end Token

end DocComment.Template
