import DocComment.Toml.Moment
import DocComment.Toml.Number
import DocComment.Toml.Table
import DocComment.Toml.Unquoting

namespace DocComment.Toml

def skipBlanks (text : List Char) : List Char :=
  text.dropWhile isBlank

/-- Skips blanks, line ends and comments. A comment holds no control characters but tabs. -/
def skipGap? (inComment : Bool) : List Char → Option (List Char)
  | '\n' :: rest => skipGap? false rest
  | '\r' :: '\n' :: rest => skipGap? false rest
  | c :: rest =>
    if inComment then if isControl c then none else skipGap? true rest
    else if isBlank c then skipGap? false rest
    else if c == '#' then skipGap? true rest
    else some (c :: rest)
  | [] => some []

/-- Names between dots, with blanks around them. -/
def path? : Nat → List Char → Option (List String × List Char)
  | 0, _ => none
  | fuel + 1, text =>
    (key? (skipBlanks text)).bind fun (name, after) =>
      match skipBlanks after with
      | '.' :: rest => (path? fuel rest).map fun (names, last) => (name :: names, last)
      | rest => some ([name], rest)

/-- A path, an equals sign and a value. -/
def assignment? (value? : List Char → Option (Value × List Char)) (text : List Char) :
    Option ((List String × Value) × List Char) :=
  (path? (text.length + 1) text).bind fun (path, after) =>
    match after with
    | '=' :: rest => (value? (skipBlanks rest)).map fun (value, last) => ((path, value), last)
    | _ => none

/-- Items up to a closing bracket, with commas between them and perhaps one after the last. Blanks, line
ends and comments may stand around each. -/
def items? {α : Type} (item? : List Char → Option (α × List Char)) (close : Char) :
    Nat → List Char → Option (List α × List Char)
  | 0, _ => none
  | fuel + 1, text =>
    (skipGap? false text).bind fun text =>
      match text with
      | [] => none
      | c :: rest =>
        if c == close then some ([], rest)
        else
          (item? (c :: rest)).bind fun (item, after) =>
            (skipGap? false after).bind fun after =>
              match after with
              | ',' :: rest => (items? item? close fuel rest).map fun (items, last) => (item :: items, last)
              | d :: rest => if d == close then some ([item], rest) else none
              | [] => none

/-- The characters of a value that has neither quotes nor brackets. -/
def isScalarChar (c : Char) : Bool :=
  c.isAlphanum || c == '_' || c == '+' || c == '-' || c == '.' || c == ':'

/-- A truth value or a number, all of the text. -/
def scalar? (text : List Char) : Option Value :=
  if text == "true".toList then some (.boolean true)
  else if text == "false".toList then some (.boolean false)
  else match integer? text with
    | some number => some (.integer number)
    | none => (float? text).map fun written => .float (String.ofList written)

/-- A value that holds no other values. -/
def simple? (text : List Char) : Option (Value × List Char) :=
  match text with
  | '"' :: _ => (quotedText? text).map fun (body, rest) => (.string (String.ofList body), rest)
  | '\x27' :: _ => (quotedText? text).map fun (body, rest) => (.string (String.ofList body), rest)
  | _ =>
    match moment? text with
    | some (written, rest) => some (.moment (String.ofList written), rest)
    | none => (scalar? (text.takeWhile isScalarChar)).map fun value => (value, text.dropWhile isScalarChar)

/-- A value with at most `depth` brackets around what is inside it. -/
def value? : Nat → List Char → Option (Value × List Char)
  | 0, text => simple? text
  | depth + 1, text =>
    match text with
    | '[' :: rest =>
      (items? (value? depth) ']' (rest.length + 1) rest).map fun (items, last) => (.array items, last)
    | '\x7b' :: rest =>
      (items? (assignment? (value? depth)) '\x7d' (rest.length + 1) rest).bind fun (assignments, last) =>
        (inlineTable? assignments).map fun members => (.table members, last)
    | _ => simple? text

/-- How many brackets may be open at one place. -/
def maxDepth : Nat := 80

/-- A header or an assignment. -/
def statement? (text : List Char) : Option (Statement × List Char) :=
  match text with
  | '[' :: '[' :: rest =>
    (path? (rest.length + 1) rest).bind fun (path, after) =>
      match after with
      | ']' :: ']' :: last => some (.elementHeader path, last)
      | _ => none
  | '[' :: rest =>
    (path? (rest.length + 1) rest).bind fun (path, after) =>
      match after with
      | ']' :: last => some (.header path, last)
      | _ => none
  | _ => (assignment? (value? maxDepth) text).map fun ((path, value), last) => (.assign path value, last)

/-- Whether nothing but blanks stands before the line's end or a comment. -/
def endsLine (text : List Char) : Bool :=
  match skipBlanks text with
  | [] => true
  | '\n' :: _ => true
  | '\r' :: '\n' :: _ => true
  | '#' :: _ => true
  | _ => false

/-- All statements of a text, each on lines of its own. -/
def statementsFrom? : Nat → List Char → Option (List Statement)
  | 0, _ => none
  | fuel + 1, text =>
    (skipGap? false text).bind fun text =>
      if text.isEmpty then some []
      else
        (statement? text).bind fun (statement, after) =>
          if endsLine after then (statementsFrom? fuel after).map (statement :: ·) else none

/-- The statements of a text. A byte order mark in front does not count. -/
def statements? (text : String) : Option (List Statement) :=
  let chars := match text.toList with
    | '\uFEFF' :: rest => rest
    | chars => chars
  statementsFrom? (chars.length + 1) chars

/-- The table that a text writes. -/
def read? (text : String) : Option Table :=
  (statements? text).bind tableOf?

end DocComment.Toml
