import DocComment.Text.Basic
import DocComment.Toml.Basic

namespace DocComment.Toml

/-- The number that exactly `count` hexadecimal digits write. -/
def hexNumber? (count : Nat) (text : List Char) : Option (Nat × List Char) :=
  if count ≤ text.length then
    ((text.take count).mapM Text.hexDigit?).map fun digits =>
      (digits.foldl (fun number digit => 16 * number + digit) 0, text.drop count)
  else none

/-- The character with a given code that as many digits write. -/
def codedChar? (count : Nat) (text : List Char) : Option (Char × List Char) :=
  (hexNumber? count text).bind fun (code, rest) =>
    if code.isValidChar then some (Char.ofNat code, rest) else none

/-- The character of an escape after its backslash. -/
def escape? : List Char → Option (Char × List Char)
  | 'b' :: rest => some ('\x08', rest)
  | 't' :: rest => some ('\t', rest)
  | 'n' :: rest => some ('\n', rest)
  | 'f' :: rest => some ('\x0c', rest)
  | 'r' :: rest => some ('\r', rest)
  | 'e' :: rest => some ('\x1b', rest)
  | '"' :: rest => some ('"', rest)
  | '\\' :: rest => some ('\\', rest)
  | 'x' :: rest => codedChar? 2 rest
  | 'u' :: rest => codedChar? 4 rest
  | 'U' :: rest => codedChar? 8 rest
  | _ => none

/-- The text up to a closing double quote, on one line. -/
def basicBody? : Nat → List Char → Option (List Char × List Char)
  | 0, _ => none
  | _, [] => none
  | fuel + 1, c :: rest =>
    if c == '"' then some ([], rest)
    else if c == '\\' then
      (escape? rest).bind fun (d, after) =>
        (basicBody? fuel after).map fun (body, last) => (d :: body, last)
    else if isControl c then none
    else (basicBody? fuel rest).map fun (body, last) => (c :: body, last)

/-- The text up to a closing single quote, on one line. -/
def literalBody? : List Char → Option (List Char × List Char)
  | [] => none
  | c :: rest =>
    if c == '\x27' then some ([], rest)
    else if isControl c then none
    else (literalBody? rest).map fun (body, last) => (c :: body, last)

/-- Blanks and line ends from the start of a text. -/
def skipBlankLines : List Char → List Char
  | '\r' :: '\n' :: rest => skipBlankLines rest
  | c :: rest => if isBlank c || c == '\n' then skipBlankLines rest else c :: rest
  | [] => []

/-- The text after a backslash that joins lines: blanks, a line end, and all blanks and line ends after
it are left out. -/
def joinedLine? (text : List Char) : Option (List Char) :=
  match text.dropWhile isBlank with
  | '\n' :: rest => some (skipBlankLines rest)
  | '\r' :: '\n' :: rest => some (skipBlankLines rest)
  | _ => none

/-- What stands before the last three of a run of closing quotes, three of which are read already. At
most two quotes do. -/
def closing (quote : Char) : List Char → List Char × List Char
  | c :: d :: rest =>
    if c == quote then if d == quote then ([quote, quote], rest) else ([quote], d :: rest)
    else ([], c :: d :: rest)
  | [c] => if c == quote then ([quote], []) else ([], [c])
  | [] => ([], [])

/-- A character of several lines that is no quote and no backslash. A carriage return belongs to a line
end. -/
def plainStart? : List Char → Option (List Char × List Char)
  | '\n' :: rest => some (['\n'], rest)
  | '\r' :: '\n' :: rest => some (['\r', '\n'], rest)
  | c :: rest => if isControl c then none else some ([c], rest)
  | [] => none

/-- The text up to three closing double quotes. -/
def multilineBasicBody? : Nat → List Char → Option (List Char × List Char)
  | 0, _ => none
  | fuel + 1, text =>
    match text with
    | '"' :: '"' :: '"' :: rest => some (closing '"' rest)
    | '\\' :: rest =>
      match joinedLine? rest with
      | some after => multilineBasicBody? fuel after
      | none =>
        (escape? rest).bind fun (d, after) =>
          (multilineBasicBody? fuel after).map fun (body, last) => (d :: body, last)
    | _ =>
      (plainStart? text).bind fun (start, after) =>
        (multilineBasicBody? fuel after).map fun (body, last) => (start ++ body, last)

/-- The text up to three closing single quotes. -/
def multilineLiteralBody? : Nat → List Char → Option (List Char × List Char)
  | 0, _ => none
  | fuel + 1, text =>
    match text with
    | '\x27' :: '\x27' :: '\x27' :: rest => some (closing '\x27' rest)
    | _ =>
      (plainStart? text).bind fun (start, after) =>
        (multilineLiteralBody? fuel after).map fun (body, last) => (start ++ body, last)

/-- A line end right after the opening quotes does not count. -/
def skipFirstLineEnd : List Char → List Char
  | '\n' :: rest => rest
  | '\r' :: '\n' :: rest => rest
  | text => text

/-- A text in any of the four forms. -/
def quotedText? : List Char → Option (List Char × List Char)
  | '"' :: '"' :: '"' :: rest => multilineBasicBody? (rest.length + 1) (skipFirstLineEnd rest)
  | '\x27' :: '\x27' :: '\x27' :: rest => multilineLiteralBody? (rest.length + 1) (skipFirstLineEnd rest)
  | '"' :: rest => basicBody? (rest.length + 1) rest
  | '\x27' :: rest => literalBody? rest
  | _ => none

/-- A key between quotes, on one line, or without any. -/
def key? (text : List Char) : Option (String × List Char) :=
  match text with
  | '"' :: rest => (basicBody? (rest.length + 1) rest).map fun (key, after) => (String.ofList key, after)
  | '\x27' :: rest => (literalBody? rest).map fun (key, after) => (String.ofList key, after)
  | _ =>
    match text.takeWhile isBareKeyChar with
    | [] => none
    | key => some (String.ofList key, text.dropWhile isBareKeyChar)

end DocComment.Toml
