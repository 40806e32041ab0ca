import DocComment.Text.Basic
import DocComment.Text.Percent
import DocComment.Toml.Basic

namespace DocComment.Toml

/-- The four ways to put a text between quotes. -/
inductive Quoting where
  /-- Double quotes, with escapes. -/
  | basic
  /-- Single quotes, without escapes. -/
  | literal
  /-- Three double quotes, with escapes. -/
  | multilineBasic
  /-- Three single quotes, without escapes. -/
  | multilineLiteral
  deriving Repr, DecidableEq

namespace Quoting

def isMultiline : Quoting → Bool
  | .basic | .literal => false
  | .multilineBasic | .multilineLiteral => true

def hasEscapes : Quoting → Bool
  | .basic | .multilineBasic => true
  | .literal | .multilineLiteral => false

def delimiter : Quoting → List Char
  | .basic => ['"']
  | .literal => ['\x27']
  | .multilineBasic => ['"', '"', '"']
  | .multilineLiteral => ['\x27', '\x27', '\x27']

/-- Whether a character other than a line feed has no literal form. -/
def needsEscape (c : Char) : Bool :=
  isControl c && c != '\n'

/-- The form of a value: the first that needs no escape, or else one with escapes. -/
def ofValue (text : List Char) : Quoting :=
  let plain := ! text.any needsEscape
  let straight := plain && ! text.contains '\\'
  let newline := text.contains '\n'
  let doubles := Text.longestRun '"' text
  let singles := Text.longestRun '\x27' text
  if straight && doubles == 0 && !newline then .basic
  else if plain && singles == 0 && !newline then .literal
  else if straight && doubles ≤ 2 then .multilineBasic
  else if plain && singles ≤ 2 then .multilineLiteral
  else if newline then .multilineBasic
  else .basic

/-- The form of a key in quotes, which stays on its line. -/
def ofKey (text : List Char) : Quoting :=
  let plain := ! text.any isControl
  if plain && ! text.contains '\\' && ! text.contains '"' then .basic
  else if plain && ! text.contains '\x27' then .literal
  else .basic

/-- A character in a form with escapes. Quotes are not its concern. -/
def escapeChar (multiline : Bool) (c : Char) : List Char :=
  if c == '\n' && multiline then ['\n']
  else if c == '\\' then ['\\', '\\']
  else if c == '\x08' then ['\\', 'b']
  else if c == '\t' then ['\\', 't']
  else if c == '\n' then ['\\', 'n']
  else if c == '\x0c' then ['\\', 'f']
  else if c == '\r' then ['\\', 'r']
  else if isControl c then
    ['\\', 'u', '0', '0', Text.hexUpper (c.toNat / 16), Text.hexUpper (c.toNat % 16)]
  else [c]

/-- A text in a form with escapes. At most `limit` double quotes stand in a row without one; `run` of
them stand just before the text. -/
def escapeFrom (multiline : Bool) (limit run : Nat) : List Char → List Char
  | [] => []
  | c :: rest =>
    if c == '"' then
      if run < limit then '"' :: escapeFrom multiline limit (run + 1) rest
      else '\\' :: '"' :: escapeFrom multiline limit 0 rest
    else escapeChar multiline c ++ escapeFrom multiline limit 0 rest

/-- A text between quotes. A form for several lines starts on a new line if the text has any. -/
def write (quoting : Quoting) (text : List Char) : List Char :=
  let opening := if quoting.isMultiline && text.contains '\n' then ['\n'] else []
  let body :=
    if quoting.hasEscapes then escapeFrom quoting.isMultiline (if quoting.isMultiline then 2 else 0) 0 text
    else text
  quoting.delimiter ++ opening ++ body ++ quoting.delimiter

end Quoting

/-- A text as a value. -/
def writeText (text : String) : List Char :=
  (Quoting.ofValue text.toList).write text.toList

/-- A key, without quotes if it can do without. -/
def writeKey (key : String) : List Char :=
  if !key.isEmpty && key.toList.all isBareKeyChar then key.toList
  else (Quoting.ofKey key.toList).write key.toList

mutual

/-- A value on the right of an equals sign. An array of two or more items has a line for each. -/
def writeValue : Value → List Char
  | .string text => writeText text
  | .integer number => (toString number).toList
  | .float written => written.toList
  | .boolean flag => (if flag then "true" else "false").toList
  | .moment written => written.toList
  | .array [] => ['[', ']']
  | .array [item] => '[' :: writeValue item ++ [']']
  | .array items => '[' :: writeItems items ++ ['\n', ']']
  | .table [] => ['\x7b', '\x7d']
  | .table ((name, value) :: rest) =>
    "\x7b ".toList ++ writeKey name ++ " = ".toList ++ writeValue value ++ writeMembers rest

def writeItems : List Value → List Char
  | [] => []
  | item :: rest => "\n    ".toList ++ writeValue item ++ ',' :: writeItems rest

def writeMembers : List (String × Value) → List Char
  | [] => " \x7d".toList
  | (name, value) :: rest =>
    ", ".toList ++ writeKey name ++ " = ".toList ++ writeValue value ++ writeMembers rest

end

def writePath (path : List String) : List Char :=
  List.intercalate ['.'] (path.map writeKey)

/-- The line or lines of a statement. -/
def Statement.write : Statement → List Char
  | .header path => '[' :: writePath path ++ [']', '\n']
  | .elementHeader path => "[[".toList ++ writePath path ++ "]]\n".toList
  | .assign path value => writePath path ++ " = ".toList ++ writeValue value ++ ['\n']

def Statement.isHeader : Statement → Bool
  | .assign .. => false
  | _ => true

/-- Statements one after the other, with an empty line before each header. -/
def writeStatements : List Statement → List Char
  | [] => []
  | statement :: rest =>
    (if statement.isHeader then ['\n'] else []) ++ statement.write ++ writeStatements rest

/-- The text of statements. It does not start with an empty line. -/
def write : List Statement → List Char
  | [] => []
  | statement :: rest => statement.write ++ writeStatements rest

end DocComment.Toml
