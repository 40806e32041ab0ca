import DocComment.Unicode.Ranges

namespace DocComment.Text

def trimStart (text : List Char) : List Char :=
  text.dropWhile Unicode.isWhite

/-- Drops the longest suffix of characters that satisfy `drop`. -/
def dropEndWhile (drop : Char → Bool) : List Char → List Char
  | [] => []
  | c :: rest =>
    match dropEndWhile drop rest with
    | [] => if drop c then [] else [c]
    | kept => c :: kept

def trimEnd (text : List Char) : List Char :=
  dropEndWhile Unicode.isWhite text

def trim (text : List Char) : List Char :=
  trimEnd (trimStart text)

/-- The pieces between the characters that satisfy `isSeparator`, the last one included. -/
def splitBy (isSeparator : Char → Bool) : List Char → List (List Char)
  | [] => [[]]
  | c :: rest =>
    if isSeparator c then [] :: splitBy isSeparator rest
    else match splitBy isSeparator rest with
      | [] => [[c]]
      | piece :: pieces => (c :: piece) :: pieces

/-- The text before the first character that satisfies `isSeparator` and the text after it. -/
def splitOnce (isSeparator : Char → Bool) : List Char → Option (List Char × List Char)
  | [] => none
  | c :: rest =>
    if isSeparator c then some ([], rest)
    else (splitOnce isSeparator rest).map fun (before, after) => (c :: before, after)

/-- Lines ended by a line feed, without it. Text after the last line feed is a line of its own
unless it is empty. -/
def rawLines (text : List Char) : List (List Char) :=
  match splitBy (· == '\n') text with
  | [] => []
  | pieces => if pieces.getLast? == some [] then pieces.dropLast else pieces

/-- One carriage return at the end of a line that a line feed ended belongs to the line's end. -/
def lines (text : List Char) : List (List Char) :=
  let strip (line : List Char) := if line.getLast? == some '\r' then line.dropLast else line
  match splitBy (· == '\n') text with
  | [] => []
  | pieces => pieces.dropLast.map strip ++ (if pieces.getLast? == some [] then [] else pieces.getLast?.toList)

def joinLines (parts : List (List Char)) : List Char :=
  List.intercalate ['\n'] parts

/-- Whether `text` starts with `start`, and what follows it. -/
def stripStart : List Char → List Char → Option (List Char)
  | [], text => some text
  | _ :: _, [] => none
  | s :: start, c :: text => if s == c then stripStart start text else none

/-- Whether `part` occurs anywhere in the text. -/
def containsText (part : List Char) : List Char → Bool
  | [] => part.isEmpty
  | c :: rest => part.isPrefixOf (c :: rest) || containsText part rest

/-- Number of bytes of the UTF-8 form. -/
def byteLength (text : List Char) : Nat :=
  text.foldl (fun total c => total + c.utf8Size) 0

/-- Length of the longest run of `c`; `current` is the length of the run just before the text. -/
def longestRunFrom (c : Char) (current : Nat) : List Char → Nat
  | [] => current
  | d :: rest =>
    if d == c then longestRunFrom c (current + 1) rest
    else max current (longestRunFrom c 0 rest)

def longestRun (c : Char) (text : List Char) : Nat :=
  longestRunFrom c 0 text

/-- The number that a list of decimal digits writes. -/
def decimalValue (digits : List Char) : Nat :=
  digits.foldl (fun n c => 10 * n + (c.toNat - '0'.toNat)) 0

def hexDigit? (c : Char) : Option Nat :=
  if c.isDigit then some (c.toNat - '0'.toNat)
  else if 'a' ≤ c && c ≤ 'f' then some (c.toNat - 'a'.toNat + 10)
  else if 'A' ≤ c && c ≤ 'F' then some (c.toNat - 'A'.toNat + 10)
  else none

def stripped (text : String) : String :=
  String.ofList (trim text.toList)

end DocComment.Text
