import DocComment.Markup.CharacterReference
import DocComment.Markup.LineMarks
import DocComment.Unicode.Case
import DocComment.Unicode.Punctuation

namespace DocComment.Markup

open Unicode (isAsciiPunctuation)

/-- Undoes backslash escapes and character references; `fuel` bounds the length. -/
def unescapeWith : Nat → List Char → List Char
  | 0, text => text
  | _ + 1, [] => []
  | fuel + 1, '\\' :: c :: rest =>
    if isAsciiPunctuation c then c :: unescapeWith fuel rest
    else '\\' :: unescapeWith fuel (c :: rest)
  | fuel + 1, '&' :: rest =>
    match characterReference? rest with
    | some (chars, after) => chars ++ unescapeWith fuel after
    | none => '&' :: unescapeWith fuel rest
  | fuel + 1, '\r' :: rest => unescapeWith fuel rest
  | fuel + 1, c :: rest => c :: unescapeWith fuel rest

def unescape (text : List Char) : List Char :=
  unescapeWith text.length text

/-- The raw destination up to the closing angle bracket, and the text after it. -/
def bracketedDestination? : List Char → Option (List Char × List Char)
  | [] => none
  | '\\' :: c :: rest =>
    if isAsciiPunctuation c then
      (bracketedDestination? rest).map fun (raw, after) => ('\\' :: c :: raw, after)
    else (bracketedDestination? (c :: rest)).map fun (raw, after) => ('\\' :: raw, after)
  | c :: rest =>
    if c == '>' then some ([], rest)
    else if c == '<' || c == '\n' then none
    else (bracketedDestination? rest).map fun (raw, after) => (c :: raw, after)

/-- How deep parentheses may nest in a destination. -/
def maxParentheses : Nat := 32

/-- The raw destination up to a blank, a control character or an unmatched parenthesis.
Parentheses inside it are balanced; `depth` counts those open before the text. -/
def plainDestination? (depth : Nat) : List Char → Option (List Char × List Char)
  | [] => if depth == 0 then some ([], []) else none
  | '\\' :: c :: rest =>
    if isAsciiPunctuation c then
      (plainDestination? depth rest).map fun (raw, after) => ('\\' :: c :: raw, after)
    else (plainDestination? depth (c :: rest)).map fun (raw, after) => ('\\' :: raw, after)
  | c :: rest =>
    if c.toNat ≤ 0x20 then (if depth == 0 then some ([], c :: rest) else none)
    else if c == '(' then
      if depth > maxParentheses then none
      else (plainDestination? (depth + 1) rest).map fun (raw, after) => (c :: raw, after)
    else if c == ')' then
      if depth == 0 then some ([], c :: rest)
      else (plainDestination? (depth - 1) rest).map fun (raw, after) => (c :: raw, after)
    else (plainDestination? depth rest).map fun (raw, after) => (c :: raw, after)

/-- A link destination and the text after it. -/
def destination? (text : List Char) : Option (List Char × List Char) :=
  match text with
  | '<' :: rest => (bracketedDestination? rest).map fun (raw, after) => (unescape raw, after)
  | _ => (plainDestination? 0 text).map fun (raw, after) => (unescape raw, after)

/-- The raw title up to its closing mark, and the text after it. A title in parentheses holds no
bare opening parenthesis. -/
def titleUntil? (close : Char) : List Char → Option (List Char × List Char)
  | [] => none
  | '\\' :: c :: rest =>
    if isAsciiPunctuation c then
      (titleUntil? close rest).map fun (raw, after) => ('\\' :: c :: raw, after)
    else (titleUntil? close (c :: rest)).map fun (raw, after) => ('\\' :: raw, after)
  | c :: rest =>
    if c == close then some ([], rest)
    else if c == '(' && close == ')' then none
    else (titleUntil? close rest).map fun (raw, after) => (c :: raw, after)

/-- The raw title in its marks, and the text after it. -/
def rawTitle? (text : List Char) : Option (List Char × List Char) :=
  match text with
  | '"' :: rest => titleUntil? '"' rest
  | '\'' :: rest => titleUntil? '\'' rest
  | '(' :: rest => titleUntil? ')' rest
  | _ => none

/-- Drops the blanks at the start of every line but the first. -/
def dropLineIndents (text : List Char) : List Char :=
  match Text.splitBy (· == '\n') text with
  | [] => []
  | first :: others =>
    Text.joinLines (first :: others.map fun line => line.dropWhile fun c => c == ' ' || c == '\t')

/-- Blanks with at most one line end among them. -/
def skipSpacing (text : List Char) : List Char :=
  match text.dropWhile isLineBlank with
  | '\n' :: rest => rest.dropWhile isLineBlank
  | rest => rest

/-- The part of an inline link after its text: destination and title in parentheses. -/
def inlineTail? (text : List Char) : Option ((List Char × List Char) × List Char) :=
  match text with
  | '(' :: rest =>
    (destination? (skipSpacing rest)).bind fun (destination, afterDestination) =>
      let next := skipSpacing afterDestination
      let (title, afterTitle) :=
        match rawTitle? next with
        | some (raw, after) => (unescape (dropLineIndents raw), skipSpacing after)
        | none => ([], next)
      match afterTitle with
      | ')' :: after => some ((destination, title), after)
      | _ => none
  | _ => none

/-- Longest label, in characters. -/
def maxLabelLength : Nat := 999

/-- The raw label up to its closing bracket, and the text after it. -/
def labelUntil? : List Char → Option (List Char × List Char)
  | [] => none
  | '\\' :: c :: rest => (labelUntil? rest).map fun (raw, after) => ('\\' :: c :: raw, after)
  | c :: rest =>
    if c == ']' then some ([], rest)
    else if c == '[' then none
    else (labelUntil? rest).map fun (raw, after) => (c :: raw, after)

def isLabelBlank (c : Char) : Bool :=
  isLineBlank c || c == '\n' || c == '\r'

def isLabel (raw : List Char) : Bool :=
  raw.any (fun c => !isLabelBlank c) && raw.length ≤ maxLabelLength

/-- A label in brackets and the text after it. -/
def label? (text : List Char) : Option (List Char × List Char) :=
  match text with
  | '[' :: rest => (labelUntil? rest).filter fun (raw, _) => isLabel raw
  | _ => none

/-- Labels match when they agree up to case and runs of blanks. -/
def normalLabel (raw : List Char) : List Char :=
  let words := (Text.splitBy isLabelBlank raw).filter (! ·.isEmpty)
  Unicode.foldCase (List.intercalate [' '] words)

/-- A link definition. -/
structure Definition where
  label : List Char
  destination : List Char
  title : List Char
  deriving Repr, DecidableEq

/-- Whether a line ends here, and the text from its end on. -/
private def lineEnd? (text : List Char) : Option (List Char) :=
  match text.dropWhile isLineBlank with
  | [] => some []
  | '\n' :: rest => some ('\n' :: rest)
  | _ => none

/-- Reads a definition at the start of a paragraph: a label, a colon, a destination and perhaps a
title, each on the same or the next line, and nothing else on the last of these lines. What
follows is returned from its line end on. -/
def definition? (text : List Char) : Option (Definition × List Char) :=
  (label? text).bind fun (label, afterLabel) =>
    match afterLabel with
    | ':' :: rest =>
      let start := skipSpacing rest
      if start.isEmpty || start.head? == some '\n' then none
      else (destination? start).bind fun (destination, afterDestination) =>
        if !start.isEmpty && start.length == afterDestination.length then none
        else
          let plain := (lineEnd? afterDestination).map fun after =>
            (Definition.mk (normalLabel label) destination [], after)
          let next := skipSpacing afterDestination
          if next.length == afterDestination.length then plain
          else match rawTitle? next with
            | some (raw, afterTitle) =>
              match lineEnd? afterTitle with
              | some after => some (⟨normalLabel label, destination, unescape raw⟩, after)
              | none => plain
            | none => plain
    | _ => none

end DocComment.Markup
