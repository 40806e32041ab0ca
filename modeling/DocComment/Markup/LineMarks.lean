import DocComment.Text.Basic

namespace DocComment.Markup

/-- What is left of a line. A tab that was used in part leaves columns over. -/
structure Cursor where
  column : Nat := 0
  leftover : Nat := 0
  rest : List Char
  deriving Repr, DecidableEq, Inhabited

namespace Cursor

/-- Takes up to `wanted` columns of blanks from text that starts at `column`. The first component
is the number of columns that were not there. -/
def skipBlanksFrom (column wanted : Nat) : List Char → Nat × Cursor
  | [] => (wanted, { column, rest := [] })
  | c :: rest =>
    if wanted == 0 then (0, { column, rest := c :: rest })
    else if c == ' ' then skipBlanksFrom (column + 1) (wanted - 1) rest
    else if c == '\t' then
      let width := 4 - column % 4
      if width ≤ wanted then skipBlanksFrom (column + width) (wanted - width) rest
      else (0, { column := column + width, leftover := width - wanted, rest })
    else (wanted, { column, rest := c :: rest })

def skipBlanks (wanted : Nat) (cursor : Cursor) : Nat × Cursor :=
  if wanted ≤ cursor.leftover then (0, { cursor with leftover := cursor.leftover - wanted })
  else skipBlanksFrom cursor.column (wanted - cursor.leftover) cursor.rest

/-- Takes exactly `wanted` columns of blanks. -/
def skipExactly (wanted : Nat) (cursor : Cursor) : Option Cursor :=
  match cursor.skipBlanks wanted with
  | (0, after) => some after
  | _ => none

/-- Takes at most `wanted` columns of blanks and tells how many there were. -/
def skipUpTo (wanted : Nat) (cursor : Cursor) : Nat × Cursor :=
  let (missing, after) := cursor.skipBlanks wanted
  (wanted - missing, after)

/-- Takes one character that is not a blank. -/
def next (cursor : Cursor) : Cursor :=
  { column := cursor.column + 1, rest := cursor.rest.drop 1 }

end Cursor

/-- Blanks inside a line. -/
def isLineBlank (c : Char) : Bool :=
  c == ' ' || c == '\t' || c == '\x0b' || c == '\x0c'

def isBlankLine (text : List Char) : Bool :=
  text.all isLineBlank

/-- Length of the run of `c` at the start. -/
def runLength (c : Char) (text : List Char) : Nat :=
  (text.takeWhile (· == c)).length

/-- Three or more of one rule character, with nothing but blanks between them. -/
def isRule (text : List Char) : Bool :=
  match text with
  | c :: _ =>
    (c == '*' || c == '-' || c == '_') && text.all (fun d => d == c || d == ' ' || d == '\t') &&
      3 ≤ text.countP (· == c)
  | [] => false

/-- Level of a heading that starts with number signs. -/
def headingLevel? (text : List Char) : Option Nat :=
  let level := runLength '#' text
  if 1 ≤ level && level ≤ 6 then
    match text.drop level with
    | [] => some level
    | c :: _ => if isLineBlank c then some level else none
  else none

/-- The text of a heading after its number signs: blanks around it and a closing run of number
signs are not part of it. -/
def headingText (text : List Char) : List Char :=
  let body := Text.dropEndWhile (· == ' ') (text.dropWhile isLineBlank)
  let unclosed := Text.dropEndWhile (· == '#') body
  match unclosed.getLast? with
  | none => []
  | some ' ' => Text.dropEndWhile (· == ' ') unclosed
  | some _ => body

/-- Level of the heading that an underline makes of the paragraph before it. -/
def underlineLevel? (text : List Char) : Option Nat :=
  match text with
  | c :: _ =>
    if (c == '=' || c == '-') && isBlankLine (text.dropWhile (· == c)) then
      some (if c == '=' then 1 else 2)
    else none
  | [] => none

/-- The opening of a fenced code block. -/
structure CodeFence where
  mark : Char
  length : Nat
  deriving Repr, DecidableEq

/-- A run of three or more marks; after backticks no further backtick may follow in the line. -/
def codeFence? (text : List Char) : Option (CodeFence × List Char) :=
  match text with
  | c :: _ =>
    let length := runLength c text
    let info := text.drop length
    if (c == '`' || c == '~') && 3 ≤ length && !(c == '`' && info.contains '`') then
      some (⟨c, length⟩, info)
    else none
  | [] => none

def CodeFence.closedBy (fence : CodeFence) (text : List Char) : Bool :=
  let length := runLength fence.mark text
  fence.length ≤ length && (text.drop length).all (· == ' ')

/-- A list marker: its character, the number of an ordered item and the width of the marker. -/
structure ListMark where
  mark : Char
  number : Nat
  width : Nat
  deriving Repr, DecidableEq

namespace ListMark

def ordered (found : ListMark) : Bool :=
  found.mark == '.' || found.mark == ')'

/-- A bullet, or at most nine digits and a point or parenthesis. -/
def read? (text : List Char) : Option ListMark :=
  match text with
  | c :: _ =>
    if c == '-' || c == '+' || c == '*' then some ⟨c, 0, 1⟩
    else
      let digits := text.takeWhile Char.isDigit
      match text.drop digits.length with
      | d :: _ =>
        if 1 ≤ digits.length && digits.length ≤ 9 && (d == '.' || d == ')') then
          some ⟨d, Text.decimalValue digits, digits.length + 1⟩
        else none
      | [] => none
  | [] => none

end ListMark

/-- A list marker that starts an item: the marker, the columns its content is indented by beyond
the marker's own indentation, and the place where the content starts. Content indented by more
than four columns keeps all but one of them. -/
def itemStart? (indent : Nat) (cursor : Cursor) : Option (ListMark × Nat × Cursor) :=
  match ListMark.read? cursor.rest with
  | none => none
  | some found =>
    if !found.ordered && isRule cursor.rest then none
    else
      let after : Cursor :=
        { column := cursor.column + found.width, rest := cursor.rest.drop found.width }
      match after.skipExactly 1 with
      | some inner =>
        let base := indent + found.width + 1
        if isBlankLine inner.rest then some (found, base, inner)
        else
          let (columns, content) := inner.skipUpTo 4
          if columns < 4 then some (found, base + columns, content) else some (found, base, inner)
      | none => if after.rest.isEmpty then some (found, indent + found.width + 1, after) else none

/-- Whether a list item may start here in the middle of a paragraph: not an empty item, and a
number only if it is one. A line outside the paragraph's containers has no such limit. -/
def itemInterrupts (inside : Bool) (text : List Char) : Bool :=
  match ListMark.read? text with
  | none => false
  | some found =>
    match text.drop found.width with
    | [] => !inside
    | c :: rest =>
      (c == ' ' || c == '\t') &&
        (!inside || ((!found.ordered || found.number == 1) && !isBlankLine rest))

end DocComment.Markup
