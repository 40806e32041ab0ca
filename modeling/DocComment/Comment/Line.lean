import DocComment.Text.Basic

namespace DocComment.Comment

inductive FenceKind where
  | backticks
  | tildes
  deriving Repr, DecidableEq

def FenceKind.mark : FenceKind → Char
  | .backticks => '`'
  | .tildes => '~'

/-- A run of fence marks at the start of a line. -/
structure Fence where
  kind : FenceKind
  length : Nat
  /-- Nothing but blanks follows the marks. -/
  bare : Bool
  deriving Repr, DecidableEq

namespace Fence

def minLength : Nat := 3

def ofKind? (kind : FenceKind) (content : List Char) : Option Fence :=
  let length := (content.takeWhile (· == kind.mark)).length
  if length < minLength then none
  else some ⟨kind, length, (Text.trim (content.drop length)).isEmpty⟩

def detect? (content : List Char) : Option Fence :=
  (ofKind? .backticks content).or (ofKind? .tildes content)

/-- A bare fence of the same kind closes one that is not longer. -/
def closedBy (opened : Fence) (line : Option Fence) : Bool :=
  line.any fun fence => fence.kind == opened.kind && opened.length ≤ fence.length && fence.bare

end Fence

/-- Columns of indentation and the content after it; a tab goes to the next multiple of four. -/
def indentation (columns : Nat) : List Char → Nat × List Char
  | ' ' :: rest => indentation (columns + 1) rest
  | '\t' :: rest => indentation (columns + (4 - columns % 4)) rest
  | content => (columns, content)

/-- Number of quote marks at the start of a line, each after at most three blanks and before at most
one. -/
def quoteDepth : Nat → List Char → Nat
  | 0, _ => 0
  | fuel + 1, text =>
    let blanks := (text.takeWhile (· == ' ')).length
    match if blanks ≤ 3 then text.drop blanks else [] with
    | '>' :: ' ' :: rest => quoteDepth fuel rest + 1
    | '>' :: rest => quoteDepth fuel rest + 1
    | _ => 0

/-- The deepest nesting of quotes that is counted. -/
def maxQuoteDepth : Nat := 255

/-- Width of a list marker: a bullet, or at most nine digits and a delimiter, before a blank or the
end of the line. -/
def listMarkerWidth? (content : List Char) : Option Nat :=
  let ended (width : Nat) : Option Nat :=
    match content.drop width with
    | [] => some width
    | c :: _ => if c == ' ' || c == '\t' then some width else none
  match content with
  | [] => none
  | c :: _ =>
    if c == '-' || c == '*' || c == '+' then ended 1
    else
      let digits := (content.takeWhile Char.isDigit).length
      if digits == 0 || 9 < digits then none
      else match content.drop digits with
        | d :: _ => if d == '.' || d == ')' then ended (digits + 1) else none
        | [] => none

/-- Facts about one line. -/
structure Line where
  /-- Lines are numbered from one. -/
  number : Nat
  text : List Char
  content : List Char
  indent : Nat
  quoteDepth : Nat
  listMarker : Option Nat
  fence : Option Fence
  deriving Repr, DecidableEq

namespace Line

def isBlank (line : Line) : Bool :=
  line.content.isEmpty

/-- Characters of indentation. -/
def contentStart (line : Line) : Nat :=
  line.text.length - line.content.length

def classify (number : Nat) (text : List Char) : Line :=
  let (indent, content) := indentation 0 text
  { number, text, content, indent
    quoteDepth := min maxQuoteDepth (Comment.quoteDepth (text.length + 1) text)
    listMarker := listMarkerWidth? content
    fence := Fence.detect? content }

end Line

/-- The classified lines of a comment. A line feed ends a line; carriage returns before it are
dropped. -/
def linesOf (text : String) : List Line :=
  (Text.rawLines text.toList).zipIdx 1 |>.map fun (line, number) =>
    Line.classify number (Text.dropEndWhile (· == '\r') line)

end DocComment.Comment
