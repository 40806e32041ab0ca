import DocComment.Carrier
import DocComment.Unicode.Punctuation

namespace DocComment.Markup

open Unicode (isAsciiPunctuation)

/-- Escapes text. A backslash stands before ASCII punctuation; blanks that start a line are written
as character references, so that they open no code block. -/
def escapeFrom (lineStart : Bool) : List Char → List Char
  | [] => []
  | c :: rest =>
    if lineStart && c == ' ' then "&#32;".toList ++ escapeFrom true rest
    else if lineStart && c == '\t' then "&#9;".toList ++ escapeFrom true rest
    else if isAsciiPunctuation c then '\\' :: c :: escapeFrom (c == '\n') rest
    else c :: escapeFrom (c == '\n') rest

def escape (text : String) : String :=
  String.ofList (escapeFrom true text.toList)

/-- Puts a backslash before each of the `marked` characters. -/
def escapeOnly (marked : List Char) (text : List Char) : List Char :=
  text.flatMap fun c => if marked.contains c then ['\\', c] else [c]

def escapeDestination (text : String) : List Char :=
  escapeOnly ['\\', '<', '>'] text.toList

def escapeTitle (text : String) : List Char :=
  escapeOnly ['\\', '"'] text.toList

/-- A code span. Its fence is longer than any run of backticks inside; blanks pad content that
would otherwise touch the fence or lose blanks of its own. -/
def codeSpanMarkup (code : String) : List Char :=
  let chars := code.toList
  let fence := List.replicate (Text.longestRun '`' chars + 1) '`'
  let starts (c : Char) := chars.head? == some c
  let ends (c : Char) := chars.getLast? == some c
  let pad := if starts '`' || ends '`' || (starts ' ' && ends ' ' && !(Text.trim chars).isEmpty)
    then [' '] else []
  fence ++ pad ++ chars ++ pad ++ fence

/-- A fenced code block whose fence is longer than any run of backticks in the code. -/
def codeBlockMarkup (language code : String) : List Char :=
  let chars := code.toList
  let fence := List.replicate (max (Text.longestRun '`' chars) 2 + 1) '`'
  let lineEnd := if chars.isEmpty || chars.getLast? == some '\n' then [] else ['\n']
  fence ++ language.toList ++ '\n' :: chars ++ lineEnd ++ fence

/-- Destination and title in parentheses; an empty title is left out. -/
def tailMarkup (destination title : List Char) : List Char :=
  "(<".toList ++ destination ++ '>' ::
    (if title.isEmpty then [')'] else " \"".toList ++ title ++ "\")".toList)

/-- The tail of a link. A target that is no address travels as the title. -/
def targetMarkup (target : LinkTarget) (title : String) : List Char :=
  match target with
  | .uri address => tailMarkup (escapeDestination address) (escapeTitle title)
  | .unresolved raw => tailMarkup [] (escapeTitle raw)
  | resolved => tailMarkup [] (escapeTitle (Carrier.encode resolved))

/-- Puts `mark` before every line, and `blankMark` in place of an empty one. -/
def markLines (mark blankMark : List Char) (text : List Char) : List Char :=
  Text.joinLines <| (Text.lines text).map fun line => if line.isEmpty then blankMark else mark ++ line

/-- The lines of a list item: the marker before the first, the others indented by its width. -/
def itemMarkup (marker body : List Char) : List Char :=
  let indent := List.replicate (marker.length + 1) ' '
  match Text.lines body with
  | [] => []
  | first :: others =>
    Text.trimEnd <| Text.joinLines <|
      (marker ++ ' ' :: first) :: others.map fun line => if line.isEmpty then [] else indent ++ line

def bulletMarker : List Char := ['-']

def itemMarker (ordered : Bool) (number : Nat) : List Char :=
  if ordered then (toString number).toList ++ ['.'] else bulletMarker

/-- Blocks found so far, last first, and the inline content after them. -/
structure Layout where
  blocks : List (List Char) := []
  inline : List Char := []

namespace Layout

def endParagraph (layout : Layout) : Layout :=
  if layout.inline.isEmpty then layout else ⟨layout.inline :: layout.blocks, []⟩

def addBlock (layout : Layout) (block : List Char) : Layout :=
  let ended := layout.endParagraph
  if block.isEmpty then ended else { ended with blocks := block :: ended.blocks }

def finish (layout : Layout) : List Char :=
  List.intercalate ['\n', '\n'] layout.endParagraph.blocks.reverse

end Layout

/-- Whether text added to this content starts a line. -/
def atLineStart (written : List Char) : Bool :=
  written.isEmpty || written.getLast? == some '\n'

def leafMarkup (lineStart : Bool) : Leaf → List Char
  | .text written => escapeFrom lineStart written.toList
  | .softBreak => ['\n']
  | .hardBreak => ['\\', '\n']
  | .thematicBreak => ['-', '-', '-']
  | .code written => codeSpanMarkup written
  | .codeBlock language code => codeBlockMarkup language code

mutual

/-- One entity, as a block or inline. -/
def markupOf (lineStart : Bool) : Entity → List Char
  | .leaf leaf => leafMarkup lineStart leaf
  | .node tag children =>
    match tag with
    | .emphasis => '*' :: inlineMarkup [] children ++ ['*']
    | .strong => '*' :: '*' :: inlineMarkup [] children ++ ['*', '*']
    | .link target title => '[' :: inlineMarkup [] children ++ ']' :: targetMarkup target title
    | .image source title =>
      '!' :: '[' :: inlineMarkup [] children ++ ']' ::
        tailMarkup (escapeDestination source) (escapeTitle title)
    | .paragraph => inlineMarkup [] children
    | .heading level =>
      List.replicate (max 1 (min level 6)) '#' ++ ' ' ::
        (inlineMarkup [] children).map fun c => if c == '\n' then ' ' else c
    | .blockQuote => markLines ['>', ' '] ['>'] (blockMarkup {} children)
    | .list ordered => Text.joinLines (itemsMarkup ordered 1 children)
    | .listItem => itemMarkup bulletMarker (blockMarkup {} children)
    | .part _ | .document .. | .moduleDoc .. | .group .. | .declaration .. => blockMarkup {} children

/-- Inline content after what is already written. -/
def inlineMarkup (written : List Char) : List Entity → List Char
  | [] => written
  | entity :: rest => inlineMarkup (written ++ markupOf (atLineStart written) entity) rest

/-- Blocks apart by blank lines; entities that are no blocks form paragraphs. -/
def blockMarkup (layout : Layout) : List Entity → List Char
  | [] => layout.finish
  | entity :: rest =>
    if entity.isBlock then blockMarkup (layout.addBlock (markupOf true entity)) rest
    else blockMarkup { layout with
      inline := layout.inline ++ markupOf (atLineStart layout.inline) entity } rest

/-- The items of a list; anything else in it counts as the content of an item. -/
def itemsMarkup (ordered : Bool) (number : Nat) : List Entity → List (List Char)
  | [] => []
  | entity :: rest =>
    let body := match entity with
      | .node .listItem children => blockMarkup {} children
      | other => markupOf true other
    itemMarkup (itemMarker ordered number) body :: itemsMarkup ordered (number + 1) rest

end

/-- Entities as blocks. -/
def write (entities : List Entity) : String :=
  String.ofList (blockMarkup {} entities)

/-- Entities as inline content. -/
def writeInline (entities : List Entity) : String :=
  String.ofList (inlineMarkup [] entities)

end DocComment.Markup
