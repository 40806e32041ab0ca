import DocComment.Markup.Html
import DocComment.Markup.Link

namespace DocComment.Markup

/-- How a line ended. A carriage return and a line feed together count as a line feed. -/
inductive LineEnding where
  | lineFeed
  | carriageReturn
  | endOfText
  deriving Repr, DecidableEq

structure Line where
  content : List Char
  ending : LineEnding
  deriving Repr, DecidableEq

def Line.cons (c : Char) : List Line → List Line
  | [] => [⟨[c], .endOfText⟩]
  | line :: rest => { line with content := c :: line.content } :: rest

/-- The lines of a text. No line starts at the very end of the text. -/
def linesOf : List Char → List Line
  | [] => []
  | '\n' :: rest => ⟨[], .lineFeed⟩ :: linesOf rest
  | '\r' :: '\n' :: rest => ⟨[], .lineFeed⟩ :: linesOf rest
  | '\r' :: rest => ⟨[], .carriageReturn⟩ :: linesOf rest
  | c :: rest => Line.cons c (linesOf rest)

inductive Block where
  | paragraph (text : List Char)
  | heading (level : Nat) (text : List Char)
  | rule
  | code (info : List Char) (text : List Char)
  | html (text : List Char)
  | quote (children : List Block)
  | list (ordered : Bool) (tight : Bool) (items : List Block)
  | item (children : List Block)
  deriving Repr, Inhabited

/-- A block that later lines can still add blocks to. -/
inductive Container where
  | quote
  /-- A list of the items that share a marker character; it is tight until a blank line separates
  two of its blocks. -/
  | list (mark : Char) (tight : Bool)
  /-- An item whose content is indented by the given number of columns. -/
  | item (indent : Nat)
  deriving Repr, DecidableEq

/-- An open container with the blocks it holds so far, last first. -/
structure OpenContainer where
  container : Container
  children : List Block := []

structure BlockState where
  /-- Finished top-level blocks, last first. -/
  blocks : List Block := []
  /-- Open containers, innermost first. -/
  spine : List OpenContainer := []
  /-- Link definitions; the first for a label counts. -/
  definitions : List Definition := []
  lastBlank : Bool := false
  /-- The innermost item started with an empty line. -/
  emptyItem : Bool := false

namespace BlockState

def append (state : BlockState) (block : Block) : BlockState :=
  match state.spine with
  | [] => { state with blocks := block :: state.blocks }
  | inner :: outer =>
    { state with spine := { inner with children := block :: inner.children } :: outer }

def enter (state : BlockState) (container : Container) : BlockState :=
  { state with spine := ⟨container, []⟩ :: state.spine }

def finished (inner : OpenContainer) : Block :=
  let children := inner.children.reverse
  match inner.container with
  | .quote => .quote children
  | .list mark tight => .list (mark == '.' || mark == ')') tight children
  | .item _ => .item children

/-- Closes the innermost container. -/
def close (state : BlockState) : BlockState :=
  match state.spine with
  | [] => state
  | inner :: outer =>
    let emptyItem := match inner.container with
      | .list _ true => false
      | _ => state.emptyItem
    BlockState.append { state with spine := outer, emptyItem } (finished inner)

/-- Closes the innermost containers until `depth` are open. -/
def closeTo (depth : Nat) : Nat → BlockState → BlockState
  | 0, state => state
  | fuel + 1, state => if state.spine.length ≤ depth then state else closeTo depth fuel state.close

/-- An item that began with two empty lines is over. -/
def finishEmptyItem (state : BlockState) : BlockState :=
  let closed :=
    if state.emptyItem && state.lastBlank then
      match state.spine with
      | ⟨.item _, _⟩ :: _ => state.close
      | _ => state
    else state
  { closed with emptyItem := false }

def loosenAt (index : Nat) (spine : List OpenContainer) : List OpenContainer :=
  spine.modify index fun inner =>
    match inner.container with
    | .list mark _ => { inner with container := .list mark false }
    | _ => inner

/-- Before a block that is no list item: an innermost list is over. A blank line before the block
loosens the list of the item that the block belongs to. -/
def finishList (state : BlockState) : BlockState :=
  let state := state.finishEmptyItem
  let state := match state.spine with
    | ⟨.list .., _⟩ :: _ => state.close
    | _ => state
  if state.lastBlank then { state with spine := loosenAt 1 state.spine, lastBlank := false }
  else state

/-- Before an item with this marker: the innermost list goes on if it has the same marker, and is
loose if a blank line came before. Otherwise a new list starts. -/
def continueList (state : BlockState) (mark : Char) : BlockState :=
  let state := state.finishEmptyItem
  let fresh (state : BlockState) : BlockState := { state.enter (.list mark true) with lastBlank := false }
  match state.spine with
  | ⟨.list existing _, _⟩ :: _ =>
    if existing == mark then
      if state.lastBlank then { state with spine := loosenAt 0 state.spine, lastBlank := false }
      else state
    else fresh state.finishList
  | [] => fresh state
  | _ => fresh state.finishList

end BlockState

/-- A quote mark and one column of blanks after it. -/
def quoteMark? (cursor : Cursor) : Option Cursor :=
  match cursor.rest with
  | '>' :: _ => some (cursor.next.skipUpTo 1).2
  | _ => none

/-- Follows the open containers, outermost first, as far as the line continues them: their number
and the place after their marks. -/
def followSpine : List Container → Cursor → Nat × Cursor
  | [], cursor => (0, cursor)
  | container :: inner, cursor =>
    let after? := match container with
      | .quote => quoteMark? (cursor.skipUpTo 3).2
      | .item indent =>
        match cursor.skipBlanks indent with
        | (0, after) => some after
        | (_, after) => if after.rest.isEmpty then some after else none
      | .list .. => some cursor
    match after? with
    | some after => let (count, last) := followSpine inner after; (count + 1, last)
    | none => (0, cursor)

def BlockState.containers (state : BlockState) : List Container :=
  (state.spine.map (·.container)).reverse

/-- Whether the text starts a block that ends a paragraph before it. -/
def interruptsParagraph (inside : Bool) (text : List Char) : Bool :=
  text.isEmpty || isRule text || (headingLevel? text).isSome || (codeFence? text).isSome ||
    text.head? == some '>' || itemInterrupts inside text ||
    (match text with
      | '<' :: rest => (interruptingHtml? rest).isSome
      | _ => false)

/-- How a paragraph ends: at some line, or with an underline that makes it a heading. -/
structure ParagraphRest where
  /-- The lines after the first one, without the marks of their containers. -/
  texts : List (List Char)
  /-- The level of the underline that came after them. -/
  underline : Option Nat
  remaining : List Line

/-- Gathers the lines that continue a paragraph. A line outside the paragraph's containers
continues it too unless it starts a block. -/
def paragraphRest (containers : List Container) : List Line → ParagraphRest
  | [] => ⟨[], none, []⟩
  | line :: rest =>
    let (count, start) := followSpine containers { rest := line.content }
    let inside := count == containers.length
    let (missing, text) := start.skipBlanks 4
    let shallow := missing != 0
    match if shallow && inside then underlineLevel? text.rest else none with
    | some level => ⟨[], some level, rest⟩
    | none =>
      if (shallow && interruptsParagraph inside text.rest) ||
          (text.rest.all fun c => c == ' ' || c == '\t') then
        ⟨[], none, line :: rest⟩
      else
        let tail := paragraphRest containers rest
        { tail with texts := start.rest :: tail.texts }

/-- The lines a definition may use: those of the paragraph that lie in its containers. -/
def definitionLines (containers : List Container) : List Line → List (List Char)
  | [] => []
  | line :: rest =>
    let (count, start) := followSpine containers { rest := line.content }
    let (missing, text) := start.skipBlanks 4
    let shallow := missing != 0
    if count != containers.length || (text.rest.all isLineBlank) ||
        (shallow && (interruptsParagraph true text.rest || (underlineLevel? text.rest).isSome)) then []
    else start.rest :: definitionLines containers rest

def indentation (columns : Nat) : List Char :=
  List.replicate columns ' '

/-- The raw text from a cursor on to the end of the line. A carriage return alone does not end it. -/
def rawLine (content : List Char) (ending : LineEnding) (following : List Line) :
    List Char × List Line :=
  match ending with
  | .lineFeed => (content ++ ['\n'], following)
  | .endOfText => (content, following)
  | .carriageReturn =>
    match following with
    | [] => (content ++ ['\r'], [])
    | next :: rest =>
      let (text, remaining) := rawLine next.content next.ending rest
      (content ++ '\r' :: text, remaining)

/-- Code lines up to the closing fence or the end of the containers. -/
def fencedLines (containers : List Container) (fence : CodeFence) (indent : Nat) :
    Nat → List Line → List Char × List Line
  | 0, remaining => ([], remaining)
  | _, [] => ([], [])
  | fuel + 1, line :: rest =>
    let (count, start) := followSpine containers { rest := line.content }
    if count < containers.length then ([], line :: rest)
    else
      let (_, text) := start.skipBlanks indent
      let (missing, close) := text.skipBlanks (4 - indent)
      if missing != 0 && fence.closedBy close.rest then ([], rest)
      else
        let (raw, remaining) := rawLine text.rest line.ending rest
        let (more, last) := fencedLines containers fence indent fuel remaining
        (indentation text.leftover ++ raw ++ more, last)

/-- Code lines indented by four columns. Each comes with whether it is blank. -/
def indentedLines (containers : List Container) : Nat → List Line → List (Bool × List Char) × List Line
  | 0, remaining => ([], remaining)
  | _, [] => ([], [])
  | fuel + 1, line :: rest =>
    let (count, start) := followSpine containers { rest := line.content }
    let (missing, text) := start.skipBlanks 4
    if count != containers.length || (missing != 0 && !text.rest.isEmpty) then ([], line :: rest)
    else
      let (raw, remaining) := rawLine text.rest line.ending rest
      let (more, last) := indentedLines containers fuel remaining
      ((isBlankLine text.rest, indentation text.leftover ++ raw) :: more, last)

/-- Raw markup lines after the first. -/
def htmlLines (containers : List Container) (ends : HtmlEnd) :
    Nat → List Char → List Line → List Char × List Line
  | 0, _, remaining => ([], remaining)
  | _, _, [] => ([], [])
  | fuel + 1, previous, line :: rest =>
    let (count, start) := followSpine containers { rest := line.content }
    let ended := match ends with
      | .holding close => Text.containsText close previous
      | .blankLine => isBlankLine start.rest
    if count < containers.length || ended then ([], line :: rest)
    else
      let (raw, remaining) := rawLine start.rest line.ending rest
      let (more, last) := htmlLines containers ends fuel raw remaining
      (indentation start.leftover ++ raw ++ more, last)

private def trailingBlanksDropped (lines : List (Bool × List Char)) : List (Bool × List Char) :=
  (lines.reverse.dropWhile (·.1)).reverse

/-- Reads the block that starts at the cursor, where no container starts any more. -/
def leafBlock (state : BlockState) (cursor : Cursor) (ending : LineEnding) (following : List Line) :
    BlockState × List Line :=
  let containers := state.containers
  let fuel := following.length + 1
  let (indent, start) := cursor.skipUpTo 4
  if indent == 4 then
    let (raw, remaining) := rawLine start.rest ending following
    let (more, last) := indentedLines containers fuel remaining
    let kept := trailingBlanksDropped more
    let text := indentation start.leftover ++ raw ++ (kept.map (·.2)).flatten
    ({ state.append (.code [] text) with lastBlank := kept.length < more.length }, last)
  else
    let text := start.rest
    let html? := match text with
      | '<' :: rest => htmlBlock? rest
      | _ => none
    match html? with
    | some ends =>
      let (raw, remaining) := rawLine text ending following
      let (more, last) := htmlLines containers ends fuel raw remaining
      (state.append (.html (indentation (max cursor.leftover indent) ++ raw ++ more)), last)
    | none =>
      if isRule text then (state.append .rule, following)
      else match headingLevel? text with
        | some level => (state.append (.heading level (headingText (text.drop level))), following)
        | none =>
          let candidate := Text.joinLines (text :: definitionLines containers following)
          match if text.head? == some '[' then definition? candidate else none with
          | some (definition, after) =>
            let used := candidate.countP (· == '\n') - after.countP (· == '\n')
            ({ state with definitions := state.definitions ++ [definition] }, following.drop used)
          | none =>
            match codeFence? text with
            | some (fence, info) =>
              let (code, last) := fencedLines containers fence indent fuel following
              (state.append (.code (unescape (Text.dropEndWhile isLineBlank (info.dropWhile isLineBlank)))
                code), last)
            | none =>
              let found := paragraphRest containers following
              let body := Text.joinLines (text :: found.texts)
              match found.underline with
              | some level =>
                (state.append (.heading level (Text.dropEndWhile isLineBlank body)), found.remaining)
              | none => (state.append (.paragraph body), found.remaining)

/-- Opens the containers that start on this line and reads what follows them. -/
def openContainers (ending : LineEnding) (following : List Line) :
    Nat → BlockState → Cursor → BlockState × List Line
  | 0, state, _ => (state, following)
  | fuel + 1, state, cursor =>
    let (indent, start) := cursor.skipUpTo 4
    let item? := if indent < 4 then itemStart? indent start else none
    match item? with
    | some (found, width, content) =>
      let state := (state.continueList found.mark).enter (.item width)
      if isBlankLine content.rest then ({ state with emptyItem := true }, following)
      else openContainers ending following fuel state content
    | none =>
      match if indent < 4 then quoteMark? start else none with
      | some content => openContainers ending following fuel (state.finishList.enter .quote) content
      | none =>
        if isBlankLine cursor.rest then
          match state.spine with
          | ⟨.quote, _⟩ :: _ => (state, following)
          | ⟨.item _, children⟩ :: outer =>
            if state.emptyItem then
              ({ state with spine := ⟨.item 0, children⟩ :: outer, lastBlank := true }, following)
            else ({ state with lastBlank := true }, following)
          | _ => ({ state with lastBlank := true }, following)
        else leafBlock state.finishList cursor ending following

/-- Reads one block, or the part of a line that opens containers. -/
def blockStep (state : BlockState) (line : Line) (following : List Line) : BlockState × List Line :=
  let (count, cursor) := followSpine state.containers { rest := line.content }
  openContainers line.ending following (line.content.length + 1)
    (state.closeTo count state.spine.length) cursor

def runBlocks : Nat → BlockState → List Line → BlockState
  | 0, state, _ => state
  | _, state, [] => state.closeTo 0 state.spine.length
  | fuel + 1, state, line :: following =>
    let (next, remaining) := blockStep state line following
    runBlocks fuel next remaining

/-- The blocks of a text and its link definitions. -/
def blocksOf (text : List Char) : List Block × List Definition :=
  let lines := linesOf text
  let state := runBlocks (lines.length + 1) {} lines
  (state.blocks.reverse, state.definitions)

end DocComment.Markup
