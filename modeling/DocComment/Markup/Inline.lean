import DocComment.Markup.Emphasis
import DocComment.Markup.Html
import DocComment.Markup.Link

namespace DocComment.Markup

/-- An opening bracket that may start the text of a link or image. -/
structure Bracket where
  image : Bool
  /-- A bracket around a link is no longer active. -/
  active : Bool := true
  /-- The text from just after the bracket on. -/
  opened : List Char
  /-- Pieces after the bracket, last first. -/
  pieces : List Piece := []

structure InlineState where
  /-- Pieces outside all brackets, last first. -/
  pieces : List Piece := []
  /-- Open brackets, innermost first. -/
  brackets : List Bracket := []
  /-- The character just before, none at the start of a line. -/
  before : Option Char := none

namespace InlineState

def push (state : InlineState) (piece : Piece) : InlineState :=
  match state.brackets with
  | [] => { state with pieces := piece :: state.pieces }
  | inner :: outer =>
    { state with brackets := { inner with pieces := piece :: inner.pieces } :: outer }

def pushAll (state : InlineState) (pieces : List Piece) : InlineState :=
  pieces.foldl push state

/-- Adds events; `last` is the last character they were read from. -/
def add (state : InlineState) (events : List Event) (last : Option Char) : InlineState :=
  { state.push (.events events) with before := last }

def addText (state : InlineState) (text : List Char) (last : Option Char) : InlineState :=
  state.add [.text (String.ofList text)] last

def bracketText (bracket : Bracket) : Piece :=
  .events [.text (if bracket.image then "![" else "[")]

/-- Gives up the innermost bracket: it is literal text. -/
def dropBracket (state : InlineState) : InlineState :=
  match state.brackets with
  | [] => state
  | inner :: outer =>
    ({ state with brackets := outer }.push (bracketText inner)).pushAll inner.pieces.reverse

def dropBrackets : Nat → InlineState → InlineState
  | 0, state => state
  | count + 1, state => dropBrackets count state.dropBracket

end InlineState

/-- The text of a code span: line ends are blanks, and one blank is dropped at both ends if both
are there and other characters are too. -/
def codeSpanText (raw : List Char) : List Char :=
  let text := raw.map fun c => if c == '\n' then ' ' else c
  if text.head? == some ' ' && text.getLast? == some ' ' && text.any (· != ' ') then
    (text.drop 1).dropLast
  else text

/-- The raw text up to the next run of exactly `length` backticks, and the text after that run.
`current` counts the backticks just before. -/
def codeSpanEnd? (length : Nat) : (current : Nat) → List Char → Option (List Char × List Char)
  | current, [] => if current == length then some ([], []) else none
  | current, c :: rest =>
    if c == '`' then (codeSpanEnd? length (current + 1) rest).map fun (raw, after) => (c :: raw, after)
    else if current == length then some ([], c :: rest)
    else (codeSpanEnd? length 0 rest).map fun (raw, after) => (c :: raw, after)

/-- The code span after an opening run of `length` backticks. -/
def codeSpan? (length : Nat) (text : List Char) : Option (List Char × List Char) :=
  (codeSpanEnd? length 0 text).map fun (raw, after) =>
    (codeSpanText (raw.take (raw.length - length)), after)

/-- Where a closing bracket leads: destination, title and the text after the link. -/
def linkTail? (definitions : List Definition) (bracket : Bracket) (labelEnd : List Char)
    (rest : List Char) : Option ((List Char × List Char) × List Char) :=
  let define? (label : List Char) (after : List Char) :=
    (definitions.find? (·.label == normalLabel label)).map fun found =>
      ((found.destination, found.title), after)
  let own := bracket.opened.take (bracket.opened.length - labelEnd.length)
  let shortcut? (after : List Char) :=
    match labelUntil? (own ++ [']']) with
    | some (label, []) => if isLabel label then define? label after else none
    | _ => none
  (inlineTail? rest).or <|
    match rest with
    | '[' :: ']' :: after => shortcut? after
    | _ =>
      match label? rest with
      | some (label, after) => define? label after
      | none => shortcut? rest

/-- Closes the innermost bracket at a closing bracket. -/
def closeBracket (definitions : List Definition) (state : InlineState) (labelEnd rest : List Char) :
    InlineState × List Char :=
  match state.brackets with
  | [] => (state.addText [']'] (some ']'), rest)
  | inner :: outer =>
    match if inner.active then linkTail? definitions inner labelEnd rest else none with
    | none => (state.dropBracket.addText [']'] (some ']'), rest)
    | some ((destination, title), after) =>
      let opening :=
        if inner.image then Opening.image (String.ofList destination) (String.ofList title)
        else Opening.link (String.ofList destination) (String.ofList title)
      let events := .enter opening :: resolveEmphasis inner.pieces.reverse ++ [.leave]
      let outer := if inner.image then outer
        else outer.map fun bracket => if bracket.image then bracket else { bracket with active := false }
      let last := rest[rest.length - after.length - 1]?
      ({ state with brackets := outer }.add events last, after)

/-- Characters that begin no inline construct; a run of them is one text. -/
def isPlain (c : Char) : Bool :=
  !(isLineBlank c || c == '\n' || c == '\\' || c == '`' || c == '*' || c == '_' || c == '[' ||
    c == ']' || c == '!' || c == '<' || c == '&')

/-- Reads the next element; the text is not empty. -/
def inlineStep (definitions : List Definition) (state : InlineState) (c : Char) (rest : List Char) :
    InlineState × List Char :=
  if c == '\n' then
    ({ state.push (.events [.softBreak]) with before := none },
      rest.dropWhile fun d => d == ' ' || d == '\t')
  else if isLineBlank c then
    let blanks := c :: rest.takeWhile isLineBlank
    let after := rest.dropWhile isLineBlank
    match after with
    | [] => (state, [])
    | '\n' :: next =>
      if 2 ≤ blanks.length then
        ({ state.push (.events [.hardBreak]) with before := none },
          next.dropWhile fun d => d == ' ' || d == '\t')
      else (state, after)
    | _ => (state.addText blanks blanks.getLast?, after)
  else if c == '\\' then
    match rest with
    | '\n' :: next =>
      ({ state.push (.events [.hardBreak]) with before := none },
        next.dropWhile fun d => d == ' ' || d == '\t')
    | d :: next =>
      if Unicode.isAsciiPunctuation d then (state.addText [d] (some d), next)
      else (state.addText ['\\'] (some '\\'), rest)
    | [] => (state.addText ['\\'] (some '\\'), rest)
  else if c == '`' then
    let length := runLength '`' rest + 1
    let inner := rest.drop (length - 1)
    match codeSpan? length inner with
    | some (code, after) => (state.add [.code (String.ofList code)] (some '`'), after)
    | none => (state.addText (List.replicate length '`') (some '`'), inner)
  else if c == '*' || c == '_' then
    let length := runLength c rest + 1
    let after := rest.drop (length - 1)
    let delimiters := Delimiters.ofRun c length state.before after.head?
    let state :=
      if delimiters.canOpen || delimiters.canClose then state.push (.delimiters delimiters)
      else state.push (.events (literalMarks c length))
    ({ state with before := some c }, after)
  else if c == '[' then
    ({ state with brackets := { image := false, opened := rest } :: state.brackets, before := some '[' },
      rest)
  else if c == '!' then
    match rest with
    | '[' :: opened =>
      ({ state with brackets := { image := true, opened } :: state.brackets, before := some '[' },
        opened)
    | _ => (state.addText ['!'] (some '!'), rest)
  else if c == ']' then closeBracket definitions state (c :: rest) rest
  else if c == '<' then
    match autolink? rest with
    | some (address, after) =>
      let shown := String.ofList address
      (state.add [.enter (.link shown ""), .text shown, .leave] (some '>'), after)
    | none =>
      match inlineMarkupEnd? rest with
      | some after =>
        (state.addText (c :: rest.take (rest.length - after.length)) (some '>'), after)
      | none => (state.addText ['<'] (some '<'), rest)
  else if c == '&' then
    match characterReference? rest with
    | some (chars, after) => (state.addText chars (some ';'), after)
    | none => (state.addText ['&'] (some '&'), rest)
  else
    let plain := c :: rest.takeWhile isPlain
    (state.addText plain plain.getLast?, rest.dropWhile isPlain)

def runInline (definitions : List Definition) : Nat → InlineState → List Char → InlineState
  | 0, state, _ => state
  | _, state, [] => state
  | fuel + 1, state, c :: rest =>
    let (next, after) := inlineStep definitions state c rest
    runInline definitions fuel next after

/-- The events of inline content. -/
def inlineEvents (definitions : List Definition) (text : List Char) : List Event :=
  let state := runInline definitions text.length {} text
  resolveEmphasis (state.dropBrackets state.brackets.length).pieces.reverse

end DocComment.Markup
