import DocComment.Comment.CommandTable
import DocComment.Comment.Line

/-! Cutting a comment into markup and commands. Commands count at the start of a block only: outside
quotes, fences and list items, and indented by at most three columns. The reader of markup is a
parameter. -/
namespace DocComment.Comment

/-- A node of a segmented comment. -/
inductive Node where
  /-- Markup that is under no command. -/
  | markup (blocks : List Entity)
  | special (command : SpecialCommand) (arguments : List String) (line : Nat)
  | part (kind : SectionKind) (content : List Entity)
  | inline (command : InlineCommand) (name : String) (content : List Entity) (line : Nat)
  deriving Repr, DecidableEq

/-- A section or inline command whose content is still growing. Its lines come last first. -/
inductive OpenCommand where
  | part (kind : SectionKind) (lines : List (List Char))
  | inline (command : InlineCommand) (name : String) (line : Nat) (lines : List (List Char))
  deriving Repr, DecidableEq

namespace OpenCommand

def addLine (text : List Char) : OpenCommand → OpenCommand
  | .part kind lines => .part kind (text :: lines)
  | .inline command name line lines => .inline command name line (text :: lines)

/-- The node of a command whose content is complete. -/
def close (read : String → List Entity) : OpenCommand → Node
  | .part kind lines => .part kind (read (String.ofList (Text.joinLines lines.reverse)))
  | .inline command name line lines =>
    .inline command name (read (String.ofList (Text.joinLines lines.reverse))) line

end OpenCommand

structure SegmentState where
  /-- Lines of markup under no command, last first. -/
  markup : List (List Char) := []
  openCommand : Option OpenCommand := none
  fence : Option Fence := none
  inList : Bool := false
  previousBlank : Bool := false
  /-- Finished nodes, last first. -/
  nodes : List Node := []

/-- The deepest indentation of a line that starts a block. -/
def maxBlockIndent : Nat := 3

namespace SegmentState

def append (state : SegmentState) (text : List Char) : SegmentState :=
  match state.openCommand with
  | some command => { state with openCommand := some (command.addLine text) }
  | none => { state with markup := text :: state.markup }

def closeCommand (read : String → List Entity) (state : SegmentState) : SegmentState :=
  match state.openCommand with
  | none => state
  | some command => { state with openCommand := none, nodes := command.close read :: state.nodes }

/-- Turns the pending markup into a node unless it holds nothing. -/
def flushMarkup (read : String → List Entity) (state : SegmentState) : SegmentState :=
  let cleared := { state with markup := [] }
  if state.markup.all fun line => (Text.trim line).isEmpty then cleared
  else match read (String.ofList (Text.joinLines state.markup.reverse)) with
    | [] => cleared
    | blocks => { cleared with nodes := .markup blocks :: state.nodes }

def endSegment (read : String → List Entity) (state : SegmentState) : SegmentState :=
  (state.closeCommand read).flushMarkup read

/-- A marker opens a list; text without indentation after a blank line ends it. -/
def trackList (state : SegmentState) (line : Line) : SegmentState :=
  if line.quoteDepth == 0 && line.indent ≤ maxBlockIndent && line.listMarker.isSome then
    { state with inList := true }
  else if state.inList && state.previousBlank && line.indent == 0 then { state with inList := false }
  else state

def atBlockStart (state : SegmentState) (line : Line) : Bool :=
  line.quoteDepth == 0 && line.indent ≤ maxBlockIndent && !state.inList

/-- Applies a command to the rest of its line; none if the line does not fit the command and so is
text. -/
def afterCommand? (read : String → List Entity) (state : SegmentState) (command : Command)
    (rest : List Char) (number : Nat) : Option SegmentState :=
  match command with
  | .special .endBlock =>
    (SpecialCommand.endBlock.arguments? rest).map fun _ => state.closeCommand read
  | .special special =>
    (special.arguments? rest).map fun arguments =>
      let ended := state.endSegment read
      { ended with nodes := .special special arguments number :: ended.nodes }
  | .part kind =>
    some { state.endSegment read with openCommand := some (.part kind [Text.trimStart rest]) }
  | .inline inline =>
    let rest := Text.trim rest
    let (name, content) := (Text.splitOnce Unicode.isWhite rest).getD (rest, [])
    if name.isEmpty then none
    else some { state.endSegment read with
      openCommand := some (.inline inline (String.ofList name) number [Text.trimStart content]) }

/-- A line of text: it may open a fence. -/
def addText (state : SegmentState) (line : Line) : SegmentState :=
  let fenced :=
    if line.quoteDepth == 0 && (line.indent ≤ maxBlockIndent || state.inList) then
      { state with fence := line.fence }
    else state
  { fenced.append line.text with previousBlank := false }

def push (read : String → List Entity) (table : CommandTable) (state : SegmentState) (line : Line) :
    SegmentState :=
  match state.fence with
  | some opened =>
    let closed := line.quoteDepth == 0 && opened.closedBy line.fence
    { state.append line.text with
      fence := if closed then none else some opened
      previousBlank := false }
  | none =>
    if line.isBlank then
      let closed := state.closeCommand read
      { closed with markup := [] :: closed.markup, previousBlank := true }
    else
      let state := state.trackList line
      let applied? := if state.atBlockStart line then
          (table.recognize? line.content).bind fun (command, length) =>
            state.afterCommand? read command (line.content.drop length) line.number
        else none
      match applied? with
      | some applied => { applied with previousBlank := false }
      | none => state.addText line

end SegmentState

/-- The nodes of a comment in the order of its lines. -/
def segment (read : String → List Entity) (table : CommandTable) (text : String) : List Node :=
  (((linesOf text).foldl (SegmentState.push read table) {}).endSegment read).nodes.reverse

end DocComment.Comment
