import DocComment.Markup.Event
import DocComment.Unicode.Punctuation

namespace DocComment.Markup

/-- A run of `*` or `_` that may open or close emphasis. -/
structure Delimiters where
  mark : Char
  /-- Length of the run as written. -/
  run : Nat
  canOpen : Bool
  canClose : Bool
  deriving Repr, DecidableEq

/-- A run can open if text follows it, and close if text comes before it. Underscores do neither
inside a word. A missing neighbour counts as a blank. -/
def Delimiters.ofRun (mark : Char) (run : Nat) (before after : Option Char) : Delimiters :=
  let blank (c : Option Char) := c.all Unicode.isWhite
  let punctuation (c : Option Char) := c.any Unicode.isPunctuation
  let edge (c : Option Char) := blank c || punctuation c
  { mark, run
    canOpen := !blank after && ((mark == '*' && !punctuation after) || edge before)
    canClose := !blank before && ((mark == '*' && !punctuation before) || edge after) }

/-- Pieces of inline content before emphasis is resolved. -/
inductive Piece where
  | events (events : List Event)
  | delimiters (delimiters : Delimiters)
  deriving Repr, DecidableEq

/-- A run that waits for its closing, with the number of marks still free and the events after it. -/
structure OpenRun where
  delimiters : Delimiters
  free : Nat
  inner : List Event := []

def literalMarks (mark : Char) (count : Nat) : List Event :=
  if count == 0 then [] else [.text (String.ofList (List.replicate count mark))]

/-- Wraps content in emphasis for `count` pairs of marks: two at a time are strong, the innermost
first. -/
def wrapEmphasis : Nat → List Event → List Event
  | 0, inner => inner
  | 1, inner => .enter .emphasis :: inner ++ [.leave]
  | count + 2, inner => wrapEmphasis count (.enter .strong :: inner ++ [.leave])

/-- Two runs match if they share the mark. If one of them can both open and close, their lengths
must not add up to a multiple of three unless both are multiples of three. -/
def Delimiters.matches (opener closer : Delimiters) : Bool :=
  let both (d : Delimiters) := d.canOpen && d.canClose
  opener.mark == closer.mark &&
    ((!both opener && !both closer) || (opener.run + closer.run) % 3 != 0 || closer.run % 3 == 0)

/-- Emphasis under construction: events before any open run, and open runs innermost first. -/
structure EmphasisState where
  base : List Event := []
  runs : List OpenRun := []

namespace EmphasisState

def push (state : EmphasisState) (events : List Event) : EmphasisState :=
  match state.runs with
  | [] => { state with base := state.base ++ events }
  | run :: outer => { state with runs := { run with inner := run.inner ++ events } :: outer }

/-- The innermost run that `closer` can close, with the content between them, in which runs passed
over are literal. -/
def findOpener (closer : Delimiters) : List OpenRun → List Event → Option (OpenRun × List Event × List OpenRun)
  | [], _ => none
  | run :: outer, passed =>
    let content := run.inner ++ passed
    if run.delimiters.matches closer then some (run, content, outer)
    else findOpener closer outer (literalMarks run.delimiters.mark run.free ++ content)

/-- Closes open runs with `free` marks of a closing run, then keeps or writes out what is left. -/
def closeRun (closer : Delimiters) : Nat → Nat → EmphasisState → EmphasisState
  | 0, free, state => state.push (literalMarks closer.mark free)
  | _, 0, state => state
  | fuel + 1, free + 1, state =>
    match if closer.canClose then findOpener closer state.runs [] else none with
    | some (opener, content, outer) =>
      let used := min (free + 1) opener.free
      let wrapped := wrapEmphasis used content
      let rest := opener.free - used
      let next : EmphasisState :=
        if rest == 0 then { state with runs := outer }.push wrapped
        else { state with runs := { opener with free := rest, inner := wrapped } :: outer }
      closeRun closer fuel (free + 1 - used) next
    | none =>
      if closer.canOpen then { state with runs := ⟨closer, free + 1, []⟩ :: state.runs }
      else state.push (literalMarks closer.mark (free + 1))

def step (state : EmphasisState) : Piece → EmphasisState
  | .events events => state.push events
  | .delimiters delimiters => state.closeRun delimiters (delimiters.run + 1) delimiters.run

/-- Runs left open are literal. -/
def finish (state : EmphasisState) : List Event :=
  state.base ++ (state.runs.reverse.map fun run =>
    literalMarks run.delimiters.mark run.free ++ run.inner).flatten

end EmphasisState

def resolveEmphasis (pieces : List Piece) : List Event :=
  (pieces.foldl EmphasisState.step {}).finish

end DocComment.Markup
