import DocComment.Entity.Basic
import DocComment.Markup.Event

namespace DocComment.Markup

/-- Adds a child at the end, joining it to a text just before it. Children are kept last first. -/
def pushChild (children : List Entity) (entity : Entity) : List Entity :=
  match entity, children with
  | .text added, .text last :: rest => .text (last ++ added) :: rest
  | _, _ => entity :: children

/-- Drops one fuzzy mark from the front of a link name. -/
def dropFuzzyMark (name : String) : String :=
  match name.toList with
  | '*' :: rest | '?' :: rest => String.ofList rest
  | _ => name

/-- The link for a destination. A destination is an address; without one the title names the
target, and without a title the text does. Then a text that is the only child loses its mark. -/
def linkEntity (destination title : String) (children : List Entity) : Entity :=
  if destination ≠ "" then .node (.link (.uri destination) title) children
  else if title ≠ "" then .node (.link (.unresolved title) "") children
  else match children with
    | [.text name] => .node (.link (.unresolved name) title) [.text (dropFuzzyMark name)]
    | _ => .node (.link (.unresolved (Entity.plainTextAll children)) title) children

/-- What a closed opening becomes. -/
def closeOpening (opening : Opening) (children : List Entity) : List Entity :=
  match opening with
  | .transparent => children
  | .paragraph | .htmlBlock => [.node .paragraph children]
  | .heading level => [.node (.heading level) children]
  | .blockQuote => [.node .blockQuote children]
  | .codeBlock info => [.leaf (.codeBlock info (Entity.plainTextAll children))]
  | .list ordered => [.node (.list ordered) children]
  | .item => [.node .listItem children]
  | .emphasis => [.node .emphasis children]
  | .strong => [.node .strong children]
  | .link destination title => [linkEntity destination title children]
  | .image source title => [.node (.image source title) children]

/-- An opening still to be closed, with its children last first. -/
structure Frame where
  opening : Opening
  children : List Entity := []
  deriving Repr, DecidableEq

/-- The tree under construction: top-level entities last first, and open frames innermost first. -/
structure TreeState where
  roots : List Entity := []
  frames : List Frame := []
  deriving Repr, DecidableEq

namespace TreeState

def push (state : TreeState) (entity : Entity) : TreeState :=
  match state.frames with
  | [] => { state with roots := pushChild state.roots entity }
  | frame :: outer =>
    { state with frames := { frame with children := pushChild frame.children entity } :: outer }

/-- Closes the innermost frame into its surroundings; without one nothing happens. -/
def close (state : TreeState) : TreeState :=
  match state.frames with
  | [] => state
  | frame :: outer =>
    (closeOpening frame.opening frame.children.reverse).foldl push { state with frames := outer }

def step (state : TreeState) : Event → TreeState
  | .enter opening => { state with frames := ⟨opening, []⟩ :: state.frames }
  | .leave => state.close
  | .text written => state.push (.leaf (.text written))
  | .code written => state.push (.leaf (.code written))
  | .softBreak => state.push (.leaf .softBreak)
  | .hardBreak => state.push (.leaf .hardBreak)
  | .rule => state.push (.leaf .thematicBreak)

/-- Closes `count` frames. -/
def closeAll : Nat → TreeState → TreeState
  | 0, state => state
  | count + 1, state => closeAll count state.close

end TreeState

/-- The blocks of a sequence of events. Frames left open at the end are closed there. -/
def treeOf (events : List Event) : List Entity :=
  let state := events.foldl TreeState.step {}
  (state.closeAll state.frames.length).roots.reverse

/-- An open frame with its children, last first. The root has no opening. -/
structure Level where
  opening : Option Opening
  children : List Entity := []
  deriving Repr, DecidableEq

def Level.finish (level : Level) : List Entity :=
  level.opening.elim level.children.reverse fun opening => closeOpening opening level.children.reverse

/-- The stack of frames as one list, innermost first: its last level is the root. -/
abbrev LevelStack := List Level

namespace LevelStack

def push : LevelStack → Entity → LevelStack
  | [], _ => []
  | level :: outer, entity => { level with children := pushChild level.children entity } :: outer

/-- Pops the innermost level into the one around it, if there are two. -/
def close : LevelStack → LevelStack
  | level :: around :: outer => level.finish.foldl push (around :: outer)
  | stack => stack

def step (stack : LevelStack) : Event → LevelStack
  | .enter opening => ⟨some opening, []⟩ :: stack
  | .leave => stack.close
  | .text written => stack.push (.leaf (.text written))
  | .code written => stack.push (.leaf (.code written))
  | .softBreak => stack.push (.leaf .softBreak)
  | .hardBreak => stack.push (.leaf .hardBreak)
  | .rule => stack.push (.leaf .thematicBreak)

def closeAll : Nat → LevelStack → LevelStack
  | 0, stack => stack
  | count + 1, stack => closeAll count stack.close

def after (events : List Event) : LevelStack :=
  events.foldl step [⟨none, []⟩]

/-- What the last level holds when the others are closed. -/
def finish (stack : LevelStack) : List Entity :=
  ((stack.closeAll stack.length).head?.map Level.finish).getD []

end LevelStack

/-- The blocks of any reports. -/
def blocksOfReports (reports : List Report) : List Entity :=
  treeOf (reports.map Report.event)

end DocComment.Markup
