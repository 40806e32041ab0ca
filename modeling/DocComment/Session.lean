import DocComment.Collect
import DocComment.Markup.Read
import DocComment.Normalize
import DocComment.Pipeline

namespace DocComment

structure Session where
  source : SourceTree
  compiler : Comment.Compiler
  options : PipelineOptions := {}
  formatter : Formatter := Formatter.template
  pool : Pool := .synchronous
  index : Index := {}
  diagnostics : Diagnostics := {}

namespace Session

def synthesis (session : Session) : Synthesis :=
  ⟨session.source, session.compiler.read, session.formatter⟩

private def withState (session : Session) (state : Index × Diagnostics) : Session :=
  { session with index := state.1, diagnostics := state.2 }

/-- Starts over with the comments of the source tree. -/
def parseSource (session : Session) : Session :=
  session.withState
    (Collect.source session.compiler session.source session.pool session.diagnostics)

def parseDocuments (documents : List DocumentSource) (session : Session) : Session :=
  session.withState
    (Collect.documents session.compiler documents session.pool session.index session.diagnostics)

def normalize (session : Session) : Session :=
  session.withState (Normalize.run session.source session.index session.diagnostics)

/-- Runs one step of the normalization. Its error is the answer and is not recorded. -/
def normalizeStep (step : Index → Index × Except IndexError Nat) (session : Session) :
    Session × Except IndexError Nat :=
  let (index, result) := step session.index
  ({ session with index }, result)

def addMissingSections (session : Session) : Session :=
  { session with index := Normalize.addMissingSections session.source session.index }

/-- Runs one pass; also gives the number of entities that failed. -/
def runPass (pass : Pass) (session : Session) : Session × Nat :=
  let (index, diagnostics, failed) :=
    pass.run session.source session.pool session.index session.diagnostics
  (session.withState (index, diagnostics), failed)

/-- Runs all passes; also gives the number of failures. -/
def transform (session : Session) (order : SetOrder := .arrival) : Session × Nat :=
  let (index, diagnostics, failed) := Pipeline.transform session.synthesis session.options session.pool
    session.index session.diagnostics order
  (session.withState (index, diagnostics), failed)

/-- Adds an entity; gives the new length. -/
def insert (entity : Entity) (session : Session) : Session × Except IndexError Nat :=
  let (index, refusal) := session.index.insert entity
  ({ session with index }, match refusal with
    | none => .ok index.size
    | some problem => .error problem)

/-- Sets the anchor of an entity; tells whether there is one to set. -/
def setAnchor (key : Key) (id : String) (session : Session) : Session × Bool :=
  ({ session with index := session.index.modify key (Entity.setAnchor id) },
    ((session.index.find? key).bind Entity.anchor?).isSome)

/-- Resolves a raw link target against the index as it is now. -/
def resolve (raw scope : String) (session : Session) (order : SetOrder := .arrival) :
    Session × Option LinkTarget :=
  let (target, notices) := (LinkTable.build session.source session.index order).resolve raw scope
  ({ session with diagnostics := session.diagnostics.noticeAll notices }, target)

/-- Every link of the index in preorder: its target, its address and its text. -/
def links (session : Session) : List (LinkTarget × Option String × String) :=
  (Entity.preorderAll session.index.entities).filterMap fun entity => match entity with
    | .node (.link target _) _ => some (target, session.index.href? target, entity.plainText)
    | _ => none

def clearLog (session : Session) : Session :=
  { session with diagnostics := session.diagnostics.clearLog }

end Session

end DocComment
