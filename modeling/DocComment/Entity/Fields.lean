namespace DocComment

/-- How an entity takes part in the output. -/
inductive ExcludeMode where
  | include
  /-- A placeholder for something without a comment. -/
  | uncommented
  | exclude
  /-- Hide the return type in the synopsis. -/
  | excludeReturnType
  /-- Hide the target, such as that of an alias, in the synopsis. -/
  | excludeTarget
  deriving Repr, DecidableEq, Inhabited

namespace ExcludeMode

def all : List ExcludeMode :=
  [.include, .uncommented, .exclude, .excludeReturnType, .excludeTarget]

def name : ExcludeMode → String
  | .include => "include"
  | .uncommented => "uncommented"
  | .exclude => "exclude"
  | .excludeReturnType => "exclude_return_type"
  | .excludeTarget => "exclude_target"

/-- The name in running text, as diagnostics write it. -/
def title : ExcludeMode → String
  | .include => "Include"
  | .uncommented => "Uncommented"
  | .exclude => "Exclude"
  | .excludeReturnType => "ExcludeReturnType"
  | .excludeTarget => "ExcludeTarget"

def ofName? (name : String) : Option ExcludeMode :=
  all.find? (·.name == name)

end ExcludeMode

/-- Metadata shared by declarations, modules and groups. -/
structure Fields where
  synopsis : Option String := none
  uniqueName : Option String := none
  outputName : Option String := none
  excludeMode : ExcludeMode := .include
  group : Option String := none
  outputSection : Option String := none
  moduleName : Option String := none
  deriving Repr, DecidableEq, Inhabited

inductive SectionKind where
  | brief
  | details
  | requires
  | effects
  | synchronization
  | postconditions
  | returns
  | throws
  | complexity
  | remarks
  | errorConditions
  | notes
  | preconditions
  | constraints
  | diagnostics
  | see
  | parameters
  | bases
  deriving Repr, DecidableEq, Inhabited

namespace SectionKind

def all : List SectionKind :=
  [.brief, .details, .requires, .effects, .synchronization, .postconditions, .returns, .throws,
   .complexity, .remarks, .errorConditions, .notes, .preconditions, .constraints, .diagnostics,
   .see, .parameters, .bases]

/-- The command that opens the section. -/
def name : SectionKind → String
  | .brief => "brief"
  | .details => "details"
  | .requires => "requires"
  | .effects => "effects"
  | .synchronization => "synchronization"
  | .postconditions => "postconditions"
  | .returns => "returns"
  | .throws => "throws"
  | .complexity => "complexity"
  | .remarks => "remarks"
  | .errorConditions => "error_conditions"
  | .notes => "notes"
  | .preconditions => "preconditions"
  | .constraints => "constraints"
  | .diagnostics => "diagnostics"
  | .see => "see"
  | .parameters => "parameters"
  | .bases => "bases"

def ofName? (name : String) : Option SectionKind :=
  all.find? (·.name == name)

end SectionKind

end DocComment
