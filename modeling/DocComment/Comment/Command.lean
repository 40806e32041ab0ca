import DocComment.Source.Basic

namespace DocComment.Comment

/-- Commands that bind the comment or set metadata. -/
inductive SpecialCommand where
  | endBlock
  | exclude
  | uniqueName
  | outputName
  | synopsis
  | group
  | moduleName
  | outputSection
  | entity
  | file
  deriving Repr, DecidableEq

namespace SpecialCommand

def all : List SpecialCommand :=
  [.endBlock, .exclude, .uniqueName, .outputName, .synopsis, .group, .moduleName, .outputSection,
   .entity, .file]

def name : SpecialCommand → String
  | .endBlock => "end"
  | .exclude => "exclude"
  | .uniqueName => "unique_name"
  | .outputName => "output_name"
  | .synopsis => "synopsis"
  | .group => "group"
  | .moduleName => "module"
  | .outputSection => "output_section"
  | .entity => "entity"
  | .file => "file"

/-- The arguments in the rest of a command line; none if it does not fit the command. -/
def arguments? (command : SpecialCommand) (rest : List Char) : Option (List String) :=
  let rest := Text.trim rest
  match command with
  | .endBlock | .file => if rest.isEmpty then some [] else none
  | .exclude =>
    if rest.isEmpty then some []
    else if rest == "return".toList || rest == "target".toList then some [String.ofList rest]
    else none
  | .group =>
    let (name, heading) := match Text.splitOnce Unicode.isWhite rest with
      | some (name, heading) => (name, Text.trim heading)
      | none => (rest, [])
    if name.isEmpty || name == ['-'] then none
    else if heading.isEmpty then some [String.ofList name]
    else some [String.ofList name, String.ofList heading]
  | .uniqueName | .outputName | .synopsis | .moduleName | .outputSection | .entity =>
    if rest.isEmpty then none else some [String.ofList rest]

/-- The mode that the argument of an exclusion asks for. -/
def excludeMode : Option String → ExcludeMode
  | some "return" => .excludeReturnType
  | some "target" => .excludeTarget
  | _ => .exclude

end SpecialCommand

/-- Commands that document a named part of the bound declaration. -/
inductive InlineCommand where
  | param
  | tparam
  | base
  deriving Repr, DecidableEq

namespace InlineCommand

def all : List InlineCommand :=
  [.param, .tparam, .base]

def name : InlineCommand → String
  | .param => "param"
  | .tparam => "tparam"
  | .base => "base"

/-- The kind of declaration that the command documents. -/
def partKind : InlineCommand → DeclKind
  | .param => .functionParameter
  | .tparam => .templateParameter
  | .base => .base

/-- The section of the owner that holds the documentation. -/
def sectionKind : InlineCommand → SectionKind
  | .param => .parameters
  | .tparam => .requires
  | .base => .bases

end InlineCommand

inductive Command where
  | special (command : SpecialCommand)
  | part (kind : SectionKind)
  | inline (command : InlineCommand)
  deriving Repr, DecidableEq

namespace Command

def name : Command → String
  | .special command => command.name
  | .part kind => kind.name
  | .inline command => command.name

/-- Every command: special ones, sections, then inline ones. -/
def all : List Command :=
  SpecialCommand.all.map .special ++ SectionKind.all.map .part ++ InlineCommand.all.map .inline

def ofName? (name : String) : Option Command :=
  all.find? (·.name == name)

end Command

end DocComment.Comment
