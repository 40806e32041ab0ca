import DocComment.Comment.Assembly
import DocComment.Diagnostics
import DocComment.Entity.Index

/-! Normalizing the index once all comments are compiled: placeholders for what has no comment,
required sections, and groups. A step that fails leaves what it did before. -/
namespace DocComment

namespace Entity

/-- The documentation of a declaration without a comment. -/
def uncommented (id : DeclId) : Entity :=
  .node (.declaration id "" { excludeMode := .uncommented }) []

/-- The documentation of a module that is only referred to. -/
def uncommentedModule (name : String) : Entity :=
  .node (.moduleDoc name "" { excludeMode := .uncommented }) []

/-- The declaration that an entity documents. -/
def declaration? : Entity → Option DeclId
  | .node (.declaration id ..) _ => some id
  | _ => none

mutual

/-- The modules that documentation anywhere in the tree belongs to, in preorder. -/
def moduleNames : Entity → List String
  | .leaf _ => []
  | .node tag children =>
    ((Entity.node tag children).fields?.bind Fields.moduleName).toList ++ moduleNamesAll children

def moduleNamesAll : List Entity → List String
  | [] => []
  | entity :: rest => moduleNames entity ++ moduleNamesAll rest

end

end Entity

namespace Normalize

/-- The parts of a declaration that a section lacks. -/
def missingParts (entity : Entity) (kind : SectionKind) (parts : List DeclId) : List DeclId :=
  let documented := ((entity.section? kind).getD []).filterMap Entity.declaration?
  parts.filter fun part => !documented.contains part

/-- Adds placeholders for the parts that a section lacks. -/
def addParts (kind : SectionKind) (missing : List DeclId) (entity : Entity) : Entity :=
  if missing.isEmpty then entity
  else (entity.ensureSection kind).modifySection kind (· ++ missing.map Entity.uncommented)

/-- Adds placeholders for parameters and template parameters without documentation; also gives their
number. -/
def addSubParts (source : SourceTree) (id : DeclId) (entity : Entity) : Entity × Nat :=
  let parameters := missingParts entity .parameters (source.parameters id)
  let withParameters := addParts .parameters parameters entity
  let templates := missingParts withParameters .requires (source.templateParameters id)
  (addParts .requires templates withParameters, parameters.length + templates.length)

/-- Adds placeholders for one declaration and its parts. -/
def addUncommentedDeclaration (source : SourceTree) (index : Index) (id : DeclId) :
    Index × Except IndexError Nat :=
  let key := Key.declaration id
  let (index, added) : Index × Except IndexError Nat :=
    if index.contains key then (index, .ok 0)
    else match index.insert (.uncommented id) with
      | (grown, none) => (grown, .ok 1)
      | (index, some problem) => (index, .error problem)
  match added with
  | .error problem => (index, .error problem)
  | .ok count =>
    match index.find? key with
    | none => (index, .ok count)
    | some entity =>
      (index.modify key fun present => (addSubParts source id present).1,
        .ok (count + (addSubParts source id entity).2))

/-- Runs a step for each item until one fails, and adds up what the steps count. -/
def countEach (step : Index → α → Index × Except IndexError Nat) (count : Nat) :
    Index → List α → Index × Except IndexError Nat
  | index, [] => (index, .ok count)
  | index, item :: rest =>
    match step index item with
    | (after, .ok more) => countEach step (count + more) after rest
    | (after, .error problem) => (after, .error problem)

/-- Adds a placeholder for every declaration without an entry and for every part without
documentation; gives their number. -/
def addUncommentedEntities (source : SourceTree) (index : Index) : Index × Except IndexError Nat :=
  countEach (addUncommentedDeclaration source) 0 index
    (source.ids.filter fun id => !(source.kind id).isSubPart)

def addUncommentedModule (index : Index) (name : String) : Index × Except IndexError Nat :=
  if (index.find? (.moduleName name)).isSome then (index, .ok 0)
  else match index.insert (.uncommentedModule name) with
    | (grown, none) => (grown, .ok 1)
    | (index, some problem) => (index, .error problem)

/-- Adds a placeholder for every module that documentation belongs to and that has none itself. -/
def addUncommentedModules (index : Index) : Index × Except IndexError Nat :=
  countEach addUncommentedModule 0 index (Entity.moduleNamesAll index.entities).eraseDups

/-- Adds the required sections everywhere. -/
def addMissingSections (source : SourceTree) (index : Index) : Index :=
  { index with entities := Comment.ensureRequiredAll source index.entities }

/-- Declarations with one group name in one scope belong together. -/
abbrev GroupKey := String × Option DeclId

/-- The group that a top-level declaration asks for. -/
def groupKey? (source : SourceTree) : Entity → Option GroupKey
  | .node (.declaration id _ fields) _ => fields.group.map fun group => (group, source.parent id)
  | _ => none

def newGroup (name : String) (member : Entity) : Entity :=
  .node (.group name "" {
    group := some name
    outputSection := member.fields?.bind Fields.outputSection }) [member]

/-- Adds a member. The first heading that a member gives is that of the group. -/
def addMember (member : Entity) : Entity → Entity
  | .node (.group name id fields) children =>
    .node (.group name id { fields with
      outputSection := fields.outputSection.or (member.fields?.bind Fields.outputSection) })
      (children ++ [member])
  | other => other

structure Grouping where
  entities : List Entity := []
  /-- Where the group of a key is. -/
  slots : List (GroupKey × Nat) := []
  /-- Number of members of all groups. -/
  members : Nat := 0

/-- A group stands at the place of its first member. -/
def Grouping.add (source : SourceTree) (grouping : Grouping) (entity : Entity) : Grouping :=
  match groupKey? source entity with
  | none => { grouping with entities := grouping.entities ++ [entity] }
  | some key =>
    let counted := { grouping with members := grouping.members + 1 }
    match grouping.slots.lookup key with
    | some position =>
      { counted with entities := grouping.entities.modify position (addMember entity) }
    | none =>
      { counted with
        entities := grouping.entities ++ [newGroup key.1 entity]
        slots := grouping.slots ++ [(key, grouping.entities.length)] }

/-- Gathers the top-level declarations of each group into one entity; gives the number of members.
The index is built anew, up to the first entity that is refused. -/
def groupEntities (source : SourceTree) (index : Index) : Index × Except IndexError Nat :=
  let grouping := index.entities.foldl (Grouping.add source) {}
  match Index.rebuild grouping.entities with
  | (rebuilt, none) => (rebuilt, .ok grouping.members)
  | (rebuilt, some problem) => (rebuilt, .error problem)

/-- Records the error of a step that failed. -/
def recorded (diagnostics : Diagnostics) (result : Except IndexError Nat) : Diagnostics :=
  match result with
  | .ok _ => diagnostics
  | .error problem => diagnostics.error problem.message

/-- All steps in order. A step that fails is recorded, and the others run. -/
def run (source : SourceTree) (index : Index) (diagnostics : Diagnostics) : Index × Diagnostics :=
  let (index, entities) := addUncommentedEntities source index
  let (index, modules) := addUncommentedModules index
  let (index, groups) := groupEntities source (addMissingSections source index)
  (index, recorded (recorded (recorded diagnostics entities) modules) groups)

end Normalize

end DocComment
