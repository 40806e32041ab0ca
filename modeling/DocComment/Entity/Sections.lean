import DocComment.Entity.Basic

namespace DocComment.Entity

/-- The kind of a section. -/
def partKind? : Entity → Option SectionKind
  | .node (.part kind) _ => some kind
  | _ => none

/-- The content of the first section of a kind. -/
def findPart? (kind : SectionKind) : List Entity → Option (List Entity)
  | [] => none
  | entity :: rest =>
    if entity.partKind? == some kind then some entity.children else findPart? kind rest

/-- Changes the content of the first section of a kind. -/
def modifyPart (kind : SectionKind) (change : List Entity → List Entity) : List Entity → List Entity
  | [] => []
  | entity :: rest =>
    if entity.partKind? == some kind then entity.withChildren (change entity.children) :: rest
    else entity :: modifyPart kind change rest

/-- Appends an empty section unless there is one of the kind. -/
def ensurePart (kind : SectionKind) (children : List Entity) : List Entity :=
  if (findPart? kind children).isSome then children else children ++ [.part kind []]

/-- Drops the first section of a kind. -/
def removePart (kind : SectionKind) : List Entity → List Entity
  | [] => []
  | entity :: rest => if entity.partKind? == some kind then rest else entity :: removePart kind rest

/-- Drops one section for each occurrence of a kind in the list, the first ones of the kind. -/
def dropParts : List SectionKind → List Entity → List Entity
  | _, [] => []
  | kinds, entity :: rest =>
    match entity.partKind? with
    | none => entity :: dropParts kinds rest
    | some kind =>
      if kinds.contains kind then dropParts (kinds.erase kind) rest else entity :: dropParts kinds rest

/-- The content of the first section of a kind among the children. -/
def section? (kind : SectionKind) (entity : Entity) : Option (List Entity) :=
  findPart? kind entity.children

/-- Adds an empty section of the kind to an entity that has children and lacks it. -/
def ensureSection (kind : SectionKind) (entity : Entity) : Entity :=
  entity.withChildren (ensurePart kind entity.children)

def modifySection (kind : SectionKind) (change : List Entity → List Entity) (entity : Entity) : Entity :=
  entity.withChildren (modifyPart kind change entity.children)

def removeSection (kind : SectionKind) (entity : Entity) : Entity :=
  entity.withChildren (removePart kind entity.children)

def dropSections (kinds : List SectionKind) (entity : Entity) : Entity :=
  entity.withChildren (dropParts kinds entity.children)

end DocComment.Entity
