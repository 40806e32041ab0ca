import DocComment.LinkTable
import DocComment.Pass.Basic

/-! Resolving the targets of links: first against the documented declarations, then as addresses and
against inventories. Only unresolved targets change. -/
namespace DocComment.Targets

mutual

/-- Gives every unresolved link the target that its raw target resolves to. -/
def mapUnresolved (resolve : String → Option LinkTarget) : Entity → Entity
  | .leaf content => .leaf content
  | .node tag children =>
    let children := mapUnresolvedAll resolve children
    match tag with
    | .link (.unresolved raw) title => .node (.link ((resolve raw).getD (.unresolved raw)) title) children
    | _ => .node tag children

def mapUnresolvedAll (resolve : String → Option LinkTarget) : List Entity → List Entity
  | [] => []
  | entity :: rest => mapUnresolved resolve entity :: mapUnresolvedAll resolve rest

end

/-- The raw targets of the unresolved links of an entity, in preorder. -/
def unresolved (entity : Entity) : List String :=
  entity.preorder.filterMap fun entity => match entity with
    | .node (.link (.unresolved raw) _) _ => some raw
    | _ => none

def applyInternal (source : SourceTree) (table : LinkTable) (entity : Entity) : PassRun :=
  let scope := entityScope source entity
  { entity := mapUnresolved (fun raw => (table.resolve raw scope).1) entity
    notices := (unresolved entity).flatMap fun raw => (table.resolve raw scope).2 }

def internalPass (source : SourceTree) (order : SetOrder := .arrival) : Pass :=
  ⟨"internal links", fun index => applyInternal source (LinkTable.build source index order)⟩

/-- A complete address, or an entry of the first inventory that has the name. A mark for a fuzzy
lookup is no part of the name. -/
def resolveExternal (inventories : List Inventory) (raw : String) : Option LinkTarget :=
  if isCompleteUri raw then some (.uri raw)
  else
    let name := match raw.toList with
      | '*' :: name | '?' :: name => String.ofList name
      | _ => raw
    (inventories.findSome? fun inventory => inventory.lookup? name).map .inventoryRef

/-- Each link that stays unresolved gives a warning. -/
def applyExternal (source : SourceTree) (inventories : List Inventory) (entity : Entity) : PassRun :=
  let resolved := mapUnresolved (resolveExternal inventories) entity
  { entity := resolved
    notices := (unresolved resolved).map fun raw =>
      .warning (entityLabel source resolved ++ ": unresolved link target '" ++ raw ++ "'") }

def externalPass (source : SourceTree) (inventories : List Inventory) : Pass :=
  ⟨"external links", fun _ => applyExternal source inventories⟩

end DocComment.Targets
