import DocComment.Entity.Basic
import DocComment.Url.Parse

namespace DocComment

structure Inventory where
  project : String
  version : String
  /-- Locations are relative to it. -/
  baseUrl : String
  /-- Names with their locations. -/
  entries : List (String × String)
  deriving Repr, DecidableEq

namespace Inventory

/-- A location in full. If the base is no address, the two texts are put together. -/
def absolute (inventory : Inventory) (location : String) : String :=
  match (Url.parse? inventory.baseUrl).bind fun base => base.join? location with
  | some url => url.text
  | none => inventory.baseUrl ++ location

def lookup? (inventory : Inventory) (entry : String) : Option InventoryRef :=
  (inventory.entries.lookup entry).map fun location =>
    ⟨inventory.project, inventory.version, entry, inventory.absolute location⟩

end Inventory

/-- Whether a raw link target is an address rather than a name. -/
def isCompleteUri (raw : String) : Bool :=
  "mailto:".toList.isPrefixOf raw.toList ||
    (Text.containsText "://".toList raw.toList && (Url.parse? raw).isSome)

end DocComment
