import DocComment.Entity.Basic
import DocComment.Json.Read
import DocComment.Text.Percent

namespace DocComment.Carrier

def scheme : String := "commentary-link:"

def refMembers (entry : InventoryRef) : List (String × Json) :=
  [("project", .string entry.project), ("version", .string entry.version),
   ("entry", .string entry.entry), ("location", .string entry.location)]

def toJson : LinkTarget → Json
  | .unresolved raw => .object [("kind", .string "unresolved"), ("value", .string raw)]
  | .moduleRef name => .object [("kind", .string "module"), ("value", .string name)]
  | .declarationRef id => .object [("kind", .string "declaration_ref"), ("value", .integer id)]
  | .inventoryRef entry =>
    .object [("kind", .string "external_inventory_ref"), ("value", .object (refMembers entry))]
  | .uri address => .object [("kind", .string "uri"), ("value", .string address)]

def encode (target : LinkTarget) : String :=
  let json := String.ofList (toJson target).chars
  scheme ++ String.ofList (Text.percentEncode Text.isAlphanumericByte (Text.utf8Bytes json))

/-- The only value of a member; none if it is missing or repeated. -/
def member? (name : String) (members : List (String × Json)) : Option Json :=
  match members.filter (·.1 == name) with
  | [(_, value)] => some value
  | _ => none

def stringMember? (name : String) (members : List (String × Json)) : Option String :=
  match member? name members with
  | some (.string text) => some text
  | _ => none

def inventoryRef? : Json → Option InventoryRef
  | .object members => do
    let project ← stringMember? "project" members
    let version ← stringMember? "version" members
    let entry ← stringMember? "entry" members
    let location ← stringMember? "location" members
    some ⟨project, version, entry, location⟩
  | .array [.string project, .string version, .string entry, .string location] =>
    some ⟨project, version, entry, location⟩
  | _ => none

/-- The largest number of a declaration. -/
def maxDeclaration : Nat := 4294967295

def target? (kind : String) (value : Json) : Option LinkTarget :=
  match kind, value with
  | "unresolved", .string raw => some (.unresolved raw)
  | "module", .string name => some (.moduleRef name)
  | "uri", .string address => some (.uri address)
  | "declaration_ref", .integer (.ofNat id) =>
    if id ≤ maxDeclaration then some (.declarationRef id) else none
  | "external_inventory_ref", value => (inventoryRef? value).map .inventoryRef
  | _, _ => none

/-- A target is an object with a kind and a value, or an array of the two. -/
def ofJson? : Json → Option LinkTarget
  | .object members => do
    let kind ← stringMember? "kind" members
    let value ← member? "value" members
    target? kind value
  | .array [.string kind, value] => target? kind value
  | _ => none

/-- The target that an address carries; none for any other text. -/
def decode? (address : String) : Option LinkTarget := do
  let payload ← Text.stripStart scheme.toList address.toList
  let text ← Text.ofUtf8? (Text.percentDecode (Text.utf8Bytes (String.ofList payload)))
  let json ← Json.read? text.toList
  ofJson? json

end DocComment.Carrier
