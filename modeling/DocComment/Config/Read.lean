import DocComment.Config.Basic
import DocComment.Toml.Read

/-! Reading a configuration. Names that it does not know are passed over, and what is left out takes its
default; a value of the wrong kind is refused. -/
namespace DocComment

namespace Toml.Value

def string? : Value → Option String
  | .string text => some text
  | _ => none

def boolean? : Value → Option Bool
  | .boolean flag => some flag
  | _ => none

/-- A count fits in 64 bits. -/
def count? : Value → Option Nat
  | .integer number => if 0 ≤ number && number < Int.pow 2 64 then some number.toNat else none
  | _ => none

/-- An array with items of one kind. -/
def list? {α : Type} (item? : Value → Option α) : Value → Option (List α)
  | .array items => items.mapM item?
  | _ => none

/-- A member whose value is a text. -/
def textEntry? (member : String × Value) : Option (String × String) :=
  (string? member.2).map fun text => (member.1, text)

/-- A table with texts as its values. -/
def textMap? (value : Value) : Option TextMap :=
  value.members?.bind fun members => (members.mapM textEntry?).map TextMap.ofList

/-- The members of a section. An array gives them by position, in the order of `names`. -/
def sectionMembers? (names : List String) : Value → Option Table
  | .array items => some (names.zip items)
  | value => value.members?

end Toml.Value

/-- The member of a section with a given name, read by `read?`, or else its default. -/
def Toml.Table.setting? {α : Type} (members : Toml.Table) (name : String) (read? : Toml.Value → Option α)
    (default : α) : Option α :=
  match members.lookup name with
  | none => some default
  | some value => read? value

open Toml.Value

def CommentSettings.read? (value : Toml.Value) : Option CommentSettings := do
  let members ← value.sectionMembers? ["free_file_binding"]
  let freeFileBinding ← Toml.Table.setting? members "free_file_binding" boolean? false
  return { freeFileBinding }

/-- A template that is set. -/
def template? (members : Toml.Table) (name : String) : Option (Option String) :=
  Toml.Table.setting? members name (fun value => value.string?.map some) none

def HeadingSettings.read? (value : Toml.Value) : Option HeadingSettings := do
  let members ← value.sectionMembers? ["declaration", "module", "group", "document"]
  let declaration ← template? members "declaration"
  let moduleDoc ← template? members "module"
  let group ← template? members "group"
  let document ← template? members "document"
  return { declaration, moduleDoc, group, document }

def LinkSettings.read? (value : Toml.Value) : Option LinkSettings := do
  let members ← value.sectionMembers? ["declaration", "module", "inventory", "uri", "unresolved"]
  let declaration ← template? members "declaration"
  let moduleDoc ← template? members "module"
  let inventory ← template? members "inventory"
  let uri ← template? members "uri"
  let unresolved ← template? members "unresolved"
  return { declaration, moduleDoc, inventory, uri, unresolved }

def TemplateSettings.read? (value : Toml.Value) : Option TemplateSettings := do
  let members ← value.sectionMembers? ["heading", "link"]
  let heading ← Toml.Table.setting? members "heading" HeadingSettings.read? {}
  let link ← Toml.Table.setting? members "link" LinkSettings.read? {}
  return { heading, link }

def FilterSettings.read? (value : Toml.Value) : Option FilterSettings := do
  let members ← value.sectionMembers? ["exclude", "exclude_private", "exclude_uncommented"]
  let exclude ← Toml.Table.setting? members "exclude" (list? string?) []
  let excludePrivate ← Toml.Table.setting? members "exclude_private" boolean? true
  let excludeUncommented ← Toml.Table.setting? members "exclude_uncommented" boolean? false
  return { exclude, excludePrivate, excludeUncommented }

def InventorySettings.read? (value : Toml.Value) : Option InventorySettings := do
  let members ← value.sectionMembers? ["project", "version", "base_url", "entries"]
  let project ← Toml.Table.setting? members "project" string? ""
  let version ← Toml.Table.setting? members "version" string? ""
  let baseUrl ← Toml.Table.setting? members "base_url" string? ""
  let entries ← Toml.Table.setting? members "entries" textMap? .empty
  return { project, version, baseUrl, entries }

def DiagnosticsSettings.read? (value : Toml.Value) : Option DiagnosticsSettings := do
  let members ← value.sectionMembers? ["warnings_as_errors"]
  let warningsAsErrors ← Toml.Table.setting? members "warnings_as_errors" boolean? false
  return { warningsAsErrors }

def PoolSettings.read? (value : Toml.Value) : Option PoolSettings := do
  let members ← value.sectionMembers? ["threads", "synchronous"]
  let threads ← Toml.Table.setting? members "threads" count? 0
  let synchronous ← Toml.Table.setting? members "synchronous" boolean? false
  return { threads, synchronous }

namespace Config

def ofTable? (members : Toml.Table) : Option Config := do
  let documents ← Toml.Table.setting? members "documents" (list? string?) []
  let comment ← Toml.Table.setting? members "comment" CommentSettings.read? {}
  let commands ← Toml.Table.setting? members "commands" textMap? .empty
  let templates ← Toml.Table.setting? members "templates" TemplateSettings.read? {}
  let filter ← Toml.Table.setting? members "filter" FilterSettings.read? {}
  let inventories ← Toml.Table.setting? members "inventory" (list? InventorySettings.read?) []
  let diagnostics ← Toml.Table.setting? members "diagnostics" DiagnosticsSettings.read? {}
  let pool ← Toml.Table.setting? members "pool" PoolSettings.read? {}
  return { documents, comment, commands, templates, filter, inventories, diagnostics, pool }

/-- The configuration that a text writes. -/
def read? (text : String) : Option Config :=
  (Toml.read? text).bind ofTable?

end Config

end DocComment
