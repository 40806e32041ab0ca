import DocComment.Config.Basic
import DocComment.Toml.Write

namespace DocComment.Config

open Toml (Statement Value)

def set (name : String) (value : Value) : Statement :=
  .assign [name] value

def texts (items : List String) : Value :=
  .array (items.map .string)

def template (name : String) (text : Option String) : List Statement :=
  text.toList.map fun text => set name (.string text)

def textMap (map : TextMap) : List Statement :=
  map.entries.map fun (name, text) => set name (.string text)

def headingStatements (heading : HeadingSettings) : List Statement :=
  .header ["templates", "heading"] :: template "declaration" heading.declaration ++
    template "module" heading.moduleDoc ++ template "group" heading.group ++
    template "document" heading.document

def linkStatements (link : LinkSettings) : List Statement :=
  .header ["templates", "link"] :: template "declaration" link.declaration ++
    template "module" link.moduleDoc ++ template "inventory" link.inventory ++
    template "uri" link.uri ++ template "unresolved" link.unresolved

def filterStatements (filter : FilterSettings) : List Statement :=
  [.header ["filter"], set "exclude" (texts filter.exclude),
   set "exclude_private" (.boolean filter.excludePrivate),
   set "exclude_uncommented" (.boolean filter.excludeUncommented)]

def inventoryStatements (inventory : InventorySettings) : List Statement :=
  [.elementHeader ["inventory"], set "project" (.string inventory.project),
   set "version" (.string inventory.version), set "base_url" (.string inventory.baseUrl),
   .header ["inventory", "entries"]] ++ textMap inventory.entries

/-- The statements of a configuration: what stands in no section first, then section after section. -/
def statements (config : Config) : List Statement :=
  set "documents" (texts config.documents) ::
    (if config.inventories.isEmpty then [set "inventory" (.array [])] else []) ++
    [.header ["comment"], set "free_file_binding" (.boolean config.comment.freeFileBinding)] ++
    .header ["commands"] :: textMap config.commands ++
    headingStatements config.templates.heading ++ linkStatements config.templates.link ++
    filterStatements config.filter ++ config.inventories.flatMap inventoryStatements ++
    [.header ["diagnostics"], set "warnings_as_errors" (.boolean config.diagnostics.warningsAsErrors),
     .header ["pool"], set "threads" (.integer config.pool.threads),
     set "synchronous" (.boolean config.pool.synchronous)]

/-- Whether every number of the configuration has a written form: none exceeds 63 bits. -/
def isWritable (config : Config) : Bool :=
  config.pool.threads < Nat.pow 2 63

/-- The text of a configuration, if it is writable. -/
def write? (config : Config) : Option String :=
  if config.isWritable then some (String.ofList (Toml.write config.statements)) else none

end DocComment.Config
