import DocComment.Config.Files
import DocComment.Proofs.Config.Sections
import DocComment.Proofs.FileTree
import DocComment.Proofs.Text.Percent
import DocComment.Proofs.Toml.Tables

namespace DocComment.Config

open Toml (Table Value)
open Toml.Value
open Toml.Node (settings given finishMembers Members filed Leads)

def topTable (config : Config) : Table :=
  ("documents", texts config.documents) ::
    if config.inventories.isEmpty then [("inventory", .array [])] else []

def inventoryMembers (inventory : InventorySettings) : Members :=
  given (inventoryHead inventory) ++ [("entries", .table .header (given (textSettings inventory.entries)))]

def templateMembers (templates : TemplateSettings) : Members :=
  [("heading", .table .header (given (present (headingTexts templates.heading)))),
   ("link", .table .header (given (present (linkTexts templates.link))))]

/-- What the sections before the inventories put into the table of the whole text. -/
def membersBefore (config : Config) : Members :=
  given (topTable config) ++
    [("comment", .table .header (given [("free_file_binding", .boolean config.comment.freeFileBinding)]))] ++
    [("commands", .table .header (given (textSettings config.commands)))] ++
    [("templates", .table .implied (templateMembers config.templates))] ++
    [("filter", .table .header (given (filterTable config.filter)))]

/-- What all sections put into that table. -/
def members (config : Config) : Members :=
  membersBefore config ++ filed "inventory" (config.inventories.map inventoryMembers) ++
    [("diagnostics", .table .header
      (given [("warnings_as_errors", .boolean config.diagnostics.warningsAsErrors)]))] ++
    [("pool", .table .header (given (poolTable config.pool)))]

theorem distinct_textSettings (map : TextMap) : ((textSettings map).map Prod.fst).Nodup := by
  have rising : (map.entries.map Prod.fst).Pairwise (· < ·) := List.pairwise_map.mpr map.sorted
  have names : (textSettings map).map Prod.fst = map.entries.map Prod.fst := by
    simp [textSettings, Function.comp_def]
  rw [names]
  exact rising.imp String.ne_of_lt

theorem distinct_present {entries : List (String × Option String)}
    (distinct : (entries.map Prod.fst).Nodup) : ((present entries).map Prod.fst).Nodup :=
  distinct.sublist (names_present entries)

open Toml.Node (follow? follow_append follow_section follow_settings follow?_elementHeader follow?_implied leads_nil)

theorem inventoryStatements_eq (inventory : InventorySettings) : inventoryStatements inventory =
    .elementHeader ["inventory"] :: settings (inventoryHead inventory) ++
      .header ["inventory", "entries"] :: settings (textSettings inventory.entries) := by
  rw [inventoryStatements, textMap_eq]
  rfl

theorem follow_inventory {before : Members} (unused : before.lookup "inventory" = none)
    (elements : List Members) (inventory : InventorySettings) (last : List String) :
    (inventoryStatements inventory).foldlM follow? (last, before ++ filed "inventory" elements) =
      some (["inventory", "entries"], before ++ filed "inventory" (elements ++ [inventoryMembers inventory])) := by
  have place := leads_nil.element unused elements
  have filled := follow_settings place [] (inventoryHead inventory)
    (by decide : ["project", "version", "base_url"].Nodup) (by simp)
  have listed := follow_section place
    (rfl : (given (inventoryHead inventory)).lookup "entries" = none)
    (textSettings inventory.entries) (distinct_textSettings inventory.entries) ["inventory"]
  have begun := follow?_elementHeader leads_nil unused elements last
  simp only [id, List.nil_append, Toml.Node.filed_append] at begun filled listed ⊢
  rw [inventoryStatements_eq, List.cons_append, List.foldlM_cons, begun, Option.bind_eq_bind, Option.bind_some,
    List.foldlM_append, filled, Option.bind_eq_bind, Option.bind_some]
  exact listed

theorem follow_inventories (before : Members) (inventories : List InventorySettings)
    (unused : inventories ≠ [] → before.lookup "inventory" = none) (elements : List Members)
    (last : List String) :
    ∃ path, (inventories.flatMap inventoryStatements).foldlM follow?
        (last, before ++ filed "inventory" elements) =
      some (path, before ++ filed "inventory" (elements ++ inventories.map inventoryMembers)) := by
  induction inventories generalizing elements last with
  | nil => exact ⟨last, by simp⟩
  | cons inventory inventories ih =>
    have free := unused (List.cons_ne_nil _ _)
    obtain ⟨path, rest⟩ := ih (fun _ => free) (elements ++ [inventoryMembers inventory])
      ["inventory", "entries"]
    refine ⟨path, ?_⟩
    rw [List.flatMap_cons, List.foldlM_append, follow_inventory free, Option.bind_eq_bind,
      Option.bind_some, rest]
    simp

/-- The statements up to the section of the filter. -/
def statementsBefore (config : Config) : List Toml.Statement :=
  settings (topTable config) ++
    (.header ["comment"] :: settings [("free_file_binding", .boolean config.comment.freeFileBinding)]) ++
    (.header ["commands"] :: settings (textSettings config.commands)) ++
    (.header ["templates", "heading"] :: settings (present (headingTexts config.templates.heading)) ++
      .header ["templates", "link"] :: settings (present (linkTexts config.templates.link))) ++
    (.header ["filter"] :: settings (filterTable config.filter))

theorem statements_eq (config : Config) : config.statements =
    statementsBefore config ++ config.inventories.flatMap inventoryStatements ++
      (.header ["diagnostics"] ::
        settings [("warnings_as_errors", .boolean config.diagnostics.warningsAsErrors)]) ++
      (.header ["pool"] :: settings (poolTable config.pool)) := by
  have top : settings (topTable config) = set "documents" (texts config.documents) ::
      if config.inventories.isEmpty then [set "inventory" (.array [])] else [] := by
    rw [topTable]
    split <;> rfl
  rw [statements, statementsBefore, top, textMap_eq, headingStatements, linkStatements, headingTexts,
    linkTexts]
  simp only [settings_present]
  simp [settings, filterStatements, filterTable, poolTable, set, present]

theorem lookup_topTable (config : Config) (name : String) (noDocuments : name ≠ "documents")
    (noInventory : name ≠ "inventory") : (given (topTable config)).lookup name = none := by
  refine lookup_eq_none fun member => ?_
  rw [given, topTable] at member
  split at member <;> simp [noDocuments, noInventory] at member

theorem distinct_topTable (config : Config) : ((topTable config).map Prod.fst).Nodup := by
  rw [topTable]
  split <;> simp

theorem lookup_filed {name other : String} (apart : other ≠ name) (elements : List Members) :
    (filed name elements).lookup other = none := by
  cases elements <;> simp [filed, List.lookup_cons, beq_false_of_ne apart]

theorem follow_top (before : Members) (name : String) (unused : before.lookup name = none)
    (entries : Table) (distinct : (entries.map Prod.fst).Nodup) (last : List String) :
    (.header [name] :: settings entries).foldlM follow? (last, before) =
      some ([name], before ++ [(name, .table .header (given entries))]) :=
  follow_section leads_nil unused entries distinct last

theorem distinct_headingTexts (heading : HeadingSettings) : ((headingTexts heading).map Prod.fst).Nodup :=
  (by decide : ["declaration", "module", "group", "document"].Nodup)

theorem distinct_linkTexts (link : LinkSettings) : ((linkTexts link).map Prod.fst).Nodup :=
  (by decide : ["declaration", "module", "inventory", "uri", "unresolved"].Nodup)

theorem follow_templates {before : Members} (unused : before.lookup "templates" = none)
    (templates : TemplateSettings) (last : List String) :
    (.header ["templates", "heading"] :: settings (present (headingTexts templates.heading)) ++
        .header ["templates", "link"] :: settings (present (linkTexts templates.link))).foldlM follow?
        (last, before) =
      some (["templates", "link"], before ++ [("templates", .table .implied (templateMembers templates))]) := by
  have place := leads_nil.table unused .implied
  have begun : follow? (last, before) (.header ["templates", "heading"]) = some (["templates", "heading"],
      before ++ [("templates", .table .implied [("heading", .table .header [])])]) :=
    follow?_implied leads_nil unused last
  have heading := follow_settings (place.table (rfl : ([] : Members).lookup "heading" = none) .header) []
    (present (headingTexts templates.heading))
    (distinct_present (distinct_headingTexts templates.heading)) (by simp)
  have link := follow_section place
    (rfl : List.lookup "link" [("heading",
      Toml.Node.table .header (given (present (headingTexts templates.heading))))] = none)
    (present (linkTexts templates.link)) (distinct_present (distinct_linkTexts templates.link))
    ["templates", "heading"]
  refine follow_append ?_ link
  rw [List.foldlM_cons, begun, Option.bind_eq_bind, Option.bind_some]
  exact heading

theorem follow_statementsBefore (config : Config) :
    (statementsBefore config).foldlM follow? ([], []) = some (["filter"], membersBefore config) := by
  have free (name : String) (noDocuments : name ≠ "documents") (noInventory : name ≠ "inventory") :=
    lookup_topTable config name noDocuments noInventory
  have top : (settings (topTable config)).foldlM follow? ([], []) = some ([], given (topTable config)) :=
    follow_settings leads_nil [] (topTable config) (distinct_topTable config) (by simp)
  have comment := follow_append top (follow_top _ "comment" (free _ (by decide) (by decide))
    [("free_file_binding", .boolean config.comment.freeFileBinding)] (by simp) [])
  have commands := follow_append comment (follow_top _ "commands"
    (by simp [List.lookup_append, List.lookup_cons, free])
    (textSettings config.commands) (distinct_textSettings config.commands) ["comment"])
  have templates := follow_append commands (follow_templates
    (by simp [List.lookup_append, List.lookup_cons, free]) config.templates ["commands"])
  exact follow_append templates (follow_top _ "filter"
    (by simp [List.lookup_append, List.lookup_cons, free])
    (filterTable config.filter) (by decide : ["exclude", "exclude_private", "exclude_uncommented"].Nodup)
    ["templates", "link"])

/-- The statements of a configuration build its members, section after section. -/
theorem follow_statements (config : Config) :
    config.statements.foldlM follow? ([], []) = some (["pool"], members config) := by
  have free (name : String) (noDocuments : name ≠ "documents") (noInventory : name ≠ "inventory") :=
    lookup_topTable config name noDocuments noInventory
  have noArray (nonempty : config.inventories ≠ []) : (membersBefore config).lookup "inventory" = none := by
    simp [membersBefore, given, topTable, nonempty, List.lookup_cons]
  obtain ⟨path, listed⟩ := follow_inventories (membersBefore config) config.inventories noArray [] ["filter"]
  rw [Toml.Node.filed_nil, List.append_nil] at listed
  have inventories := follow_append (follow_statementsBefore config) listed
  have diagnostics := follow_append inventories (follow_top _ "diagnostics"
    (by simp [membersBefore, List.lookup_append, List.lookup_cons, free, lookup_filed])
    [("warnings_as_errors", .boolean config.diagnostics.warningsAsErrors)] (by simp) path)
  rw [statements_eq]
  exact follow_append diagnostics (follow_top _ "pool"
    (by simp [membersBefore, List.lookup_append, List.lookup_cons, free, lookup_filed])
    (poolTable config.pool) (by decide : ["threads", "synchronous"].Nodup) ["diagnostics"])

def inventoryArray (inventories : List InventorySettings) : Value :=
  .array (inventories.map fun inventory => .table (inventoryTable inventory))

/-- The sections of the table of a configuration, except for the inventories. -/
def sections (config : Config) : Table :=
  [("documents", texts config.documents),
   ("comment", .table [("free_file_binding", .boolean config.comment.freeFileBinding)]),
   ("commands", .table (textSettings config.commands)),
   ("templates", .table [("heading", .table (present (headingTexts config.templates.heading))),
     ("link", .table (present (linkTexts config.templates.link)))]),
   ("filter", .table (filterTable config.filter)),
   ("diagnostics", .table [("warnings_as_errors", .boolean config.diagnostics.warningsAsErrors)]),
   ("pool", .table (poolTable config.pool))]

/-- The table of a configuration. Inventories come second if there are none, and after the filter
otherwise. -/
def table (config : Config) : Table :=
  let inventories : Table := [("inventory", inventoryArray config.inventories)]
  if config.inventories.isEmpty then
    (sections config).take 1 ++ inventories ++ (sections config).drop 1
  else (sections config).take 5 ++ inventories ++ (sections config).drop 5

theorem finishMembers_inventory (inventory : InventorySettings) :
    finishMembers (inventoryMembers inventory) = inventoryTable inventory := by
  simp [inventoryMembers, inventoryTable, Toml.Node.finishMembers_append, Toml.Node.finishMembers_given,
    finishMembers, Toml.Node.finish]

theorem finishMembers_members (config : Config) : finishMembers (members config) = table config := by
  rw [members, membersBefore, topTable, templateMembers, table]
  cases config.inventories with
  | nil =>
    simp [Toml.Node.finishMembers_append, Toml.Node.finishMembers_given, finishMembers, Toml.Node.finish,
      sections, inventoryArray]
  | cons inventory inventories =>
    simp [Toml.Node.finishMembers_append, Toml.Node.finishMembers_given, finishMembers, Toml.Node.finish,
      Toml.Node.finishElements, Toml.Node.finishElements_map, finishMembers_inventory, filed, sections,
      inventoryArray]

theorem tableOf?_statements (config : Config) : Toml.tableOf? config.statements = some (table config) := by
  rw [Toml.tableOf?, follow_statements, Option.map_some]
  exact congrArg some (finishMembers_members config)

theorem lookup_inventory (config : Config) :
    (table config).lookup "inventory" = some (inventoryArray config.inventories) := by
  rw [table]
  split <;> rfl

/-- Where the inventories stand does not matter for the other sections. -/
theorem lookup_table (config : Config) {name : String} (other : name ≠ "inventory") :
    (table config).lookup name = (sections config).lookup name := by
  have parts (k : Nat) : (sections config).lookup name =
      (((sections config).take k).lookup name).or (((sections config).drop k).lookup name) := by
    rw [← List.lookup_append, List.take_append_drop]
  rw [table]
  split <;> rename_i place
  · rw [parts 1]
    simp [List.lookup_append, List.lookup_cons, beq_false_of_ne other]
  · rw [parts 5]
    simp [List.lookup_append, List.lookup_cons, beq_false_of_ne other]

theorem setting?_section (config : Config) {α : Type} (name : String) (reads : Value → Option α)
    (default : α) {value : Value} (other : name ≠ "inventory")
    (listed : (sections config).lookup name = some value) :
    (table config).setting? name reads default = reads value :=
  setting?_of_lookup ((lookup_table config other).trans listed)

theorem read?_templates (templates : TemplateSettings) :
    TemplateSettings.read? (.table [("heading", .table (present (headingTexts templates.heading))),
      ("link", .table (present (linkTexts templates.link)))]) = some templates := by
  simp [TemplateSettings.read?, sectionMembers?, members?, Toml.Table.setting?, List.lookup_cons,
    read?_heading, read?_link]

/-- What a configuration wrote is read back, section by section. -/
theorem ofTable?_table (config : Config) (fits : config.pool.threads < Nat.pow 2 63) :
    ofTable? (table config) = some config := by
  have documents := (setting?_section config "documents" (list? string?) [] (by decide) rfl).trans
    (list?_texts config.documents)
  have comment := setting?_section config "comment" CommentSettings.read? {} (by decide) rfl
  have commands := (setting?_section config "commands" textMap? .empty (by decide) rfl).trans
    (textMap?_textSettings config.commands)
  have templates := (setting?_section config "templates" TemplateSettings.read? {} (by decide) rfl).trans
    (read?_templates config.templates)
  have filter := (setting?_section config "filter" FilterSettings.read? {} (by decide) rfl).trans
    (read?_filter config.filter)
  have inventories : (table config).setting? "inventory" (list? InventorySettings.read?) [] =
      some config.inventories :=
    (setting?_of_lookup (lookup_inventory config)).trans (list?_map _ read?_inventory config.inventories)
  have diagnostics := setting?_section config "diagnostics" DiagnosticsSettings.read? {} (by decide) rfl
  have pool := (setting?_section config "pool" PoolSettings.read? {} (by decide) rfl).trans
    (read?_pool config.pool fits)
  have commentRead : CommentSettings.read? (.table [("free_file_binding",
    .boolean config.comment.freeFileBinding)]) = some config.comment := rfl
  have diagnosticsRead : DiagnosticsSettings.read? (.table [("warnings_as_errors",
    .boolean config.diagnostics.warningsAsErrors)]) = some config.diagnostics := rfl
  rw [ofTable?, documents, Option.bind_eq_bind, Option.bind_some, comment, commentRead, Option.bind_eq_bind,
    Option.bind_some, commands, Option.bind_eq_bind, Option.bind_some, templates, Option.bind_eq_bind,
    Option.bind_some, filter, Option.bind_eq_bind, Option.bind_some, inventories, Option.bind_eq_bind,
    Option.bind_some, diagnostics, diagnosticsRead, Option.bind_eq_bind, Option.bind_some, pool]
  rfl

open Toml (maxDepth)

theorem readable_settings {entries : Table} (readable : ∀ entry ∈ entries, entry.2.Readable maxDepth) :
    ∀ statement ∈ settings entries, statement.Readable := by
  intro statement member
  obtain ⟨entry, listed, rfl⟩ := List.mem_map.mp member
  exact ⟨List.cons_ne_nil _ _, readable entry listed⟩

theorem readable_section {path : List String} (nonempty : path ≠ []) {entries : Table}
    (readable : ∀ entry ∈ entries, entry.2.Readable maxDepth) :
    ∀ statement ∈ .header path :: settings entries, statement.Readable :=
  List.forall_mem_cons.mpr ⟨nonempty, readable_settings readable⟩

theorem readable_texts (items : List String) : (texts items).Readable maxDepth := by
  intro item member
  obtain ⟨text, -, rfl⟩ := List.mem_map.mp member
  trivial

theorem readable_present (entries : List (String × Option String)) :
    ∀ entry ∈ present entries, entry.2.Readable maxDepth := by
  intro entry member
  obtain ⟨⟨name, text⟩, -, made⟩ := List.mem_filterMap.mp member
  cases text with
  | none => cases made
  | some text => cases made; trivial

theorem readable_textSettings (map : TextMap) :
    ∀ entry ∈ textSettings map, entry.2.Readable maxDepth := by
  intro entry member
  obtain ⟨source, -, rfl⟩ := List.mem_map.mp member
  trivial

theorem readable_inventoryStatements (inventory : InventorySettings) :
    ∀ statement ∈ inventoryStatements inventory, statement.Readable := by
  rw [inventoryStatements_eq]
  refine List.forall_mem_append.mpr ⟨List.forall_mem_cons.mpr ⟨List.cons_ne_nil _ _, readable_settings ?_⟩,
    readable_section (List.cons_ne_nil _ _) (readable_textSettings inventory.entries)⟩
  simp [inventoryHead, Value.Readable]

theorem readable_integer {n : Nat} (fits : n < Nat.pow 2 63) : Value.Readable maxDepth (.integer n) := by
  have wider : ((Nat.pow 2 63 : Nat) : Int) < Int.pow 2 128 := by decide
  have low : -(Int.pow 2 127) ≤ 0 := by decide
  refine ⟨Int.natCast_nonneg n, ?_⟩
  rw [Toml.isReadable, decide_eq_true (Int.le_trans low (Int.natCast_nonneg n)),
    decide_eq_true (Int.lt_trans (Int.ofNat_lt.mpr fits) wider)]
  rfl

/-- Every statement of a writable configuration can be read back. -/
theorem readable_statements (config : Config) (fits : config.pool.threads < Nat.pow 2 63) :
    ∀ statement ∈ config.statements, statement.Readable := by
  have boolean (flag : Bool) : Value.Readable maxDepth (.boolean flag) := trivial
  have empty : Value.Readable maxDepth (.array []) := fun item member => by cases member
  have top : ∀ entry ∈ topTable config, entry.2.Readable maxDepth := by
    rw [topTable]
    split <;> simp [readable_texts, empty]
  have filter : ∀ entry ∈ filterTable config.filter, entry.2.Readable maxDepth := by
    simp [filterTable, readable_texts, boolean]
  have pool : ∀ entry ∈ poolTable config.pool, entry.2.Readable maxDepth := by
    simp [poolTable, readable_integer fits, boolean]
  have inventories : ∀ statement ∈ config.inventories.flatMap inventoryStatements, statement.Readable := by
    intro statement member
    obtain ⟨inventory, -, listed⟩ := List.mem_flatMap.mp member
    exact readable_inventoryStatements inventory statement listed
  rw [statements_eq, statementsBefore]
  simp only [List.forall_mem_append]
  refine ⟨⟨⟨⟨⟨⟨⟨readable_settings top, ?_⟩, ?_⟩, ?_, ?_⟩, ?_⟩, inventories⟩, ?_⟩, ?_⟩
  · exact readable_section (by simp) (by simp [boolean])
  · exact readable_section (by simp) (readable_textSettings config.commands)
  · exact readable_section (by simp) (readable_present _)
  · exact readable_section (by simp) (readable_present _)
  · exact readable_section (by simp) filter
  · exact readable_section (by simp) (by simp [boolean])
  · exact readable_section (by simp) pool

/-- The text that a configuration writes is read as that configuration. -/
theorem read?_write (config : Config) (fits : config.pool.threads < Nat.pow 2 63) :
    read? (String.ofList (Toml.write config.statements)) = some config := by
  rw [read?, Toml.read?, Toml.statements?_write (readable_statements config fits), Option.bind_some,
    tableOf?_statements, Option.bind_some, ofTable?_table config fits]

/-- What was saved without an error is in the file as text. -/
theorem file_saveConfig {config : Config} {workspace after : Workspace} {path : String}
    (saved : workspace.saveConfig config path = (after, .ok ())) :
    ∃ text location, config.write? = some text ∧ after.tree.locate? path = some location ∧
      after.tree.text? location = some text := by
  rw [Workspace.saveConfig] at saved
  split at saved
  case h_1 => cases saved
  case h_2 tree _ =>
    split at saved
    case h_1 => cases saved
    case h_2 written put =>
      cases saved
      obtain ⟨text, wrote, put⟩ := Option.bind_eq_some_iff.mp put
      obtain ⟨location, found, holds⟩ := FileTree.locate?_writeFile? put
      refine ⟨text, location, wrote, found, ?_⟩
      rw [FileTree.text?, holds]
      exact Text.ofUtf8?_utf8Bytes text

/-- A configuration whose number of workers has a written form survives: its text is read as the
configuration, and so is every file that it is saved to. -/
theorem read_back (config : Config) (fits : config.pool.threads ≤ Nat.pow 2 63 - 1) :
    ∃ text, config.write? = some text ∧ read? text = some config ∧
      ∀ (workspace after : Workspace) (path : String),
        workspace.saveConfig config path = (after, .ok ()) → after.loadConfig path = .ok (some config) := by
  have short : config.pool.threads < Nat.pow 2 63 := Nat.lt_of_le_pred (by decide) fits
  have wrote : config.write? = some (String.ofList (Toml.write config.statements)) := by
    rw [write?, isWritable, decide_eq_true short]
    rfl
  have reads := read?_write config short
  refine ⟨_, wrote, reads, fun workspace after path saved => ?_⟩
  obtain ⟨text, location, same, found, holds⟩ := file_saveConfig saved
  cases wrote.symm.trans same
  simp only [Workspace.loadConfig, found, holds, reads]

/-- A configuration with quotes, line ends and bars where they could be mistaken. -/
def awkward : Config where
  documents := ["docs/*.md", "it\x27s \"quoted\"\n", ""]
  commands := .ofList [("|returns", "\x27\x27\x27\t\\b"), ("brief", ""), ("a key", "\r\n")]
  templates := { heading := { group := some "" }, link := { uri := some "# no comment" } }
  filter := { exclude := ["]"], excludePrivate := false }
  inventories := [{ project := "one", entries := .ofList [("", "x.y"), ("ns::f", "")] }, {}]
  pool := { threads := Nat.pow 2 63 - 1 }

theorem read_back_awkward :
    awkward.pool.threads ≤ Nat.pow 2 63 - 1 ∧
    (({ home := "/" } : Workspace).saveConfig awkward "c.toml").2 = .ok () ∧
    ∃ text, awkward.write? = some text ∧ read? text = some awkward ∧
      ∀ (workspace after : Workspace) (path : String),
        workspace.saveConfig awkward path = (after, .ok ()) → after.loadConfig path = .ok (some awkward) := by
  have short : awkward.pool.threads ≤ Nat.pow 2 63 - 1 := by decide
  obtain ⟨text, wrote, reads⟩ := read_back awkward short
  refine ⟨short, ?_, text, wrote, reads⟩
  have one : FileTree.names "c.toml" = ["c.toml"] := by decide
  simp [Workspace.saveConfig, wrote, FileTree.steps, FileTree.makeDirectories?, FileTree.writeFile?, one,
    FileTree.isStay, FileTree.isDirectory, FileTree.entry?]

end DocComment.Config
