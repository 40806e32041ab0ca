import DocComment.Config.Read
import DocComment.Config.Write
import Mathlib.Data.List.Nodup
import DocComment.Proofs.Toml.Tables

namespace DocComment

/-- A key above all others goes to the end. -/
theorem insertEntry_above {key value : String} {entries : List (String × String)}
    (above : ∀ entry ∈ entries, entry.1 < key) :
    insertEntry key value entries = entries ++ [(key, value)] := by
  induction entries with
  | nil => rfl
  | cons entry entries ih =>
    obtain ⟨other, old⟩ := entry
    obtain ⟨below, rest⟩ := List.forall_mem_cons.mp above
    have notBefore : ¬ key < other := fun before => String.lt_irrefl _ (String.lt_trans before below)
    have notSame : key ≠ other := fun same => String.lt_irrefl _ (same ▸ below)
    rw [insertEntry, if_neg notBefore, if_neg notSame, ih rest]
    rfl

theorem TextMap.foldl_insert_entries (map : TextMap) (entries : List (String × String))
    (sorted : (map.entries ++ entries).Pairwise fun a b => a.1 < b.1) :
    (entries.foldl (fun map (key, value) => map.insert key value) map).entries = map.entries ++ entries := by
  induction entries generalizing map with
  | nil => simp
  | cons entry entries ih =>
    obtain ⟨key, value⟩ := entry
    have above : ∀ entry ∈ map.entries, entry.1 < key := fun entry member =>
      (List.pairwise_append.mp sorted).2.2 entry member _ List.mem_cons_self
    have inserted : (map.insert key value).entries = map.entries ++ [(key, value)] :=
      insertEntry_above above
    rw [List.foldl_cons, ih (map.insert key value) (by simpa [inserted] using sorted), inserted]
    simp

/-- The entries of a map make up the map. -/
theorem TextMap.ofList_entries (map : TextMap) : ofList map.entries = map := by
  have same := foldl_insert_entries empty map.entries (by simpa [empty] using map.sorted)
  obtain ⟨entries, sorted⟩ := map
  simp only [empty, List.nil_append] at same
  simp only [ofList, empty]
  generalize List.foldl _ _ entries = built at same
  cases built
  cases same
  rfl

namespace Config

open Toml (Table Value)
open Toml.Value
open Toml.Node (settings given finishMembers Members filed Leads)

/-- Those settings of texts that are made. -/
def present (entries : List (String × Option String)) : Table :=
  entries.filterMap fun entry => entry.2.map fun text => (entry.1, .string text)

@[simp] theorem present_none (name : String) (entries : List (String × Option String)) :
    present ((name, none) :: entries) = present entries :=
  rfl

@[simp] theorem present_some (name text : String) (entries : List (String × Option String)) :
    present ((name, some text) :: entries) = (name, .string text) :: present entries :=
  rfl

def textSettings (map : TextMap) : Table :=
  map.entries.map fun entry => (entry.1, .string entry.2)

theorem settings_present (name : String) (text : Option String)
    (entries : List (String × Option String)) :
    settings (present ((name, text) :: entries)) = template name text ++ settings (present entries) := by
  cases text <;> rfl

theorem textMap_eq (map : TextMap) : textMap map = settings (textSettings map) := by
  simp [textMap, textSettings, settings, set, Function.comp_def]

theorem names_present (entries : List (String × Option String)) :
    ((present entries).map Prod.fst).Sublist (entries.map Prod.fst) := by
  induction entries with
  | nil => exact .slnil
  | cons entry entries ih =>
    obtain ⟨name, text⟩ := entry
    cases text with
    | none => exact ih.cons _
    | some text => exact ih.cons_cons _

theorem lookup_eq_none {α : Type} {entries : List (String × α)} {name : String}
    (missing : name ∉ entries.map Prod.fst) : entries.lookup name = none := by
  rw [List.lookup_eq_none_iff]
  intro entry member
  have there : entry.1 ∈ entries.map Prod.fst := List.mem_map_of_mem member
  exact bne_iff_ne.mpr fun same : name = entry.1 => missing (same ▸ there)

theorem lookup_present {entries : List (String × Option String)}
    (distinct : (entries.map Prod.fst).Nodup) (name : String) :
    (present entries).lookup name = (entries.lookup name).bind fun text => text.map .string := by
  induction entries with
  | nil => rfl
  | cons entry entries ih =>
    obtain ⟨other, text⟩ := entry
    rw [List.map_cons, List.nodup_cons] at distinct
    have rest := ih distinct.2
    by_cases same : name = other
    · subst same
      cases text with
      | none =>
        have missing : name ∉ (present entries).map Prod.fst := fun member =>
          distinct.1 ((names_present entries).mem member)
        simp [lookup_eq_none missing]
      | some text => simp
    · have apart : (name == other) = false := beq_false_of_ne same
      cases text <;> simp [List.lookup_cons, apart, rest]

theorem setting?_of_lookup {α : Type} {table : Table} {name : String} {value : Value}
    {reads : Value → Option α} {default : α} (found : table.lookup name = some value) :
    table.setting? name reads default = reads value := by
  rw [Toml.Table.setting?, found]

/-- A template that is not set is found to be so. -/
theorem template?_present {entries : List (String × Option String)}
    (distinct : (entries.map Prod.fst).Nodup) {name : String} {text : Option String}
    (listed : entries.lookup name = some text) : template? (present entries) name = some text := by
  rw [template?, Toml.Table.setting?, lookup_present distinct, listed]
  cases text <;> rfl

theorem mapM_textEntry? (entries : List (String × String)) :
    (entries.map fun entry => (entry.1, Value.string entry.2)).mapM textEntry? = some entries := by
  induction entries with
  | nil => rfl
  | cons entry entries ih => simp [List.mapM_cons, ih, textEntry?, string?]

theorem textMap?_textSettings (map : TextMap) : textMap? (.table (textSettings map)) = some map := by
  simp only [textMap?, members?, Option.bind_some, textSettings, mapM_textEntry?, Option.map_some,
    TextMap.ofList_entries]

theorem list?_map {α : Type} {item? : Value → Option α} (build : α → Value)
    (reads : ∀ item, item? (build item) = some item) (items : List α) :
    list? item? (.array (items.map build)) = some items := by
  rw [list?]
  induction items with
  | nil => rfl
  | cons item items ih => simp [List.mapM_cons, reads, ih]

theorem list?_texts (items : List String) : list? string? (texts items) = some items :=
  list?_map Value.string (fun _ => rfl) items

def headingTexts (heading : HeadingSettings) : List (String × Option String) :=
  [("declaration", heading.declaration), ("module", heading.moduleDoc), ("group", heading.group),
   ("document", heading.document)]

def linkTexts (link : LinkSettings) : List (String × Option String) :=
  [("declaration", link.declaration), ("module", link.moduleDoc), ("inventory", link.inventory),
   ("uri", link.uri), ("unresolved", link.unresolved)]

def filterTable (filter : FilterSettings) : Table :=
  [("exclude", texts filter.exclude), ("exclude_private", .boolean filter.excludePrivate),
   ("exclude_uncommented", .boolean filter.excludeUncommented)]

def inventoryHead (inventory : InventorySettings) : Table :=
  [("project", .string inventory.project), ("version", .string inventory.version),
   ("base_url", .string inventory.baseUrl)]

def inventoryTable (inventory : InventorySettings) : Table :=
  inventoryHead inventory ++ [("entries", .table (textSettings inventory.entries))]

def poolTable (pool : PoolSettings) : Table :=
  [("threads", .integer pool.threads), ("synchronous", .boolean pool.synchronous)]

theorem read?_heading (heading : HeadingSettings) :
    HeadingSettings.read? (.table (present (headingTexts heading))) = some heading := by
  have distinct : ((headingTexts heading).map Prod.fst).Nodup :=
    (by decide : ["declaration", "module", "group", "document"].Nodup)
  have found (name : String) (text : Option String)
      (listed : (headingTexts heading).lookup name = some text) := template?_present distinct listed
  simp [HeadingSettings.read?, sectionMembers?, members?, found "declaration" heading.declaration rfl,
    found "module" heading.moduleDoc rfl, found "group" heading.group rfl,
    found "document" heading.document rfl]

theorem read?_link (link : LinkSettings) :
    LinkSettings.read? (.table (present (linkTexts link))) = some link := by
  have distinct : ((linkTexts link).map Prod.fst).Nodup :=
    (by decide : ["declaration", "module", "inventory", "uri", "unresolved"].Nodup)
  have found (name : String) (text : Option String)
      (listed : (linkTexts link).lookup name = some text) := template?_present distinct listed
  simp [LinkSettings.read?, sectionMembers?, members?, found "declaration" link.declaration rfl,
    found "module" link.moduleDoc rfl, found "inventory" link.inventory rfl, found "uri" link.uri rfl,
    found "unresolved" link.unresolved rfl]

theorem read?_filter (filter : FilterSettings) :
    FilterSettings.read? (.table (filterTable filter)) = some filter := by
  simp [FilterSettings.read?, sectionMembers?, members?, filterTable, Toml.Table.setting?,
    List.lookup_cons, list?_texts, boolean?]

theorem read?_inventory (inventory : InventorySettings) :
    InventorySettings.read? (.table (inventoryTable inventory)) = some inventory := by
  simp [InventorySettings.read?, sectionMembers?, members?, inventoryTable, inventoryHead,
    Toml.Table.setting?, List.lookup_cons, string?, textMap?_textSettings]

/-- A count of 63 bits is one of 64 bits. -/
theorem count?_integer {n : Nat} (fits : n < Nat.pow 2 63) : count? (.integer n) = some n := by
  have wider : ((Nat.pow 2 63 : Nat) : Int) < Int.pow 2 64 := by decide
  have small : (n : Int) < Int.pow 2 64 := Int.lt_trans (Int.ofNat_lt.mpr fits) wider
  have counts : (decide (0 ≤ (n : Int)) && decide ((n : Int) < Int.pow 2 64)) = true := by
    rw [decide_eq_true (Int.natCast_nonneg n), decide_eq_true small]
    rfl
  change (if (decide (0 ≤ (n : Int)) && decide ((n : Int) < Int.pow 2 64)) = true
    then some (n : Int).toNat else none) = some n
  rw [if_pos counts, Int.toNat_natCast]

theorem read?_pool (pool : PoolSettings) (fits : pool.threads < Nat.pow 2 63) :
    PoolSettings.read? (.table (poolTable pool)) = some pool := by
  -- The reader of counts stays closed: unfolded, its bound would be counted out.
  have opened : (Value.table (poolTable pool)).sectionMembers? ["threads", "synchronous"] =
    some (poolTable pool) := rfl
  have threads : Toml.Table.setting? (poolTable pool) "threads" count? 0 = some pool.threads :=
    (setting?_of_lookup rfl).trans (count?_integer fits)
  have synchronous : Toml.Table.setting? (poolTable pool) "synchronous" boolean? false =
    some pool.synchronous := rfl
  rw [PoolSettings.read?, opened, Option.bind_eq_bind, Option.bind_some, threads, Option.bind_eq_bind,
    Option.bind_some, synchronous]
  rfl

end Config

end DocComment
