import DocComment.Proofs.LinkTable.Tables

/-! What raw targets resolve to, as scans of the index. A file is found by its path or its base name,
whichever comes first. Names are found as they are, or with a star by their last components. The order in
which the modules of a table are gone through makes no difference but for a name that is looked up whatever
its case, that no declaration goes by, and that several modules do. -/
namespace DocComment

/-- The order that has one name before all others. -/
def SetOrder.leading (name : String) : SetOrder where
  arrange names := if name ∈ names then name :: names.erase name else names
  perm names := by
    split
    · exact (List.perm_cons_erase ‹_›).symm
    · exact .refl _

theorem SetOrder.leading_arrange {name : String} {names : List String} (present : name ∈ names) :
    (leading name).arrange names = name :: names.erase name :=
  if_pos present

namespace LinkTable

variable {source : SourceTree} {index : Index} {order : SetOrder} {isAddress : String → Bool}
  {table : LinkTable} {raw name scope : String}

/-- The files that are documented anywhere in an index, in preorder. -/
def files (source : SourceTree) (index : Index) : List DeclId :=
  (index.documented.map Prod.fst).filter fun id => source.kind id = .file

/-- The base name is all that comes after the last slash of a path. -/
def IsBaseName (path base : String) : Prop :=
  '/' ∉ base.toList ∧ ∃ directory, path = directory ++ "/" ++ base

theorem IsBaseName.ne {path base : String} (named : IsBaseName path base) : path ≠ base := by
  obtain ⟨-, directory, split⟩ := named
  intro same
  have sizes := congrArg (List.length ∘ String.toList) (same.symm.trans split)
  simp at sizes
  omega

/-- Read from the end, the base name is what comes before the first slash. -/
theorem baseName?_of_reverse {path : String} {tail front : List Char} (plain : '/' ∉ tail)
    (split : path.toList.reverse = tail ++ '/' :: front) :
    baseName? path = some (String.ofList tail.reverse) := by
  have contained : path.toList.contains '/' = true := by
    rw [List.contains_iff_mem, ← List.mem_reverse, split]
    simp
  have taken : (tail ++ '/' :: front).takeWhile (· != '/') = tail := by
    rw [List.takeWhile_append_of_pos, List.takeWhile_cons_of_neg, List.append_nil]
    · simp
    · intro c member
      exact bne_iff_ne.mpr fun same => plain (same ▸ member)
  rw [baseName?, if_pos contained, split, taken]

theorem baseName?_eq_some_iff {path base : String} :
    baseName? path = some base ↔ IsBaseName path base := by
  constructor
  · intro found
    have contained : '/' ∈ path.toList.reverse := by
      by_contra missing
      rw [baseName?, if_neg (by simpa using missing)] at found
      cases found
    obtain ⟨tail, front, split, plain⟩ := List.eq_append_cons_of_mem contained
    rw [baseName?_of_reverse plain split] at found
    obtain rfl := Option.some.inj found
    refine ⟨by simpa using plain, String.ofList front.reverse, ?_⟩
    rw [← String.toList_inj, ← List.reverse_inj, split]
    simp
  · intro named
    obtain ⟨plain, directory, rfl⟩ := named
    have split : (directory ++ "/" ++ base).toList.reverse =
        base.toList.reverse ++ '/' :: directory.toList.reverse := by
      simp
    rw [baseName?_of_reverse (by simpa using plain) split, List.reverse_reverse, String.ofList_toList]

/-- The entries of one file come before those of the next one. -/
theorem lookup_headerEntries (source : SourceTree) (ids : List DeclId) (raw : String) :
    (ids.flatMap fun id =>
      (source.name id, id) :: ((baseName? (source.name id)).map fun base => (base, id)).toList).lookup raw =
    ids.find? fun id => source.name id = raw ∨ baseName? (source.name id) = some raw := by
  induction ids with
  | nil => rfl
  | cons id rest ih =>
    rw [List.flatMap_cons, List.lookup_append, ih, List.lookup_cons, List.find?_cons]
    by_cases own : source.name id = raw
    · simp [own]
    · have differ : (raw == source.name id) = false := by simpa using Ne.symm own
      cases base : baseName? (source.name id) with
      | none => simp [own, differ]
      | some name =>
        by_cases same : name = raw
        · simp [own, differ, same]
        · have apart : (raw == name) = false := by simpa using Ne.symm same
          simp [own, differ, same, apart, List.lookup_cons]

/-- A header leads to the first file with this path or this base name. -/
theorem lookup_headers (source : SourceTree) (index : Index) (order : SetOrder) (isAddress : String → Bool)
    (raw : String) :
    (build source index order isAddress).headers.lookup raw =
      (files source index).find? fun id =>
        source.name id = raw ∨ baseName? (source.name id) = some raw := by
  have headers : (build source index order isAddress).headers =
      headerNames source ((Entity.preorderAll index.entities).filterMap Entity.declaration?) := rfl
  rw [headers, declarations_documented, headerNames, lookup_headerEntries]
  rfl

/-- Files come before all names. -/
theorem resolve_header {table : LinkTable} {id : DeclId} (plain : ¬ Carrier.scheme.toList <+: raw.toList)
    (header : table.headers.lookup raw = some id) :
    table.resolve raw scope = (some (.declarationRef id), []) := by
  rw [← List.isPrefixOf_iff_prefix] at plain
  simp only [resolve, plain, header, if_false, Bool.false_eq_true]

/-- If a file with a certain path is documented, the path resolves to a file, which has it as its path or as
its base name. It is one with the path unless a file with the base name comes before all of those. -/
theorem resolve_path_iff (plain : ¬ Carrier.scheme.toList <+: raw.toList)
    (present : ∃ id ∈ files source index, source.name id = raw) (scope : String) :
    ∃ id ∈ files source index,
      (build source index order isAddress).resolve raw scope = (some (.declarationRef id), []) ∧
      (source.name id = raw ∨ IsBaseName (source.name id) raw) ∧
      (source.name id = raw ↔ ∀ before other after, files source index = before ++ other :: after →
        IsBaseName (source.name other) raw → ∃ earlier ∈ before, source.name earlier = raw) := by
  obtain ⟨file, documented, path⟩ := present
  have table := lookup_headers source index order isAddress raw
  cases found : (files source index).find? fun id =>
      source.name id = raw ∨ baseName? (source.name id) = some raw with
  | none =>
    have missing := List.find?_eq_none.mp found file documented
    simp [path] at missing
  | some id =>
    rw [found] at table
    obtain ⟨goes, before, after, split, first⟩ := List.find?_eq_some_iff_append.mp found
    simp only [decide_eq_true_eq, baseName?_eq_some_iff, Bool.not_eq_true', decide_eq_false_iff_not,
      not_or] at goes first
    refine ⟨id, List.mem_of_find?_eq_some found, resolve_header plain table, goes, ?_⟩
    constructor
    · intro own others other later parts base
      rw [parts, List.find?_append, Option.or_eq_some_iff] at found
      rcases found with among | ⟨-, after⟩
      · exact ⟨id, List.mem_of_find?_eq_some among, own⟩
      · rw [List.find?_cons_of_pos (by simp [baseName?_eq_some_iff, base])] at after
        obtain rfl := Option.some.inj after
        exact absurd own base.ne
    · intro earlier
      rcases goes with own | base
      · exact own
      · obtain ⟨other, present, same⟩ := earlier before id after split base
        exact absurd same (first other present).1

/-- Two files, the first with the path of the second as its base name. -/
def headerTree : SourceTree :=
  (({} : SourceTree).addFile "lib/a.hpp").addFile "a.hpp"

def headerIndex : Index :=
  (Normalize.addUncommentedEntities headerTree {}).1

theorem resolve_path_header :
    ¬ Carrier.scheme.toList <+: "a.hpp".toList ∧
      (∃ id ∈ files headerTree headerIndex, headerTree.name id = "a.hpp") ∧
      ∃ id ∈ files headerTree headerIndex,
        (build headerTree headerIndex).resolve "a.hpp" "" = (some (.declarationRef id), []) ∧
        (headerTree.name id = "a.hpp" ∨ IsBaseName (headerTree.name id) "a.hpp") ∧
        (headerTree.name id = "a.hpp" ↔ ∀ before other after,
          files headerTree headerIndex = before ++ other :: after →
            IsBaseName (headerTree.name other) "a.hpp" →
              ∃ earlier ∈ before, headerTree.name earlier = "a.hpp") := by
  have plain : ¬ Carrier.scheme.toList <+: "a.hpp".toList := by decide
  have present : ∃ id ∈ files headerTree headerIndex, headerTree.name id = "a.hpp" :=
    ⟨1, by decide, rfl⟩
  exact ⟨plain, present, resolve_path_iff plain present ""⟩

/-- The path of a file that is documented leads to another file. -/
theorem base_name_shadows_path :
    1 ∈ files headerTree headerIndex ∧ headerTree.name 1 = "a.hpp" ∧
      ¬ Carrier.scheme.toList <+: "a.hpp".toList ∧
      (build headerTree headerIndex).resolve "a.hpp" "" = (some (.declarationRef 0), []) ∧
      headerTree.name 0 = "lib/a.hpp" := by
  decide

/-- The module of this name, if it is documented. -/
def scanModules (index : Index) (name : String) : Option LinkTarget :=
  if name ∈ index.documentedModules then some (.moduleRef name) else none

/-- The first declaration with this unique name, or else the first with this qualified name, or else the
module. Files have no qualified names. -/
def scanNamed (source : SourceTree) (index : Index) (name : String) : Option LinkTarget :=
  let unique := index.documented.find? fun entry => entry.2.uniqueName = some name
  let qualified := index.documented.find? fun entry =>
    source.kind entry.1 ≠ .file ∧ source.qualifiedName entry.1 = name
  ((unique.or qualified).map fun entry => .declarationRef entry.1).or (scanModules index name)

/-- All declarations with a qualified name that ends in this name. -/
def candidates (source : SourceTree) (index : Index) (name : String) : List (DeclId × Fields) :=
  index.documented.filter fun entry =>
    source.kind entry.1 ≠ .file ∧ EndsIn (source.qualifiedName entry.1).toList name.toList

/-- The candidate that is nearest to a scope, the first of several, or else the module of just this name. -/
def scanNearest (source : SourceTree) (index : Index) (name scope : String) : Option LinkTarget :=
  let nearest := (candidates source index name).argmin fun entry =>
    distance scope (source.qualifiedName entry.1)
  (nearest.map fun entry => .declarationRef entry.1).or (scanModules index name)

theorem named?_eq_scan (name : String) :
    (build source index order isAddress).named? name = scanNamed source index name := by
  unfold named? scanNamed scanModules
  dsimp only
  rw [lookup_names]
  cases (index.documented.find? _).or (index.documented.find? _) with
  | some => rfl
  | none => simp [mem_modules]

theorem find?_modules (name : String) :
    ((build source index order isAddress).modules.find? fun documented =>
      fold false documented == name.toList).map .moduleRef = scanModules index name := by
  have named (documented : String) :
      (fold false documented == name.toList) = true ↔ documented = name := by
    rw [beq_iff_eq]
    exact String.toList_inj
  unfold scanModules
  cases found : (build source index order isAddress).modules.find? fun documented =>
      fold false documented == name.toList with
  | some documented =>
    have own := List.find?_some found
    obtain rfl := (named documented).mp own
    rw [if_pos ((mem_modules source index order documented).mp (List.mem_of_find?_eq_some found))]
    rfl
  | none =>
    rw [if_neg]
    · rfl
    · intro member
      have other := List.find?_eq_none.mp found name ((mem_modules source index order name).mpr member)
      exact other ((named name).mpr rfl)

/-- The names that end in a name are those of the candidates, in order. -/
theorem filter_declarations (name : String) :
    (build source index order isAddress).declarations.filter
      (fun (qualified, _) => endsWithName (fold false qualified) (fold false name)) =
    (candidates source index name).map fun entry => (source.qualifiedName entry.1, entry.1) := by
  rw [build_declarations, List.filter_map, List.filter_filter, candidates]
  congr 1
  refine List.filter_congr fun entry _ => ?_
  rw [Bool.eq_iff_iff, Bool.and_eq_true, decide_eq_true_iff, decide_eq_true_iff, Function.comp_apply,
    endsWithName_iff, and_comm]
  rfl

theorem fuzzy?_eq_scan {name : String} (written : name ≠ "") :
    (build source index order isAddress).fuzzy? false name scope = scanNearest source index name scope := by
  have nonempty : (fold false name).isEmpty = false := by
    simpa [fold] using written
  unfold fuzzy? scanNearest
  dsimp only
  rw [nonempty, if_neg Bool.false_ne_true, filter_declarations, nearest?_eq_argmin]
  cases (candidates source index name).argmin fun entry =>
      distance scope (source.qualifiedName entry.1) with
  | some => rfl
  | none => exact find?_modules name

/-- A raw target that is neither a carrier nor an address nor a file goes by its mark. -/
theorem resolve_eq_lookup {table : LinkTable} (plain : ¬ Carrier.scheme.toList <+: raw.toList)
    (noFile : table.headers.lookup raw = none) (noAddress : table.isAddress raw = false) :
    (table.resolve raw scope).1 = match raw.toList with
      | '*' :: name => table.fuzzy? false (String.ofList name) scope
      | '?' :: name => table.fuzzy? true (String.ofList name) scope
      | _ => table.named? raw := by
  rw [← List.isPrefixOf_iff_prefix] at plain
  unfold resolve
  rewrite [if_neg plain, noFile, noAddress]
  rfl

/-- A raw target that is neither a carrier nor an address nor a file is found by a scan of the index, as it
is or after a star. A mark alone is not found. -/
theorem resolve_scans (plain : ¬ Carrier.scheme.toList <+: raw.toList)
    (noFile : (build source index order isAddress).headers.lookup raw = none)
    (noAddress : isAddress raw = false) (scope : String) :
    let resolved := ((build source index order isAddress).resolve raw scope).1
    (raw.toList.head? ≠ some '*' → raw.toList.head? ≠ some '?' →
      resolved = scanNamed source index raw) ∧
    (∀ name, name ≠ "" → raw = "*" ++ name → resolved = scanNearest source index name scope) ∧
    (raw = "*" ∨ raw = "?" → resolved = none) := by
  dsimp only
  rw [resolve_eq_lookup plain noFile noAddress]
  refine ⟨fun noStar noQuestion => ?_, fun name written marked => ?_, fun bare => ?_⟩
  · rw [← named?_eq_scan]
    split
    · rename_i chars
      rw [chars] at noStar
      exact absurd rfl noStar
    · rename_i chars
      rw [chars] at noQuestion
      exact absurd rfl noQuestion
    · rfl
  · have chars : raw.toList = '*' :: name.toList := by
      rw [marked, String.toList_append]
      rfl
    rw [chars]
    simpa only [String.ofList_toList] using fuzzy?_eq_scan written
  · rcases bare with rfl | rfl <;> rfl

/-- Two functions of one name, one of them in a scope further in. -/
def nestedTree : SourceTree :=
  ({} : SourceTree).addFile "swap.hpp" |>.add 0 .namespace_ "ns1" |>.add 1 .function "swap"
    |>.add 1 .namespace_ "detail" |>.add 3 .function "swap"

theorem resolve_scans_nested :
    let index := (Normalize.addUncommentedEntities nestedTree {}).1
    ¬ Carrier.scheme.toList <+: "*swap".toList ∧
      (build nestedTree index).headers.lookup "*swap" = none ∧ isCompleteUri "*swap" = false ∧
      ((build nestedTree index).resolve "*swap" "ns1::detail::other").1 = some (.declarationRef 4) ∧
      ((build nestedTree index).resolve "*swap" "ns1::vector").1 = some (.declarationRef 2) := by
  intro index
  have plain : ¬ Carrier.scheme.toList <+: "*swap".toList := by decide
  have noFile : (build nestedTree index).headers.lookup "*swap" = none := by decide
  have noAddress : isCompleteUri "*swap" = false := by decide
  have resolved (scope : String) :=
    (resolve_scans plain noFile noAddress scope).2.1 "swap" (by decide) rfl
  refine ⟨plain, noFile, noAddress, ?_, ?_⟩
  · rw [resolved]
    decide
  · rw [resolved]
    decide

/-- The table with its modules in this order. -/
def withModules (table : LinkTable) (order : List String) : LinkTable :=
  { table with modules := order }

/-- A name after a question mark for which the order counts: the two together are no file and no address,
no declaration goes by the name up to case, and two modules do. -/
structure Contested (source : SourceTree) (index : Index) (isAddress : String → Bool) (name : String) :
    Prop where
  noFile : ∀ id ∈ files source index, source.name id ≠ "?" ++ name ∧
    ¬ IsBaseName (source.name id) ("?" ++ name)
  noAddress : isAddress ("?" ++ name) = false
  written : fold true name ≠ []
  undeclared : ∀ entry ∈ index.documented, source.kind entry.1 ≠ .file →
    ¬ EndsIn (fold true (source.qualifiedName entry.1)) (fold true name)
  rivals : ∃ one ∈ index.documentedModules, ∃ other ∈ index.documentedModules, one ≠ other ∧
    fold true one = fold true name ∧ fold true other = fold true name

/-- Where at most one element is asked for, the order makes no difference. -/
theorem find?_eq_of_perm {asked : α → Bool} {first second : List α} (same : first.Perm second)
    (unique : ∀ one ∈ first, ∀ other ∈ first, asked one = true → asked other = true → one = other) :
    first.find? asked = second.find? asked := by
  cases found : second.find? asked with
  | none =>
    rw [List.find?_eq_none] at found ⊢
    exact fun element member => found element (same.mem_iff.mp member)
  | some other =>
    have present := same.mem_iff.mpr (List.mem_of_find?_eq_some found)
    have asks := List.find?_some found
    cases own : first.find? asked with
    | none => exact absurd asks (List.find?_eq_none.mp own other present)
    | some one =>
      rw [unique one (List.mem_of_find?_eq_some own) other present (List.find?_some own) asks]

theorem named?_withModules {first second : List String} (same : first.Perm second) (name : String) :
    (table.withModules first).named? name = (table.withModules second).named? name := by
  have contained : first.contains name = second.contains name := by
    rw [Bool.eq_iff_iff, List.contains_iff_mem, List.contains_iff_mem, same.mem_iff]
  have looked (order : List String) : (table.withModules order).named? name =
      ((table.names.lookup name).map .declarationRef).or
        (if order.contains name then some (.moduleRef name) else none) := by
    unfold named? withModules
    dsimp only
    cases table.names.lookup name <;> rfl
  rw [looked, looked, contained]

/-- The declarations that go by a name, up to case if that is asked for. -/
def matching (table : LinkTable) (ignoreCase : Bool) (name : String) : List (String × DeclId) :=
  table.declarations.filter fun (qualified, _) =>
    endsWithName (fold ignoreCase qualified) (fold ignoreCase name)

theorem nearest?_eq_none {candidates : List (String × DeclId)} :
    nearest? scope candidates = none ↔ candidates = [] := by
  have nearest := nearest?_eq_argmin Prod.fst Prod.snd scope candidates
  simp only [Prod.mk.eta, List.map_id_fun', id_eq, Option.map_id_fun'] at nearest
  rw [nearest, List.argmin_eq_none]

/-- Where a declaration goes by the name, no module is asked for. -/
theorem fuzzy?_declared (order : List String) {ignoreCase : Bool}
    (declared : table.matching ignoreCase name ≠ []) :
    (table.withModules order).fuzzy? ignoreCase name scope = table.fuzzy? ignoreCase name scope := by
  have present : nearest? scope (table.matching ignoreCase name) ≠ none := mt nearest?_eq_none.mp declared
  obtain ⟨entry, found⟩ := Option.ne_none_iff_exists'.mp present
  unfold matching at found
  simp only [fuzzy?, withModules, found]

/-- Where none does, the first module of the name counts. -/
theorem fuzzy?_undeclared (order : List String) {ignoreCase : Bool}
    (written : fold ignoreCase name ≠ []) (undeclared : table.matching ignoreCase name = []) :
    (table.withModules order).fuzzy? ignoreCase name scope =
      (order.find? fun documented => fold ignoreCase documented == fold ignoreCase name).map
        .moduleRef := by
  have missing : nearest? scope (table.matching ignoreCase name) = none := nearest?_eq_none.mpr undeclared
  have nonempty : (fold ignoreCase name).isEmpty = false := by simpa using written
  unfold matching at missing
  simp only [fuzzy?, withModules, missing, nonempty, Bool.false_eq_true, if_false]

/-- The order counts only for a name that several modules go by. -/
theorem fuzzy?_withModules {first second : List String} (same : first.Perm second) {ignoreCase : Bool}
    (unrivalled : fold ignoreCase name ≠ [] → table.matching ignoreCase name = [] →
      ∀ one ∈ first, ∀ other ∈ first, fold ignoreCase one = fold ignoreCase name →
        fold ignoreCase other = fold ignoreCase name → one = other) :
    (table.withModules first).fuzzy? ignoreCase name scope =
      (table.withModules second).fuzzy? ignoreCase name scope := by
  by_cases written : fold ignoreCase name = []
  · simp only [fuzzy?, written, List.isEmpty_nil, if_true]
  by_cases undeclared : table.matching ignoreCase name = []
  · rw [fuzzy?_undeclared first written undeclared, fuzzy?_undeclared second written undeclared]
    congr 1
    refine find?_eq_of_perm same fun one here other there asked also => ?_
    exact unrivalled written undeclared one here other there (beq_iff_eq.mp asked) (beq_iff_eq.mp also)
  · rw [fuzzy?_declared first undeclared, fuzzy?_declared second undeclared]

/-- Whether any module goes by a name does not depend on the order. -/
theorem fuzzy?_withModules_eq_none {first second : List String} (same : first.Perm second)
    {ignoreCase : Bool} : (table.withModules first).fuzzy? ignoreCase name scope = none ↔
      (table.withModules second).fuzzy? ignoreCase name scope = none := by
  by_cases written : fold ignoreCase name = []
  · simp only [fuzzy?, written, List.isEmpty_nil, if_true]
  by_cases undeclared : table.matching ignoreCase name = []
  · rw [fuzzy?_undeclared first written undeclared, fuzzy?_undeclared second written undeclared]
    simp only [Option.map_eq_none_iff, List.find?_eq_none, same.mem_iff]
  · rw [fuzzy?_declared first undeclared, fuzzy?_declared second undeclared]

@[simp]
theorem withModules_headers (order : List String) : (table.withModules order).headers = table.headers :=
  rfl

@[simp]
theorem withModules_isAddress (order : List String) :
    (table.withModules order).isAddress = table.isAddress :=
  rfl

/-- Whether a raw target is found does not depend on the order. -/
theorem resolve_withModules_eq_none {first second : List String} (same : first.Perm second) :
    ((table.withModules first).resolve raw scope).1 = none ↔
      ((table.withModules second).resolve raw scope).1 = none := by
  have named : (table.withModules first).named? raw = _ := named?_withModules same raw
  unfold resolve
  split
  · rfl
  · rw [withModules_headers, withModules_headers, withModules_isAddress, withModules_isAddress]
    cases table.headers.lookup raw with
    | some id => rfl
    | none =>
      dsimp only
      split
      · rfl
      · split
        · exact fuzzy?_withModules_eq_none same
        · exact fuzzy?_withModules_eq_none same
        · rw [named]

/-- What is no carrier, no file and no address is all that the order can count for. -/
theorem resolve_withModules {first second : List String} (same : first.Perm second)
    (unrivalled : ∀ name, raw.toList = '?' :: name → table.headers.lookup raw = none →
      table.isAddress raw = false → (table.withModules first).fuzzy? true (String.ofList name) scope =
        (table.withModules second).fuzzy? true (String.ofList name) scope) :
    (table.withModules first).resolve raw scope = (table.withModules second).resolve raw scope := by
  have starred (name : String) : (table.withModules first).fuzzy? false name scope =
      (table.withModules second).fuzzy? false name scope := by
    refine fuzzy?_withModules same fun _ _ one _ other _ named also => ?_
    exact String.toList_inj.mp (named.trans also.symm)
  have named : (table.withModules first).named? raw = _ := named?_withModules same raw
  unfold resolve
  split
  · rfl
  · rw [withModules_headers, withModules_headers, withModules_isAddress, withModules_isAddress]
    cases header : table.headers.lookup raw with
    | some id => rfl
    | none =>
      dsimp only
      split
      · rfl
      · rename_i _ noAddress
        split
        · rw [starred]
        · rename_i name written
          rw [unrivalled name written header (by simpa using noAddress)]
        · rw [named]

theorem matching_eq_nil : (build source index order isAddress).matching ignoreCase name = [] ↔
    ∀ entry ∈ index.documented, source.kind entry.1 ≠ .file →
      ¬ EndsIn (fold ignoreCase (source.qualifiedName entry.1)) (fold ignoreCase name) := by
  simp only [matching, build_declarations, List.filter_eq_nil_iff, List.forall_mem_map, List.mem_filter,
    decide_eq_true_eq, endsWithName_iff, and_imp]

theorem lookup_headers_eq_none : (build source index order isAddress).headers.lookup raw = none ↔
    ∀ id ∈ files source index, source.name id ≠ raw ∧ ¬ IsBaseName (source.name id) raw := by
  simp only [lookup_headers, List.find?_eq_none, decide_eq_true_eq, not_or, baseName?_eq_some_iff, ne_eq]

/-- The order counts for the modules only. -/
theorem build_eq_withModules (source : SourceTree) (index : Index) (order : SetOrder)
    (isAddress : String → Bool) : build source index order isAddress =
      (build source index .arrival isAddress).withModules
        (order.arrange (build source index .arrival isAddress).modules) :=
  rfl

/-- What is found in one order is found in every other, though it may be another target. -/
theorem resolve_eq_none_iff (first second : SetOrder) :
    ((build source index first isAddress).resolve raw scope).1 = none ↔
      ((build source index second isAddress).resolve raw scope).1 = none := by
  rw [build_eq_withModules source index first isAddress,
      build_eq_withModules source index second isAddress]
  exact resolve_withModules_eq_none ((first.perm _).trans (second.perm _).symm)

/-- Each of the rivals is the target if it comes first. -/
theorem resolve_contested (contested : Contested source index isAddress name) {module : String}
    (member : module ∈ index.documentedModules) (goes : fold true module = fold true name)
    (scope : String) : (build source index (.leading module) isAddress).resolve ("?" ++ name) scope =
      (some (.moduleRef module), []) := by
  have present : module ∈ (build source index .arrival isAddress).modules :=
    (mem_modules source index .arrival module).mpr member
  have chars : ("?" ++ name).toList = '?' :: name.toList := by
    rw [String.toList_append]
    rfl
  have plain : Carrier.scheme.toList.isPrefixOf ('?' :: name.toList) = false := rfl
  have header : (build source index (.leading module) isAddress).headers.lookup ("?" ++ name) = none :=
    lookup_headers_eq_none.mpr contested.noFile
  have undeclared : (build source index .arrival isAddress).matching true name = [] :=
    matching_eq_nil.mpr contested.undeclared
  have first : (build source index (.leading module) isAddress).fuzzy? true name scope =
      some (.moduleRef module) := by
    rw [build_eq_withModules, fuzzy?_undeclared _ contested.written undeclared,
      SetOrder.leading_arrange present, List.find?_cons_of_pos (by simp [goes]), Option.map_some]
  have noAddress : (build source index (.leading module) isAddress).isAddress ("?" ++ name) = false :=
    contested.noAddress
  simp only [resolve, plain, header, noAddress, chars, String.ofList_toList, first,
    Bool.false_eq_true, if_false]

/-- A raw target resolves alike in whatever order the set of modules is gone through, unless it is a
contested name. -/
theorem resolve_order_free_iff (source : SourceTree) (index : Index) (raw scope : String) :
    (∀ first second : SetOrder,
        (build source index first isAddress).resolve raw scope =
          (build source index second isAddress).resolve raw scope) ↔
      ¬ ∃ name, raw = "?" ++ name ∧ Contested source index isAddress name := by
  constructor
  · rintro free ⟨name, rfl, contested⟩
    obtain ⟨one, here, other, there, differ, goes, also⟩ := contested.rivals
    have same := free (.leading one) (.leading other)
    rw [resolve_contested contested here goes, resolve_contested contested there also] at same
    cases same
    exact differ rfl
  · intro uncontested first second
    have ordered := (first.perm (build source index .arrival isAddress).modules).trans (second.perm _).symm
    rw [build_eq_withModules source index first isAddress,
      build_eq_withModules source index second isAddress]
    refine resolve_withModules ordered fun name written header noAddress => ?_
    have marked : raw = "?" ++ String.ofList name := by
      rw [← String.toList_inj, String.toList_append, String.toList_ofList, String.toList_ofList, written]
      rfl
    subst marked
    refine fuzzy?_withModules ordered fun written undeclared => ?_
    intro one here other there goes also
    by_contra differ
    have documented {module : String}
        (member : module ∈ first.arrange (build source index .arrival isAddress).modules) :
        module ∈ index.documentedModules :=
      (mem_modules source index .arrival module).mp ((first.perm _).mem_iff.mp member)
    exact uncontested ⟨_, rfl, {
      noFile := lookup_headers_eq_none.mp header
      noAddress := noAddress
      written := written
      undeclared := matching_eq_nil.mp undeclared
      rivals := ⟨one, documented here, other, documented there, differ, goes, also⟩ }⟩

/-- Two modules, with names that differ in case only. -/
def rivalIndex : Index :=
  { entities := [.node (.moduleDoc "IO" "" {}) [], .node (.moduleDoc "Io" "" {}) []] }

/-- Each order of the set gives another target. -/
theorem order_decides_contested :
    (build {} rivalIndex .arrival).resolve "?io" "" = (some (.moduleRef "IO"), []) ∧
      (build {} rivalIndex (.leading "Io")).resolve "?io" "" = (some (.moduleRef "Io"), []) := by
  decide

end LinkTable

end DocComment
