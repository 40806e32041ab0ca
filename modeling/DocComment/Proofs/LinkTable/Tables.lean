import DocComment.LinkTable
import DocComment.Normalize
import Mathlib.Data.List.Induction
import Mathlib.Data.List.MinMax
import Mathlib.Data.Prod.Lex
import Mathlib.Order.OrderDual

/-! The tables of names as scans of the index. A name leads to the first documented declaration, in preorder,
that goes by it, and the nearest candidate is the least one for an order of distances. -/
namespace DocComment

namespace Index

/-- The declarations that are documented anywhere in an index, with their metadata, in preorder. -/
def documented (index : Index) : List (DeclId × Fields) :=
  (Entity.preorderAll index.entities).filterMap fun entity => match entity with
    | .node (.declaration id _ fields) _ => some (id, fields)
    | _ => none

/-- The modules that are documented anywhere in an index. -/
def documentedModules (index : Index) : List String :=
  (Entity.preorderAll index.entities).filterMap fun entity => match entity with
    | .node (.moduleDoc name ..) _ => some name
    | _ => none

end Index

namespace LinkTable

variable {source : SourceTree} {index : Index} {order : SetOrder} {isAddress : String → Bool}

/-- Where elements are entered by the keys that they have, a key leads to the first element with it. -/
theorem lookup_entries (key? : α → Option String) (value : α → β) (elements : List α) (name : String) :
    (elements.filterMap fun element => (key? element).map fun key => (key, value element)).lookup name =
      (elements.find? fun element => key? element = some name).map value := by
  induction elements with
  | nil => rfl
  | cons element rest ih =>
    cases own : key? element with
    | none => simp [own, ih]
    | some key =>
      by_cases same : key = name
      · simp [own, same]
      · have differ : (name == key) = false := by simpa using Ne.symm same
        simp [own, same, List.lookup_cons, differ, ih]

theorem declarations_documented (index : Index) :
    (Entity.preorderAll index.entities).filterMap Entity.declaration? = index.documented.map Prod.fst := by
  rw [Index.documented, List.map_filterMap]
  refine List.filterMap_congr fun entity _ => ?_
  cases entity with
  | leaf => rfl
  | node tag _ => cases tag <;> rfl

theorem uniqueNames_documented (index : Index) :
    uniqueNames (Entity.preorderAll index.entities) =
      index.documented.filterMap fun entry => entry.2.uniqueName.map fun name => (name, entry.1) := by
  rw [Index.documented, List.filterMap_filterMap]
  refine List.filterMap_congr fun entity _ => ?_
  cases entity with
  | leaf => rfl
  | node tag _ => cases tag <;> rfl

/-- Files are left out of the qualified names. -/
theorem build_declarations (source : SourceTree) (index : Index) :
    (build source index order isAddress).declarations =
      (index.documented.filter fun entry => source.kind entry.1 ≠ .file).map fun entry =>
        (source.qualifiedName entry.1, entry.1) := by
  have ids : (build source index order isAddress).declarations =
      (((Entity.preorderAll index.entities).filterMap Entity.declaration?).filter
        fun id => source.kind id != .file).map fun id => (source.qualifiedName id, id) := rfl
  rw [ids, declarations_documented, List.filter_map, List.map_map]
  congr 1
  refine List.filter_congr fun entry _ => ?_
  simp [bne, BEq.beq]

/-- Unique names come before all qualified names. -/
theorem lookup_names (source : SourceTree) (index : Index) (name : String) :
    (build source index order isAddress).names.lookup name =
      ((index.documented.find? fun entry => entry.2.uniqueName = some name).or
        (index.documented.find? fun entry =>
          source.kind entry.1 ≠ .file ∧ source.qualifiedName entry.1 = name)).map Prod.fst := by
  have names : (build source index order isAddress).names =
      uniqueNames (Entity.preorderAll index.entities) ++ (build source index order isAddress).declarations := rfl
  have qualified (entries : List (DeclId × Fields)) :
      (entries.map fun entry => (source.qualifiedName entry.1, entry.1)).lookup name =
        (entries.find? fun entry => source.qualifiedName entry.1 = name).map Prod.fst := by
    simpa using lookup_entries (fun entry => some (source.qualifiedName entry.1)) Prod.fst entries name
  have unique := lookup_entries (fun entry => entry.2.uniqueName) Prod.fst index.documented name
  rw [names, uniqueNames_documented, build_declarations, List.lookup_append, unique, qualified,
    List.find?_filter, Option.map_or]
  simp only [Bool.decide_and, Bool.decide_eq_true]

theorem mem_modules (source : SourceTree) (index : Index) (order : SetOrder) (name : String) :
    name ∈ (build source index order isAddress).modules ↔ name ∈ index.documentedModules := by
  unfold build
  dsimp only
  rw [(order.perm _).mem_iff, List.mem_eraseDups]
  rfl

/-- The name is the whole of the qualified name, or all that comes after some separator in it. -/
def EndsIn (qualified name : List Char) : Prop :=
  qualified = name ∨ "::".toList ++ name <:+ qualified

instance (qualified name : List Char) : Decidable (EndsIn qualified name) :=
  inferInstanceAs (Decidable (_ ∨ _))

theorem endsWithName_iff {qualified name : List Char} :
    endsWithName qualified name = true ↔ EndsIn qualified name := by
  have reversed : name.reverse ++ [':', ':'] = ("::".toList ++ name).reverse := by simp
  rw [endsWithName, Bool.or_eq_true, beq_iff_eq, List.isPrefixOf_iff_prefix, reversed, List.reverse_prefix,
    EndsIn]

/-- Two lists agree up to a place exactly if they have a beginning of that length in common. -/
theorem le_length_agreeing [BEq α] [LawfulBEq α] {count : Nat} {left right : List α} :
    count ≤ ((left.zip right).takeWhile fun (a, b) => a == b).length ↔
      ∃ shared, shared.length = count ∧ shared <+: left ∧ shared <+: right := by
  induction left generalizing count right with
  | nil => simp [List.prefix_nil, eq_comm]
  | cons first left ih =>
    cases right with
    | nil => simp [List.prefix_nil, eq_comm]
    | cons other right =>
      cases count with
      | zero => simp
      | succ count =>
        by_cases same : first = other
        · subst other
          simp only [List.zip_cons_cons, List.takeWhile_cons, beq_self_eq_true, if_true, List.length_cons,
            Nat.add_le_add_iff_right, ih]
          constructor
          · rintro ⟨shared, rfl, here, there⟩
            exact ⟨first :: shared, rfl, List.cons_prefix_cons.mpr ⟨rfl, here⟩,
              List.cons_prefix_cons.mpr ⟨rfl, there⟩⟩
          · rintro ⟨_ | ⟨start, shared⟩, length, here, there⟩
            · cases length
            · exact ⟨shared, Nat.succ.inj length, (List.cons_prefix_cons.mp here).2,
                (List.cons_prefix_cons.mp there).2⟩
        · simp only [List.zip_cons_cons, List.takeWhile_cons, beq_eq_false_iff_ne.mpr same]
          refine iff_of_false (by simp) ?_
          rintro ⟨_ | ⟨start, shared⟩, length, here, there⟩
          · cases length
          · exact same ((List.cons_prefix_cons.mp here).1.symm.trans (List.cons_prefix_cons.mp there).1)

/-- Names share as many components as the longest beginning has that they have in common. -/
theorem le_sharedScope_iff {count : Nat} {left right : String} : count ≤ sharedScope left right ↔
    ∃ shared, shared.length = count ∧ shared <+: scopeComponents left.toList ∧
      shared <+: scopeComponents right.toList :=
  le_length_agreeing

/-- How far a qualified name is from a scope: the nearer the more leading components it shares with the
scope, and among those that share as many the shorter in bytes. -/
def distance (scope name : String) : ℕᵒᵈ ×ₗ ℕ :=
  toLex (OrderDual.toDual (sharedScope name scope), name.utf8ByteSize)

theorem byteLength_toList (text : String) : Text.byteLength text.toList = text.utf8ByteSize := by
  have counted (chars : List Char) : Text.byteLength chars = (String.ofList chars).utf8ByteSize := by
    induction chars using List.reverseRecOn with
    | nil => rfl
    | append_singleton rest c ih =>
      have grown : String.ofList (rest ++ [c]) = (String.ofList rest).push c := by
        rw [← String.toList_inj]
        simp
      rw [grown, String.utf8ByteSize_push, ← ih, Text.byteLength, List.foldl_append]
      rfl
  rw [counted, String.ofList_toList]

theorem nearer_iff {scope candidate best : String} :
    nearer scope candidate best = true ↔ distance scope candidate < distance scope best := by
  simp only [nearer, distance, Prod.Lex.toLex_lt_toLex, OrderDual.toDual_lt_toDual, OrderDual.toDual_inj,
    Bool.or_eq_true, Bool.and_eq_true, decide_eq_true_eq, beq_iff_eq, byteLength_toList,
    @eq_comm _ (sharedScope best scope)]

/-- One fold after the other: what is kept as the nearer so far is what is kept as the lesser so far. -/
theorem foldl_nearer_eq_foldl_argAux (name : α → String) (id : α → DeclId) (scope : String)
    (entries : List α) (best : Option α) :
    (entries.map fun entry => (name entry, id entry)).foldl (fun best candidate =>
      match best with
      | none => some candidate
      | some present => if nearer scope candidate.1 present.1 then some candidate else best)
      (best.map fun entry => (name entry, id entry)) =
    (entries.foldl (List.argAux fun entry present =>
      distance scope (name entry) < distance scope (name present)) best).map
        fun entry => (name entry, id entry) := by
  induction entries generalizing best with
  | nil => rfl
  | cons entry rest ih =>
    rw [List.map_cons, List.foldl_cons, List.foldl_cons, ← ih]
    cases best with
    | none => rfl
    | some present =>
      simp only [Option.map_some, nearer_iff, List.argAux]
      split <;> rfl

/-- The nearest candidate is the first of the least ones. -/
theorem nearest?_eq_argmin (name : α → String) (id : α → DeclId) (scope : String) (entries : List α) :
    nearest? scope (entries.map fun entry => (name entry, id entry)) =
      (entries.argmin fun entry => distance scope (name entry)).map fun entry => (name entry, id entry) :=
  foldl_nearer_eq_foldl_argAux name id scope entries none

end LinkTable

end DocComment
