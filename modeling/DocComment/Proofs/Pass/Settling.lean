import DocComment.Proofs.Json.Extent
import DocComment.Proofs.Pass.Links
import DocComment.Proofs.Pass.Stability
import Mathlib.Logic.Function.Iterate

/-! Resolving the links of an entity again. Whatever is found for a raw target is final, but for another raw
target that a carrier holds. That one is shorter, so that resolving again and again comes to an end. -/
namespace DocComment

namespace Carrier

open Text (byteLength)

theorem target?_unresolved {kind : String} {value : Json} {inner : String}
    (read : target? kind value = some (.unresolved inner)) : value = .string inner := by
  unfold target? at read
  split at read
  · cases read
    rfl
  · cases read
  · cases read
  · split at read <;> cases read
  · obtain ⟨_, _, same⟩ := Option.map_eq_some_iff.mp read
    cases same
  · cases read

theorem member?_mem {name : String} {members : List (String × Json)} {value : Json}
    (found : member? name members = some value) : (name, value) ∈ members := by
  unfold member? at found
  split at found
  · rename_i own only
    cases found
    have among := List.mem_filter.mp (only ▸ List.mem_singleton_self _)
    rw [← beq_iff_eq.mp among.2]
    exact among.1
  · cases found

theorem ofJson?_within {json : Json} {inner : String} {room : Nat}
    (read : ofJson? json = some (.unresolved inner)) (within : json.Within room) :
    byteLength inner.toList ≤ room := by
  have own (value : Json) (same : value = .string inner) (fits : value.Within room) :
      byteLength inner.toList ≤ room := by
    subst same
    cases fits
    assumption
  unfold ofJson? at read
  split at read
  · cases within with
    | object each =>
      obtain ⟨kind, _, read⟩ := Option.bind_eq_some_iff.mp read
      obtain ⟨value, found, read⟩ := Option.bind_eq_some_iff.mp read
      exact own value (target?_unresolved read) (each _ (member?_mem found))
  · cases within with
    | array each => exact own _ (target?_unresolved read) (each _ (by simp))
  · cases read

/-- A raw target is shorter than an address that carries it. -/
theorem decode?_shorter {raw inner : String} (decoded : decode? raw = some (.unresolved inner)) :
    byteLength inner.toList < byteLength raw.toList := by
  obtain ⟨payload, stripped, decoded⟩ := Option.bind_eq_some_iff.mp decoded
  obtain ⟨text, read, decoded⟩ := Option.bind_eq_some_iff.mp decoded
  obtain ⟨json, value, decoded⟩ := Option.bind_eq_some_iff.mp decoded
  calc byteLength inner.toList
    _ ≤ byteLength text.toList := ofJson?_within decoded (Json.read?_within value)
    _ = (Text.percentDecode (Text.utf8Bytes (String.ofList payload))).length := by
      rw [← Text.length_utf8Bytes, String.ofList_toList, Text.utf8Bytes_of_ofUtf8? read]
    _ ≤ (Text.utf8Bytes (String.ofList payload)).length := Text.length_percentDecode_le _
    _ = byteLength payload := Text.length_utf8Bytes payload
    _ < byteLength scheme.toList + byteLength payload := Nat.lt_add_of_pos_left (by decide)
    _ = byteLength raw.toList := by
      rw [Text.stripStart_eq_some stripped, Text.byteLength_append]

end Carrier

namespace LinkTable

variable {table : LinkTable} {raw inner scope : String}

theorem resolve_unresolved_iff :
    (table.resolve raw scope).1 = some (.unresolved inner) ↔
      Carrier.decode? raw = some (.unresolved inner) := by
  refine ⟨resolve_unresolved, fun decoded => ?_⟩
  obtain ⟨payload, stripped, _⟩ := Option.bind_eq_some_iff.mp decoded
  have carrier : Carrier.scheme.toList.isPrefixOf raw.toList = true := by
    rw [List.isPrefixOf_iff_prefix, Text.stripStart_eq_some stripped]
    exact List.prefix_append _ _
  rw [resolve, if_pos carrier, carried, decoded]

/-- No raw target is found for itself. -/
theorem resolve_ne_self : (table.resolve raw scope).1 ≠ some (.unresolved raw) := fun found =>
  Nat.lt_irrefl _ (Carrier.decode?_shorter (resolve_unresolved found))

end LinkTable

namespace Targets

variable {resolve : String → Option LinkTarget} {source : SourceTree} {table : LinkTable} {entity : Entity}

theorem mapUnresolved_eq_self_iff (moves : ∀ raw, resolve raw ≠ some (.unresolved raw)) :
    mapUnresolved resolve entity = entity ↔ ∀ raw ∈ unresolved entity, resolve raw = none := by
  refine ⟨fun same raw member => ?_, mapUnresolved_eq_self⟩
  have links : (mapUnresolved resolve entity).links = _ := mapUnresolved_links entity
  rw [same] at links
  obtain ⟨link, among, target⟩ := mem_unresolved.mp member
  have kept := List.map_eq_map_iff.mp (links.symm.trans (List.map_id _).symm) link among
  have settled : settle resolve link.target = link.target := congrArg Entity.Link.target kept
  rw [target, settle] at settled
  cases found : resolve raw with
  | none => rfl
  | some other =>
    rw [found, Option.getD_some] at settled
    exact absurd (found.trans (congrArg some settled)) (moves raw)

theorem mem_unresolved_mapUnresolved {raw inner : String} (member : raw ∈ unresolved entity)
    (found : resolve raw = some (.unresolved inner)) : inner ∈ unresolved (mapUnresolved resolve entity) := by
  obtain ⟨link, among, target⟩ := mem_unresolved.mp member
  refine mem_unresolved.mpr ⟨{ link with target := settle resolve link.target }, ?_, ?_⟩
  · rw [mapUnresolved_links]
    exact List.mem_map_of_mem among
  · rw [target, settle, found, Option.getD_some]

theorem applyInternal_scope (source : SourceTree) (table : LinkTable) (entity : Entity) :
    entityScope source (applyInternal source table entity).entity = entityScope source entity :=
  entityScope_congr (mapUnresolved_outline _ entity)

theorem applyInternal_eq_self_iff : (applyInternal source table entity).entity = entity ↔
    ∀ raw ∈ unresolved entity, (table.resolve raw (entityScope source entity)).1 = none :=
  mapUnresolved_eq_self_iff fun _ => LinkTable.resolve_ne_self

/-- A second application changes nothing exactly if, from the scope of the entity, nothing is found for any
raw target that a raw target of the entity is a carrier of. -/
theorem applyInternal_twice_iff (source : SourceTree) (table : LinkTable) (entity : Entity) :
    (applyInternal source table (applyInternal source table entity).entity).entity =
        (applyInternal source table entity).entity ↔
      ∀ raw ∈ unresolved entity, ∀ inner, Carrier.decode? raw = some (.unresolved inner) →
        (table.resolve inner (entityScope source entity)).1 = none := by
  rw [applyInternal_eq_self_iff, applyInternal_scope]
  constructor
  · intro settled raw member inner decoded
    exact settled inner (mem_unresolved_mapUnresolved member (LinkTable.resolve_unresolved_iff.mpr decoded))
  · intro final inner member
    obtain ⟨raw, among, ⟨missing, rfl⟩ | found⟩ := unresolved_mapUnresolved member
    · exact missing
    · exact final raw among inner (LinkTable.resolve_unresolved found)

/-- A raw target in a carrier. -/
def carriedEntity : Entity :=
  .node (.moduleDoc "io" "" {})
    [.node .paragraph [.node (.link (.unresolved
      "commentary-link:%7B%22kind%22%3A%22unresolved%22%2C%22value%22%3A%22io%22%7D") "") []]]

/-- The first application unpacks the carrier, and only the second one finds the module in it. -/
theorem second_application_resolves :
    (applyInternal {} { modules := ["io"] } carriedEntity).entity ≠ carriedEntity ∧
      (applyInternal {} { modules := ["io"] }
        (applyInternal {} { modules := ["io"] } carriedEntity).entity).entity ≠
        (applyInternal {} { modules := ["io"] } carriedEntity).entity := by
  decide +kernel

/-- Resolving comes to an end after no more applications than the longest raw target has bytes. -/
theorem applyInternal_settles {room : Nat}
    (fits : ∀ raw ∈ unresolved entity, Text.byteLength raw.toList < room ∨
      (table.resolve raw (entityScope source entity)).1 = none) :
    let apply := fun entity => (applyInternal source table entity).entity
    apply (apply^[room] entity) = apply^[room] entity := by
  intro apply
  induction room generalizing entity with
  | zero => exact applyInternal_eq_self_iff.mpr fun raw member => (fits raw member).resolve_left (by simp)
  | succ room ih =>
    refine ih fun inner member => ?_
    rw [applyInternal_scope]
    obtain ⟨raw, among, ⟨missing, rfl⟩ | found⟩ := unresolved_mapUnresolved member
    · exact .inr missing
    · rcases fits raw among with short | missing
      · have shorter := Carrier.decode?_shorter (LinkTable.resolve_unresolved found)
        exact .inl (by omega)
      · rw [missing] at found
        cases found

end Targets

end DocComment
