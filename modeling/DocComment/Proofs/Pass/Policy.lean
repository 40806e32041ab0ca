import DocComment.Proofs.Pass.Exclusion
import DocComment.Proofs.Source.Tree

/-! The policy of exclusion, and what exclusion makes of an entity by it: a top-level entity is marked, and
of all other entities exactly the documentation that the policy excludes is taken out. -/
namespace DocComment.Exclusion

/-- A pattern occurs in the name. -/
def Matches (options : ExclusionOptions) (name : String) : Prop :=
  ∃ pattern ∈ options.patterns, pattern.occursIn name.toList = true

/-- Declarations that are private, if those are to be excluded, or whose qualified names match, and
all declarations inside of such. A file ends the scopes and is not one of them. -/
inductive Hidden (source : SourceTree) (options : ExclusionOptions) (id : DeclId) : Prop where
  | private_ {scope : DeclId} (asked : options.excludePrivate = true)
      (around : source.Encloses scope id) (access : source.access scope = .private_)
  | named {scope : DeclId} (around : source.Encloses scope id)
      (matched : Matches options (source.qualifiedName scope))

/-- Documentation that is excluded. -/
inductive Excluded (source : SourceTree) (options : ExclusionOptions) : Entity → Prop where
  | marked {entity : Entity} {fields : Fields} (metadata : entity.fields? = some fields)
      (mode : fields.excludeMode = .exclude) : Excluded source options entity
  | uncommented {entity : Entity} {fields : Fields} (asked : options.excludeUncommented = true)
      (metadata : entity.fields? = some fields) (mode : fields.excludeMode = .uncommented) :
      Excluded source options entity
  | moduleDoc {name anchor : String} {fields : Fields} {children : List Entity}
      (matched : Matches options name) :
      Excluded source options (.node (.moduleDoc name anchor fields) children)
  | declaration {id : DeclId} {anchor : String} {fields : Fields} {children : List Entity}
      (hidden : Hidden source options id) :
      Excluded source options (.node (.declaration id anchor fields) children)

variable {source : SourceTree} {options : ExclusionOptions}

theorem Hidden.inner {outer id : DeclId} (hidden : Hidden source options outer)
    (around : source.Encloses outer id) : Hidden source options id := by
  cases hidden with
  | private_ asked outermost access => exact .private_ asked (outermost.trans around) access
  | named outermost matched => exact .named (outermost.trans around) matched

theorem matchesName_iff {name : String} : matchesName options name = true ↔ Matches options name :=
  List.any_eq_true

theorem excludesDeclaration_iff {id : DeclId} :
    excludesDeclaration source options id = true ↔ Hidden source options id := by
  simp only [excludesDeclaration, List.any_eq_true, SourceTree.mem_scopes_iff, Bool.or_eq_true,
    Bool.and_eq_true, beq_iff_eq, matchesName_iff]
  constructor
  · rintro ⟨scope, around, ⟨asked, access⟩ | matched⟩
    · exact .private_ asked around access
    · exact .named around matched
  · intro hidden
    cases hidden with
    | private_ asked around access => exact ⟨_, around, .inl ⟨asked, access⟩⟩
    | named around matched => exact ⟨_, around, .inr matched⟩

theorem excludesByMode_iff {mode : ExcludeMode} : excludesByMode options mode = true ↔
    mode = .exclude ∨ options.excludeUncommented = true ∧ mode = .uncommented := by
  cases mode <;> simp [excludesByMode]

theorem excludes_iff {entity : Entity} :
    excludes source options entity = true ↔ Excluded source options entity := by
  constructor
  · intro excluded
    unfold excludes at excluded
    split at excluded
    · cases excluded
    · rename_i fields metadata
      rcases Bool.or_eq_true_iff.mp excluded with byMode | byName
      · rcases excludesByMode_iff.mp byMode with mode | ⟨asked, mode⟩
        · exact .marked metadata mode
        · exact .uncommented asked metadata mode
      · split at byName
        · exact .declaration (excludesDeclaration_iff.mp byName)
        · exact .moduleDoc (matchesName_iff.mp byName)
        · cases byName
  · intro excluded
    cases excluded with
    | marked metadata mode => simp [excludes, metadata, excludesByMode, mode]
    | uncommented asked metadata mode => simp [excludes, metadata, excludesByMode, mode, asked]
    | moduleDoc matched => simp [excludes, Entity.fields?, matchesName_iff.mpr matched]
    | declaration hidden => simp [excludes, Entity.fields?, excludesDeclaration_iff.mpr hidden]

/-- Only documentation is excluded. -/
theorem Excluded.isDocumentation {entity : Entity} (excluded : Excluded source options entity) :
    entity.isDocumentation = true := by
  cases excluded with
  | marked metadata | uncommented _ metadata => simp [Entity.isDocumentation, metadata]
  | moduleDoc | declaration => rfl

/-- Entities of which those that are gone are taken out, at any depth, with all that is in them. All
others stay as they are, in order. -/
inductive Without (gone : Entity → Prop) : List Entity → List Entity → Prop where
  | nil : Without gone [] []
  | out {entity : Entity} {rest kept : List Entity} (leaves : gone entity)
      (later : Without gone rest kept) : Without gone (entity :: rest) kept
  | leaf {content : Leaf} {rest kept : List Entity} (stays : ¬ gone (.leaf content))
      (later : Without gone rest kept) : Without gone (.leaf content :: rest) (.leaf content :: kept)
  | node {tag : Tag} {children inner rest kept : List Entity} (stays : ¬ gone (.node tag children))
      (below : Without gone children inner) (later : Without gone rest kept) :
      Without gone (.node tag children :: rest) (.node tag inner :: kept)

theorem Without.unique {gone : Entity → Prop} {entities kept kept' : List Entity}
    (one : Without gone entities kept) (other : Without gone entities kept') : kept' = kept := by
  induction one generalizing kept' with
  | nil =>
    cases other
    rfl
  | out leaves _ ih =>
    cases other with
    | out _ later => exact ih later
    | leaf stays | node stays => exact absurd leaves stays
  | leaf stays _ ih =>
    cases other with
    | out leaves => exact absurd leaves stays
    | leaf _ later => rw [ih later]
  | node stays _ _ below later =>
    cases other with
    | out leaves => exact absurd leaves stays
    | node _ inner rest => rw [below inner, later rest]

/-- What is left of entities, from what is left of each. -/
theorem pruneAll_without_of {entities : List Entity}
    (each : ∀ entity ∈ entities, ¬ Excluded source options entity → ∀ rest kept,
      Without (Excluded source options) rest kept →
        Without (Excluded source options) (entity :: rest) (prune source options entity :: kept)) :
    Without (Excluded source options) entities (pruneAll source options entities) := by
  induction entities with
  | nil => exact .nil
  | cons entity rest ih =>
    have later := ih fun other member => each other (List.mem_cons_of_mem _ member)
    unfold pruneAll
    split
    · rename_i excluded
      exact .out (excludes_iff.mp excluded) later
    · rename_i included
      exact each entity List.mem_cons_self (mt excludes_iff.mpr included) _ _ later

theorem prune_without (entity : Entity) (stays : ¬ Excluded source options entity)
    (rest kept : List Entity) (later : Without (Excluded source options) rest kept) :
    Without (Excluded source options) (entity :: rest) (prune source options entity :: kept) := by
  induction entity using Entity.treeInduction generalizing rest kept with
  | leaf => exact .leaf stays later
  | node tag children ih =>
    exact .node stays (pruneAll_without_of fun child member included rest kept =>
      ih child member included rest kept) later

/-- What is left of children is all that the relation allows. -/
theorem without_iff {entities kept : List Entity} :
    Without (Excluded source options) entities kept ↔ kept = pruneAll source options entities :=
  have pruned := pruneAll_without_of fun entity _ => prune_without entity
  ⟨fun without => pruned.unique without, fun same => same ▸ pruned⟩

theorem prune_eq_withChildren (entity : Entity) :
    prune source options entity = entity.withChildren (pruneAll source options entity.children) := by
  cases entity <;> rfl

theorem apply_group_eq {entity : Entity} (group : entity.isGroup = true) :
    apply source options entity =
      if pruneAll source options entity.children = [] then
        setExcluded (entity.withChildren (pruneAll source options entity.children))
      else entity.withChildren (pruneAll source options entity.children) := by
  cases entity with
  | leaf => cases group
  | node tag children =>
    cases tag with
    | group name anchor fields =>
      have same : pruneAll source options
          (children.filter fun member => !excludes source options member) =
            pruneAll source options children :=
        pruneAll_filter children
      simp only [Entity.children, Entity.withChildren, ← same, apply]
      split
      · rename_i none
        simp only [none, pruneAll, if_true]
      · rename_i nonempty
        have left : ¬ pruneAll source options children = [] := by
          rw [pruneAll_eq]
          exact fun none => nonempty (List.map_eq_nil_iff.mp none)
        rw [← same] at left
        simp only [left, if_false, prune]
    | _ => cases group

/-- A top-level entity that is excluded and no group only has its mode changed. Of any other entity exactly
the documentation is taken out that is excluded, and a group of which nothing is left is marked. What is
inside a hidden declaration is hidden, and a second time nothing changes. -/
theorem apply_removes_excluded (source : SourceTree) (options : ExclusionOptions) (entity : Entity) :
    let mark := Entity.mapFields fun fields => { fields with excludeMode := .exclude }
    (entity.isGroup = false → Excluded source options entity →
      apply source options entity = mark entity) ∧
    (entity.isGroup = true ∨ ¬ Excluded source options entity →
      ∃ kept, (∀ left, Without (Excluded source options) entity.children left ↔ left = kept) ∧
        apply source options entity =
          if entity.isGroup = true ∧ kept = [] then mark (entity.withChildren kept)
          else entity.withChildren kept) ∧
    (∀ outer inner, Hidden source options outer → source.Encloses outer inner →
      Hidden source options inner) ∧
    apply source options (apply source options entity) = apply source options entity := by
  refine ⟨fun single excluded => ?_, fun stays => ?_, fun _ _ hidden around => hidden.inner around,
    apply_of_settled (apply_settled entity)⟩
  · rw [apply_single single, if_pos (excludes_iff.mpr excluded)]
    rfl
  · refine ⟨pruneAll source options entity.children, fun _ => without_iff, ?_⟩
    cases kind : entity.isGroup with
    | true =>
      rw [apply_group_eq kind]
      simp only [true_and]
      rfl
    | false =>
      have included := stays.resolve_left (by rw [kind]; exact Bool.false_ne_true)
      rw [apply_single kind, if_neg (mt excludes_iff.mp included), prune_eq_withChildren]
      simp

theorem children_withChildren_of_group {entity : Entity} (group : entity.isGroup = true)
    (children : List Entity) : (entity.withChildren children).children = children := by
  cases entity with
  | leaf => cases group
  | node => rfl

theorem marked_withChildren {entity : Entity} (children : List Entity) :
    Marked (entity.withChildren children) ↔ Marked entity := by
  cases entity with
  | leaf => rfl
  | node tag _ => cases tag <;> rfl

theorem isDocumentation_prune (entity : Entity) :
    (prune source options entity).isDocumentation = entity.isDocumentation := by
  rw [Entity.isDocumentation, Entity.fields?_congr (stub?_prune entity), Entity.isDocumentation]

/-- A group of which no documentation is left is marked as excluded, unless something else is left of it and
it was not marked before. -/
theorem emptied_group_marked_iff {entity : Entity} (group : entity.isGroup = true)
    (emptied : ∀ child ∈ (apply source options entity).children, child.isDocumentation = false) :
    Marked (apply source options entity) ↔
      Marked entity ∨ ∀ child ∈ entity.children, child.isDocumentation = true := by
  by_cases none : pruneAll source options entity.children = []
  · rw [apply_group_eq group, if_pos none]
    rw [pruneAll_eq, List.map_eq_nil_iff, List.filter_eq_nil_iff] at none
    refine iff_of_true (setExcluded_marked _) (.inr fun child member => ?_)
    exact (excludes_iff.mp (by simpa using none child member)).isDocumentation
  · rw [apply_group_eq group, if_neg none] at emptied ⊢
    rw [children_withChildren_of_group group] at emptied
    rw [marked_withChildren]
    refine (or_iff_left fun members => ?_).symm
    obtain ⟨child, present⟩ := List.exists_mem_of_ne_nil _ none
    have other := emptied child present
    rw [pruneAll_eq] at present
    obtain ⟨old, kept, rfl⟩ := List.mem_map.mp present
    rw [isDocumentation_prune, members old (List.mem_of_mem_filter kept)] at other
    cases other

/-- A group of one private function, with a heading and without. -/
def privateGroup (headings : List Entity) : Entity :=
  .node (.group "g" "" { group := some "g", outputSection := some "Things" })
    (headings ++ [.node (.declaration 1 "" { group := some "g" }) [.part .parameters []]])

def privateTree : SourceTree :=
  (({} : SourceTree).addFile "a.hpp" |>.add 0 .function "f").setAccess 1 .private_

theorem emptied_group_marked_members :
    (privateGroup []).isGroup = true ∧
      (∀ child ∈ (apply privateTree {} (privateGroup [])).children, child.isDocumentation = false) ∧
      (Marked (apply privateTree {} (privateGroup [])) ↔ Marked (privateGroup []) ∨
        ∀ child ∈ (privateGroup []).children, child.isDocumentation = true) := by
  have group : (privateGroup []).isGroup = true := rfl
  have emptied : ∀ child ∈ (apply privateTree {} (privateGroup [])).children,
      child.isDocumentation = false := by
    decide
  exact ⟨group, emptied, emptied_group_marked_iff group emptied⟩

/-- The heading is no member, and the group stays as if it had one. -/
theorem heading_outlives_members :
    let heading : Entity := .node (.heading 1) [.text "Things"]
    let result := apply privateTree {} (privateGroup [heading])
    result.children = [heading] ∧ heading.isDocumentation = false ∧ ¬ Marked result := by
  refine ⟨by decide, rfl, fun marked => ?_⟩
  have mode := marked _ rfl
  revert mode
  decide

end DocComment.Exclusion
