import DocComment.Comment.Compile
import DocComment.Proofs.Comment.Sections
import DocComment.Proofs.Comment.Segmentation
import DocComment.Proofs.Markup.Tree

/-! The shape of compiled documentation. Its root is what the comment is bound to, and has sections of
distinct kinds. Parts of the root are documented in the sections for them and nowhere else, each once,
and are of the same shape. -/
namespace DocComment.Comment

open Entity (IsMarkup preorderAll)

/-- What succeeds in two steps. -/
theorem Except.bind_eq_ok {ε α β : Type} {first : Except ε α} {next : α → Except ε β} {result : β} :
    (first >>= next) = .ok result ↔ ∃ value, first = .ok value ∧ next value = .ok result := by
  cases first <;> simp [Bind.bind, Except.bind]

/-- Sections of distinct kinds and nothing else; a brief comes first. -/
structure Sectioned (children : List Entity) : Prop where
  sections : ∀ child ∈ children, child.partKind?.isSome = true
  distinct : (children.filterMap Entity.partKind?).Nodup
  briefFirst : ∀ child ∈ children.tail, child.partKind? ≠ some .brief

/-- All required sections of a declaration are there. -/
def Complete (source : SourceTree) (id : DeclId) (children : List Entity) : Prop :=
  ∀ kind ∈ source.requiredSections id, ∃ child ∈ children, child.partKind? = some kind

/-- A direct part of the owner, of the sort that a section of the kind documents. -/
def Owned (source : SourceTree) (owner part : DeclId) : SectionKind → Prop
  | .parameters => part ∈ source.parameters owner
  | .requires => part ∈ source.templateParameters owner
  | .bases => part ∈ source.bases owner
  | _ => False

/-- Those entities that document a declaration. -/
def declarations (entities : List Entity) : List Entity :=
  entities.filter (·.declaration?.isSome)

def Binding.tag (fields : Fields) : Binding → Tag
  | .declaration id => .declaration id "" fields
  | .moduleName name => .moduleDoc name "" fields

structure Shape (source : SourceTree) (binding : Binding) (entity : Entity) : Prop where
  root : ∃ fields, entity = .node (binding.tag fields) entity.children
  sectioned : Sectioned entity.children
  complete : ∀ id, binding = .declaration id → Complete source id entity.children
  /-- Declarations below the root are direct children of its sections. -/
  direct : declarations (preorderAll entity.children) =
    declarations (entity.children.flatMap Entity.children)
  distinct : ((preorderAll entity.children).filterMap Entity.declaration?).Nodup
  parts : ∀ child ∈ entity.children, ∀ nested ∈ child.children, ∀ part,
    nested.declaration? = some part →
      ∃ owner kind, binding = .declaration owner ∧ child.partKind? = some kind ∧
        Owned source owner part kind ∧ Sectioned nested.children ∧
        Complete source part nested.children

theorem splitFirstSentence_markup {children : List Entity}
    (markup : ∀ child ∈ children, IsMarkup child) :
    (∀ child ∈ (splitFirstSentence children).1, IsMarkup child) ∧
      ∀ child ∈ (splitFirstSentence children).2, IsMarkup child := by
  induction children with
  | nil => simp [splitFirstSentence]
  | cons entity rest ih =>
    have restMarkup : ∀ child ∈ rest, IsMarkup child := fun child member =>
      markup child (List.mem_cons_of_mem _ member)
    obtain ⟨firstMarkup, othersMarkup⟩ := ih restMarkup
    simp only [splitFirstSentence]
    split
    · refine ⟨fun child member => ?_, fun child member => ?_⟩
      · rw [List.mem_singleton.mp member]
        exact .leaf _
      · split at member
        · exact restMarkup child ((List.dropWhile_sublist _).subset member)
        · rcases List.mem_cons.mp member with same | later
          · subst child; exact .leaf _
          · exact restMarkup child later
    · refine ⟨fun child member => ?_, othersMarkup⟩
      rcases List.mem_cons.mp member with same | later
      · subst child; exact markup entity List.mem_cons_self
      · exact firstMarkup child later

/-- Filing a block adds markup to sections. -/
theorem addUnlabeled_induction {motive : Sections → Prop} {wantsBrief : Bool}
    (step : ∀ current kind content, (∀ entity ∈ content, IsMarkup entity) → motive current →
      motive (current.add kind content))
    (markup : IsMarkup block) (start : motive sections) :
    motive (addUnlabeled sections wantsBrief block) := by
  unfold addUnlabeled
  split
  · rename_i children paragraph
    have same : block = .paragraph children := by
      split at paragraph
      · exact Option.some.inj paragraph
      · cases paragraph
    subst block
    have childrenMarkup : ∀ child ∈ children, IsMarkup child := markup.of_mem_children
    obtain ⟨briefMarkup, detailsMarkup⟩ := splitFirstSentence_markup childrenMarkup
    generalize splitFirstSentence children = sentences at briefMarkup detailsMarkup ⊢
    obtain ⟨brief, details⟩ := sentences
    have withBrief : motive (sections.add .brief [.paragraph brief]) :=
      step _ _ _ (by simpa using .node rfl briefMarkup) start
    dsimp only
    split
    · exact withBrief
    · exact step _ _ _ (by simpa using .node rfl detailsMarkup) withBrief
  · exact step _ _ _ (by simpa using markup) start

theorem addUnlabeledAll_induction {motive : Sections → Prop} {wantsBrief : Bool}
    (step : ∀ current kind content, (∀ entity ∈ content, IsMarkup entity) → motive current →
      motive (current.add kind content))
    (blocks : List Entity) (markup : ∀ block ∈ blocks, IsMarkup block) (start : motive sections) :
    motive (addUnlabeledAll sections wantsBrief blocks) := by
  induction blocks generalizing sections wantsBrief with
  | nil => exact start
  | cons block rest ih =>
    exact ih (fun other member => markup other (List.mem_cons_of_mem _ member))
      (addUnlabeled_induction step (markup block List.mem_cons_self) start)

/-- What is left of a paragraph after its first sentence. -/
def afterBrief (children : List Entity) : List Entity :=
  let details := (splitFirstSentence children).2
  if details.isEmpty then [] else [.paragraph details]

theorem addUnlabeledAll_false (sections : Sections) (blocks : List Entity) :
    addUnlabeledAll sections false blocks =
      sections.fileAll (blocks.map fun block => (.details, [block])) := by
  induction blocks generalizing sections with
  | nil => rfl
  | cons block rest ih => exact ih (sections.add .details [block])

/-- A paragraph that implies a brief is filed in two. -/
theorem addUnlabeledAll_paragraph (sections : Sections) (children blocks : List Entity) :
    addUnlabeledAll sections true (.paragraph children :: blocks) =
      addUnlabeledAll (sections.add .brief [.paragraph (splitFirstSentence children).1]) false
        (afterBrief children ++ blocks) := by
  by_cases empty : (splitFirstSentence children).2 = []
  · simp [addUnlabeledAll, addUnlabeled, afterBrief, empty]
  · simp [addUnlabeledAll, addUnlabeled, afterBrief, empty]

theorem addUnlabeledAll_other {block : Entity} (other : ∀ children, block ≠ .paragraph children)
    (sections : Sections) (wantsBrief : Bool) (blocks : List Entity) :
    addUnlabeledAll sections wantsBrief (block :: blocks) =
      addUnlabeledAll sections false (block :: blocks) := by
  have whole : addUnlabeled sections wantsBrief block = sections.add .details [block] := by
    unfold addUnlabeled
    split
    · rename_i children paragraph
      split at paragraph
      · exact absurd (Option.some.inj paragraph) (other children)
      · cases paragraph
    · rfl
  rw [addUnlabeledAll, whole]
  rfl

theorem addUnlabeledAll_briefFirst (blocks : List Entity) : (addUnlabeledAll [] true blocks).BriefFirst := by
  have details (added : List Entity) :
      ∀ filing ∈ added.map (fun block => (SectionKind.details, [block])), filing.1 ≠ .brief := by
    intro filing member
    obtain ⟨_, _, rfl⟩ := List.mem_map.mp member
    nofun
  have empty : Sections.BriefFirst [] := by simp [Sections.BriefFirst, Sections.kinds]
  cases blocks with
  | nil => exact empty
  | cons block rest =>
    by_cases paragraph : ∃ children, block = .paragraph children
    · obtain ⟨children, rfl⟩ := paragraph
      rw [addUnlabeledAll_paragraph, addUnlabeledAll_false]
      refine Sections.briefFirst_fileAll ?_ (details _)
      simp [Sections.BriefFirst, Sections.kinds, Sections.add]
    · rw [addUnlabeledAll_other fun children same => paragraph ⟨children, same⟩,
        addUnlabeledAll_false]
      exact Sections.briefFirst_fileAll empty (details _)

/-- The documentation of a part, before its required sections are added. -/
def partDocumentation (part : DeclId) (content : List Entity) : Entity :=
  .node (.declaration part "" {}) (addUnlabeledAll [] true content).entities

/-- What the section of a kind may hold: markup, and documentation of parts that belong there. -/
def Filed (source : SourceTree) (binding : Binding) (kind : SectionKind) (entity : Entity) : Prop :=
  IsMarkup entity ∨
    ∃ owner part content, binding = .declaration owner ∧ Owned source owner part kind ∧
      (∀ block ∈ content, IsMarkup block) ∧ entity = partDocumentation part content

/-- Sections of a draft: the parts documented in them are those that it remembers. -/
structure Sound (source : SourceTree) (binding : Binding) (parts : List DeclId)
    (sections : Sections) : Prop where
  distinct : sections.kinds.Nodup
  filed : sections.All (Filed source binding)
  documented : (sections.contents.filterMap Entity.declaration?).Perm parts

theorem Sound.addMarkup (sound : Sound source binding parts sections) (kind : SectionKind)
    (markup : ∀ entity ∈ content, IsMarkup entity) :
    Sound source binding parts (sections.add kind content) := by
  have none : content.filterMap Entity.declaration? = [] :=
    List.filterMap_eq_nil_iff.mpr fun entity member => (markup entity member).declaration?_eq_none
  refine ⟨Sections.distinct_add kind content sound.distinct,
    sound.filed.add fun entity member => .inl (markup entity member), ?_⟩
  have kept := (Sections.contents_add kind content sections).filterMap Entity.declaration?
  rw [List.filterMap_append, none, List.append_nil] at kept
  exact kept.trans sound.documented

theorem Sound.addPart (sound : Sound source (.declaration owner) parts sections)
    (owned : Owned source owner part kind) (markup : ∀ block ∈ content, IsMarkup block) :
    Sound source (.declaration owner) (part :: parts)
      (sections.add kind [partDocumentation part content]) := by
  refine ⟨Sections.distinct_add kind _ sound.distinct, sound.filed.add fun entity member => ?_, ?_⟩
  · rw [List.mem_singleton.mp member]
    exact .inr ⟨owner, part, content, rfl, owned, markup, rfl⟩
  · have kept := (Sections.contents_add kind [partDocumentation part content] sections).filterMap
      Entity.declaration?
    rw [List.filterMap_append] at kept
    exact kept.trans ((sound.documented.append_right [part]).trans List.perm_append_comm)

/-- The entities that a node brings. -/
def Node.content : Node → List Entity
  | .markup blocks => blocks
  | .special .. => []
  | .part _ content | .inline _ _ content _ => content

structure Draft.Sound (source : SourceTree) (binding : Binding) (draft : Draft) : Prop where
  sections : Comment.Sound source binding draft.parts draft.sections
  once : draft.parts.Nodup

theorem subPart?_owned {command : InlineCommand}
    (found : source.subPart? owner command.partKind name = some part) :
    Owned source owner part command.sectionKind := by
  have member := List.mem_of_find?_eq_some found
  cases command <;> exact member

/-- What a node that can be added does to a draft. -/
inductive Draft.Applies (source : SourceTree) (binding : Binding) (name : String) (draft : Draft) :
    Node → Draft → Prop where
  | markup (blocks : List Entity) : Applies source binding name draft (.markup blocks)
      { draft with
        sections := addUnlabeledAll draft.sections draft.wantsBrief blocks
        wantsBrief := draft.wantsBrief && blocks.isEmpty }
  | part (kind : SectionKind) (content : List Entity) :
      Applies source binding name draft (.part kind content)
        { draft with sections := draft.sections.add kind content }
  | special {command : SpecialCommand} {arguments : List String} {line : Nat} {fields : Fields}
      (set : Draft.special name command arguments draft.fields = .ok fields) :
      Applies source binding name draft (.special command arguments line) { draft with fields }
  | inline {owner part : DeclId} {command : InlineCommand} {own : String} {content : List Entity}
      {line : Nat} (bound : binding = .declaration owner)
      (found : source.subPart? owner command.partKind own = some part) (fresh : part ∉ draft.parts) :
      Applies source binding name draft (.inline command own content line)
        { draft with
          parts := part :: draft.parts
          sections := draft.sections.add command.sectionKind [partDocumentation part content] }

theorem Draft.applies {draft next : Draft} {node : Node}
    (success : draft.apply source binding name node = .ok next) :
    draft.Applies source binding name node next := by
  cases node with
  | markup blocks =>
    cases success
    exact .markup blocks
  | special command arguments line =>
    rw [Draft.apply, Except.bind_eq_ok] at success
    obtain ⟨fields, set, same⟩ := success
    cases same
    exact .special set
  | part kind content =>
    cases success
    exact .part kind content
  | inline command own content line =>
    cases binding with
    | moduleName => cases success
    | declaration owner =>
      simp only [Draft.apply, Draft.inline] at success
      split at success
      · cases success
      · rename_i found
        split at success
        · cases success
        · rename_i fresh
          cases success
          exact .inline rfl found (by simpa using fresh)

theorem Draft.Sound.apply {draft next : Draft} {node : Node} (sound : draft.Sound source binding)
    (markup : ∀ entity ∈ node.content, IsMarkup entity)
    (success : draft.apply source binding name node = .ok next) : next.Sound source binding := by
  cases Draft.applies success with
  | markup blocks =>
    refine ⟨?_, sound.once⟩
    exact addUnlabeledAll_induction (fun _ kind _ added before => before.addMarkup kind added)
      blocks markup sound.sections
  | special set => exact ⟨sound.sections, sound.once⟩
  | part kind content => exact ⟨sound.sections.addMarkup kind markup, sound.once⟩
  | inline bound found fresh =>
    subst bound
    exact ⟨sound.sections.addPart (subPart?_owned found) markup, List.nodup_cons.mpr ⟨fresh, sound.once⟩⟩

theorem Draft.Sound.applyAll {draft final : Draft} (sound : draft.Sound source binding)
    (nodes : List Node) (markup : ∀ node ∈ nodes, ∀ entity ∈ node.content, IsMarkup entity)
    (success : nodes.foldlM (Draft.apply source binding name) draft = .ok final) :
    final.Sound source binding := by
  induction nodes generalizing draft with
  | nil => cases success; exact sound
  | cons node rest ih =>
    obtain ⟨first, others⟩ := List.forall_mem_cons.mp markup
    rw [List.foldlM_cons, Except.bind_eq_ok] at success
    obtain ⟨next, applied, success⟩ := success
    exact ih (sound.apply first applied) others success

theorem Sectioned.ensurePart (sectioned : Sectioned children) (other : kind ≠ .brief) :
    Sectioned (Entity.ensurePart kind children) := by
  unfold Entity.ensurePart
  split
  · exact sectioned
  · rename_i absent
    rw [findPart?_isSome] at absent
    refine ⟨fun child member => ?_, ?_, fun child member => ?_⟩
    · rcases List.mem_append.mp member with before | last
      · exact sectioned.sections child before
      · rw [List.mem_singleton.mp last]; rfl
    · rw [List.filterMap_append]
      refine List.nodup_append.mpr ⟨sectioned.distinct, by simp [Entity.partKind?], ?_⟩
      intro present member added last same
      obtain ⟨child, inside, own⟩ := List.mem_filterMap.mp member
      rw [same, List.mem_singleton.mp last] at own
      exact absent ⟨child, inside, own⟩
    · cases children with
      | nil => cases member
      | cons first rest =>
        rcases List.mem_append.mp member with before | last
        · exact sectioned.briefFirst child before
        · rw [List.mem_singleton.mp last]
          simpa [Entity.partKind?] using other

theorem Sectioned.ensureParts (kinds : List SectionKind) (sectioned : Sectioned children)
    (others : ∀ kind ∈ kinds, kind ≠ .brief) : Sectioned (ensureParts kinds children) := by
  induction kinds generalizing children with
  | nil => exact sectioned
  | cons kind rest ih =>
    exact ih (sectioned.ensurePart (others kind List.mem_cons_self))
      fun other member => others other (List.mem_cons_of_mem _ member)

theorem sectioned_entities {sections : Sections} (distinct : sections.kinds.Nodup)
    (first : sections.BriefFirst) : Sectioned sections.entities := by
  have kinds : sections.entities.filterMap Entity.partKind? = sections.kinds := by
    simp only [Sections.entities, Sections.kinds, List.filterMap_map]
    exact congrFun (List.filterMap_eq_map (f := Prod.fst)) sections
  refine ⟨fun child member => ?_, kinds ▸ distinct, fun child member => ?_⟩
  · obtain ⟨entry, _, rfl⟩ := List.mem_map.mp member
    rfl
  · rw [Sections.entities, ← List.map_tail] at member
    obtain ⟨entry, present, rfl⟩ := List.mem_map.mp member
    have other : entry.1 ≠ .brief := by
      apply first
      rw [Sections.kinds, ← List.map_tail]
      exact List.mem_map.mpr ⟨entry, present, rfl⟩
    simpa [Entity.partKind?] using other

/-- What the section of a kind holds once required sections are added. -/
def Finished (source : SourceTree) (binding : Binding) (kind : SectionKind) (entity : Entity) : Prop :=
  IsMarkup entity ∨
    ∃ owner part children, binding = .declaration owner ∧ Owned source owner part kind ∧
      entity = .node (.declaration part "" {}) children ∧ Sectioned children ∧
      Complete source part children ∧ ∀ child ∈ children, ∀ inner ∈ child.children, IsMarkup inner

theorem addUnlabeledAll_markup {blocks : List Entity} (markup : ∀ block ∈ blocks, IsMarkup block) :
    (addUnlabeledAll [] true blocks).kinds.Nodup ∧
      (addUnlabeledAll [] true blocks).All fun _ entity => IsMarkup entity := by
  refine addUnlabeledAll_induction (motive := fun sections =>
    sections.kinds.Nodup ∧ sections.All fun _ entity => IsMarkup entity) ?_ blocks markup ?_
  · intro current kind content added before
    exact ⟨Sections.distinct_add kind content before.1, before.2.add added⟩
  · exact ⟨List.nodup_nil, fun _ _ member => by cases member⟩

/-- A list of sections, one of each kind at most, with finished content. -/
theorem children_finished (source : SourceTree) {fits finished : SectionKind → Entity → Prop}
    {sections : Sections} (all : sections.All fits) (finish : ∀ kind entity, fits kind entity →
      finished kind (ensureRequired source entity)) (kinds : List SectionKind) :
    ∀ child ∈ ensureParts kinds (sections.entities.map (ensureRequired source)),
      ∃ kind, child.partKind? = some kind ∧ ∀ entity ∈ child.children, finished kind entity := by
  intro child member
  obtain ⟨missing, added⟩ := ensureParts_added kinds (sections.entities.map (ensureRequired source))
  rw [added, Sections.entities, List.map_map] at member
  rcases List.mem_append.mp member with present | empty
  · obtain ⟨⟨kind, content⟩, inside, rfl⟩ := List.mem_map.mp present
    rw [Function.comp_apply, ensureRequired_part]
    refine ⟨kind, rfl, fun entity held => ?_⟩
    obtain ⟨original, before, rfl⟩ := List.mem_map.mp held
    exact finish kind original (all kind content inside original before)
  · obtain ⟨kind, _, rfl⟩ := List.mem_map.mp empty
    exact ⟨kind, rfl, by simp [Entity.children]⟩

theorem Sectioned.ensureRequired (source : SourceTree) (sectioned : Sectioned children) :
    Sectioned (children.map (ensureRequired source)) := by
  refine ⟨fun child member => ?_, ?_, fun child member => ?_⟩
  · obtain ⟨original, present, rfl⟩ := List.mem_map.mp member
    rw [ensureRequired_partKind?]
    exact sectioned.sections original present
  · have same : Entity.partKind? ∘ Comment.ensureRequired source = Entity.partKind? :=
      funext (ensureRequired_partKind? source)
    rw [List.filterMap_map, same]
    exact sectioned.distinct
  · rw [← List.map_tail] at member
    obtain ⟨original, present, rfl⟩ := List.mem_map.mp member
    rw [ensureRequired_partKind?]
    exact sectioned.briefFirst original present

theorem Filed.finish (filed : Filed source binding kind entity) :
    Finished source binding kind (ensureRequired source entity) := by
  rcases filed with markup | ⟨owner, part, content, bound, owned, markup, same⟩
  · rw [ensureRequired_markup source markup]
    exact .inl markup
  · subst entity
    obtain ⟨distinct, all⟩ := addUnlabeledAll_markup markup
    rw [partDocumentation, ensureRequired_declaration]
    refine .inr ⟨owner, part, _, bound, owned, rfl, ?_, ensureParts_complete _ _, ?_⟩
    · exact ((sectioned_entities distinct (addUnlabeledAll_briefFirst content)).ensureRequired
        source).ensureParts _ fun kind member =>
          (requiredSections_ne source part kind member).1
    · intro child member
      have unchanged (kind : SectionKind) (entity : Entity) (markup : IsMarkup entity) :
          IsMarkup (ensureRequired source entity) := by
        rwa [ensureRequired_markup source markup]
      have finished : ∃ kind, child.partKind? = some kind ∧
          ∀ inner ∈ child.children, IsMarkup inner :=
        children_finished source all unchanged _ child member
      obtain ⟨_, _, markup⟩ := finished
      exact markup

theorem declarations_append (first second : List Entity) :
    declarations (first ++ second) = declarations first ++ declarations second :=
  List.filter_append ..

theorem declarations_markup {entities : List Entity} (markup : ∀ entity ∈ entities, IsMarkup entity) :
    declarations entities = [] := by
  refine List.filter_eq_nil_iff.mpr fun entity member => ?_
  simp [(markup entity member).declaration?_eq_none]

theorem declarations_ids (entities : List Entity) :
    (declarations entities).filterMap Entity.declaration? =
      entities.filterMap Entity.declaration? := by
  rw [declarations, List.filterMap_filter]
  congr 1
  funext entity
  cases entity.declaration? <;> rfl

/-- Sections whose content has no declarations below it have them as direct children only. -/
theorem declarations_direct {children : List Entity}
    (sections : ∀ child ∈ children, child.partKind?.isSome = true)
    (direct : ∀ child ∈ children, ∀ entity ∈ child.children,
      declarations entity.preorder = declarations [entity]) :
    declarations (preorderAll children) = declarations (children.flatMap Entity.children) := by
  have flat (content : List Entity) (direct : ∀ entity ∈ content,
      declarations entity.preorder = declarations [entity]) :
      declarations (preorderAll content) = declarations content := by
    induction content with
    | nil => rfl
    | cons entity rest ih =>
      rw [preorderAll, declarations_append, direct entity List.mem_cons_self,
        ih fun other member => direct other (List.mem_cons_of_mem _ member), ← declarations_append]
      rfl
  induction children with
  | nil => rfl
  | cons child rest ih =>
    have first : declarations child.preorder = declarations child.children := by
      have part := sections child List.mem_cons_self
      cases child with
      | leaf => cases part
      | node tag content =>
        cases tag with
        | part => exact flat content (direct _ List.mem_cons_self)
        | _ => cases part
    rw [preorderAll, declarations_append, first,
      ih (fun other member => sections other (List.mem_cons_of_mem _ member))
        (fun other member => direct other (List.mem_cons_of_mem _ member)),
      List.flatMap_cons, declarations_append]

theorem Finished.direct (finished : Finished source binding kind entity) :
    declarations entity.preorder = declarations [entity] := by
  rcases finished with markup | ⟨_, part, children, _, _, same, sectioned, _, inside⟩
  · rw [declarations_markup markup.of_mem_preorder, declarations_markup (by simpa using markup)]
  · subst entity
    have below : declarations (preorderAll children) = [] := by
      rw [declarations_direct sectioned.sections, declarations_markup]
      · intro entity member
        obtain ⟨child, present, held⟩ := List.mem_flatMap.mp member
        exact inside child present entity held
      · intro child present entity held
        have markup := inside child present entity held
        rw [declarations_markup markup.of_mem_preorder, declarations_markup (by simpa using markup)]
    have head : declarations (Entity.preorder (.node (.declaration part "" {}) children)) =
        .node (.declaration part "" {}) children :: declarations (preorderAll children) := rfl
    rw [head, below]
    rfl

theorem ensureRequired_contents (source : SourceTree) (kinds : List SectionKind)
    (sections : Sections) :
    (ensureParts kinds (sections.entities.map (ensureRequired source))).flatMap Entity.children =
      sections.contents.map (ensureRequired source) := by
  obtain ⟨missing, added⟩ := ensureParts_added kinds (sections.entities.map (ensureRequired source))
  have empty : (missing.map (Entity.part · [])).flatMap Entity.children = [] := by
    simp [Entity.children]
  rw [added, List.flatMap_append, empty, List.append_nil]
  simp only [Sections.entities, Sections.contents, List.map_map, List.flatMap_map, List.map_flatMap,
    Function.comp_def, ensureRequired_part]
  rfl

/-- The documentation of sound sections, whatever sections are required. -/
theorem Sound.shape_of (sound : Sound source binding parts sections) (once : parts.Nodup)
    {fields : Fields} {kinds : List SectionKind} (others : ∀ kind ∈ kinds, kind ≠ .brief)
    (required : ∀ id, binding = .declaration id → kinds = source.requiredSections id) :
    Shape source binding (.node (binding.tag fields)
      (ensureParts kinds (sections.briefFirst.entities.map (ensureRequired source)))) := by
  have sectioned : Sectioned
      (ensureParts kinds (sections.briefFirst.entities.map (ensureRequired source))) :=
    ((sectioned_entities (Sections.distinct_briefFirst sound.distinct)
      (Sections.briefFirst_first sound.distinct)).ensureRequired source).ensureParts kinds others
  have filed : sections.briefFirst.All (Filed source binding) := fun kind content member =>
    sound.filed kind content (sections.briefFirst_perm.mem_iff.mp member)
  have finished := children_finished source filed (fun _ _ => Filed.finish) kinds
  have direct := declarations_direct sectioned.sections fun child present entity held => by
    obtain ⟨kind, _, content⟩ := finished child present
    exact (content entity held).direct
  refine ⟨⟨fields, rfl⟩, sectioned, ?_, direct, ?_, ?_⟩
  · intro id bound kind member
    rw [← required id bound] at member
    exact ensureParts_complete kinds _ kind member
  · rw [← declarations_ids, Entity.children, direct, declarations_ids, ensureRequired_contents,
      List.filterMap_map]
    have same : Entity.declaration? ∘ ensureRequired source = Entity.declaration? :=
      funext (ensureRequired_declaration? source)
    have kept := (sections.briefFirst_perm.flatMap_right Prod.snd).filterMap Entity.declaration?
    rw [same]
    exact (kept.trans sound.documented).nodup_iff.mpr once
  · intro child present nested held part own
    obtain ⟨kind, ofKind, content⟩ := finished child present
    rcases content nested held with markup | ⟨owner, _, children, bound, owned, same, inner, complete, _⟩
    · rw [markup.declaration?_eq_none] at own
      cases own
    · subst nested
      obtain rfl := Option.some.inj own
      exact ⟨owner, kind, bound, ofKind, owned, inner, complete⟩

theorem Sound.shape (sound : Sound source binding parts sections) (once : parts.Nodup)
    (fields : Fields) :
    Shape source binding
      (ensureRequired source (.node (binding.tag fields) sections.briefFirst.entities)) := by
  cases binding with
  | declaration id =>
    rw [Binding.tag, ensureRequired_declaration]
    refine sound.shape_of once (fun kind member => (requiredSections_ne source id kind member).1) ?_
    intro other bound
    cases bound
    rfl
  | moduleName name =>
    have completed : ensureRequired source
        (.node (.moduleDoc name "" fields) sections.briefFirst.entities) =
        .node (.moduleDoc name "" fields)
          (ensureParts [] (sections.briefFirst.entities.map (ensureRequired source))) := by
      simp [ensureRequired, ensureRequiredAll_eq_map, ensureParts]
    rw [Binding.tag, completed]
    exact sound.shape_of once (by simp) (by simp)

theorem assemble_shape {nodes : List Node}
    (markup : ∀ node ∈ nodes, ∀ entity ∈ node.content, IsMarkup entity)
    (success : assemble source binding nodes = .ok entity) : Shape source binding entity := by
  rw [assemble, Except.bind_eq_ok] at success
  obtain ⟨draft, applied, same⟩ := success
  have start : Draft.Sound source binding { wantsBrief := !nodes.any isBriefNode } :=
    ⟨⟨List.nodup_nil, fun _ _ member => (by cases member), .nil⟩, List.nodup_nil⟩
  have sound := start.applyAll nodes markup applied
  cases same
  cases binding <;> exact sound.sections.shape sound.once draft.fields

theorem Stretch.nodes_content {read : String → List Entity} {stretch : Stretch}
    (member : node ∈ stretch.nodes read) : ∀ entity ∈ node.content, ∃ text, entity ∈ read text := by
  intro entity held
  cases stretch with
  | markup marks =>
    simp only [nodes, markupNodes] at member
    split at member
    · cases member
    · split at member
      · cases member
      · rw [List.mem_singleton.mp member] at held
        exact ⟨_, held⟩
  | special =>
    rw [List.mem_singleton.mp member] at held
    cases held
  | part | inline =>
    rw [List.mem_singleton.mp member] at held
    exact ⟨_, held⟩

theorem segment_markup {read : String → List Entity}
    (markup : ∀ text, ∀ entity ∈ read text, IsMarkup entity) (table : CommandTable) (text : String) :
    ∀ node ∈ segment read table text, ∀ entity ∈ node.content, IsMarkup entity := by
  intro node member entity held
  rw [segment_eq] at member
  obtain ⟨stretch, _, inside⟩ := List.mem_flatMap.mp member
  obtain ⟨part, present⟩ := Stretch.nodes_content inside entity held
  exact markup part entity present

/-- A command that binds is taken out of the nodes, and every other node is left. -/
theorem bindByCommand_cons {bound : Option Binding} {node : Node} {rest : List Node}
    (success : bindByCommand resolve source site bound (node :: rest) = .ok (binding, left)) :
    (bindingTarget resolve site node = none ∧
      ∃ kept, bindByCommand resolve source site bound rest = .ok (binding, kept) ∧ left = node :: kept) ∨
    ∃ target, bindByCommand resolve source site (some target) rest = .ok (binding, left) := by
  rw [bindByCommand] at success
  split at success
  · rename_i other
    obtain ⟨⟨_, kept⟩, deeper, same⟩ := Except.bind_eq_ok.mp success
    cases same
    exact .inl ⟨other, kept, deeper, rfl⟩
  · obtain ⟨target, _, success⟩ := Except.bind_eq_ok.mp success
    split at success
    · cases success
    · exact .inr ⟨target, success⟩

theorem bindByCommand_left {bound : Option Binding} {nodes : List Node}
    (success : bindByCommand resolve source site bound nodes = .ok (binding, left)) : left ⊆ nodes := by
  induction nodes generalizing bound left with
  | nil => cases success; simp
  | cons node rest ih =>
    rcases bindByCommand_cons success with ⟨_, kept, deeper, rfl⟩ | ⟨target, deeper⟩
    · exact List.cons_subset_cons node (ih deeper)
    · exact List.subset_cons_of_subset node (ih deeper)

theorem bindByModule_left {nodes : List Node} (found : bindByModule nodes = some (name, left)) :
    left ⊆ nodes := by
  fun_induction bindByModule nodes generalizing left with
  | case1 => cases found
  | case2 => cases found; exact List.subset_cons_self ..
  | case3 node rest _ ih =>
    obtain ⟨⟨first, kept⟩, deeper, same⟩ := Option.map_eq_some_iff.mp found
    obtain ⟨rfl, rfl⟩ := Prod.mk.inj same
    exact List.cons_subset_cons node (ih deeper)

/-- What is left of the nodes was left by the commands that bind, and at most the first module command was
taken out of it. -/
theorem bind_cases {nodes : List Node}
    (success : bind resolve source freeFileBinding site nodes = .ok (binding, left)) :
    ∃ bound kept, bindByCommand resolve source site (site.attached.map .declaration) nodes =
      .ok (bound, kept) ∧ (left = kept ∨ ∃ name, bindByModule kept = some (name, left)) := by
  obtain ⟨⟨bound, kept⟩, commands, success⟩ := Except.bind_eq_ok.mp success
  refine ⟨bound, kept, commands, ?_⟩
  dsimp only at success
  split at success
  · cases success
    exact .inl rfl
  · split at success
    · rename_i named
      cases success
      exact .inr ⟨_, named⟩
    · split at success
      · split at success
        · cases success
          exact .inl rfl
        · cases success
      · cases success

theorem bind_left {nodes : List Node}
    (success : bind resolve source freeFileBinding site nodes = .ok (binding, left)) : left ⊆ nodes := by
  obtain ⟨bound, kept, commands, rfl | ⟨name, named⟩⟩ := bind_cases success
  · exact bindByCommand_left commands
  · exact fun node member => bindByCommand_left commands (bindByModule_left named member)

theorem bound_markup {table : CommandTable} {text : String}
    (success : bind resolve source freeFileBinding site (segment Markup.read table text) =
      .ok (binding, left)) :
    ∀ node ∈ left, ∀ entity ∈ node.content, IsMarkup entity := fun node member =>
  segment_markup Markup.read_markup table text node (bind_left success member)

theorem compile_eq_ok {compiler : Compiler}
    (success : compiler.compile resolve source site text = .ok entity) :
    ∃ binding left,
      bind resolve source compiler.freeFileBinding site (segment compiler.read compiler.table text) =
        .ok (binding, left) ∧ assemble source binding left = .ok entity := by
  obtain ⟨⟨binding, left⟩, bound, assembled⟩ := Except.bind_eq_ok.mp success
  exact ⟨binding, left, bound, assembled⟩

/-- Documentation compiled from the text of a comment is what the comment is bound to, and has the
shape of it. -/
theorem compile_shape {table : CommandTable} {freeFileBinding : Bool} {source : SourceTree} {site : Site}
    (success : (Compiler.mk Markup.read table freeFileBinding).compile resolve source site text =
      .ok entity) :
    ∃ binding left,
      bind resolve source freeFileBinding site (segment Markup.read table text) = .ok (binding, left) ∧
        Shape source binding entity := by
  obtain ⟨binding, left, bound, assembled⟩ := compile_eq_ok success
  exact ⟨binding, left, bound, assemble_shape (bound_markup bound) assembled⟩

/-- A file with a function template of one parameter. -/
def swapTree : SourceTree :=
  ((((({} : SourceTree).addFile "swap.hpp").add 0 .function "swap").add 1 .templateParameter "T").add 1
    .functionParameter "a")

set_option maxRecDepth 4000 in
theorem compile_shape_swap :
    let table := CommandTable.ofCommands [.special .exclude, .inline .param]
    let text := "Swaps. Twice.\n\n\\exclude return\n\\param a The first."
    let entity := Entity.node (.declaration 1 "" { excludeMode := .excludeReturnType })
      [.part .brief [.paragraph [.text "Swaps."]],
       .part .details [.paragraph [.text "Twice."]],
       .part .parameters
         [.node (.declaration 3 "" {}) [.part .brief [.paragraph [.text "The first."]]]],
       .part .requires []]
    (Compiler.mk Markup.read table false).compile (fun _ => none) swapTree ⟨some 0, some 1⟩ text =
        .ok entity ∧
      ∃ binding left,
        bind (fun _ => none) swapTree false ⟨some 0, some 1⟩ (segment Markup.read table text) =
            .ok (binding, left) ∧
          Shape swapTree binding entity := by
  intro table text entity
  have compiled : ((Compiler.mk Markup.read table false).compile (fun _ => none) swapTree
      ⟨some 0, some 1⟩ text).toOption = some entity := by
    decide +kernel
  generalize result : (Compiler.mk Markup.read table false).compile _ _ _ _ = documentation at compiled ⊢
  cases documentation with
  | error => cases compiled
  | ok => cases compiled; exact ⟨rfl, compile_shape result⟩

end DocComment.Comment
