import DocComment.Formatter
import DocComment.Proofs.Entity.Sections
import DocComment.Proofs.Template.Dialogue

/-! Rendering over an entity as a whole. It either fails and leaves the entity alone, or takes away just
the sections that the template asked to drop. Until then all sections are shown as they were at first. -/
namespace DocComment.Formatter

/-- Renders with the entity in hand. All sections are fetched at first, and those to drop are removed one
after the other once the template is rendered. -/
def inPlace (formatter : Formatter) (source : String) (projection : Json) :
    ExceptT Template.Fault (StateM Entity) String := do
  let entity ← get
  let fetched := SectionKind.all.filterMap fun kind =>
    (partOf entity kind).map fun markup => (kind, markup)
  let rendering ← formatter source projection fun kind => fetched.lookup kind
  rendering.dropped.forM fun kind => modify (Entity.removeSection kind)
  return rendering.text

theorem mem_all (kind : SectionKind) : kind ∈ SectionKind.all := by
  cases kind <;> decide

/-- Fetching all sections at first gives each of them. -/
theorem lookup_fetched (part : SectionKind → Option String) (kinds : List SectionKind)
    (kind : SectionKind) :
    (kinds.filterMap fun kind => (part kind).map fun markup => (kind, markup)).lookup kind =
      if kind ∈ kinds then part kind else none := by
  induction kinds with
  | nil => rfl
  | cons first rest ih =>
    rw [List.filterMap_cons]
    cases found : part first with
    | none =>
      by_cases same : kind = first
      · simp [same, found] at ih ⊢
        exact ih
      · simp [same, ih]
    | some markup =>
      by_cases same : kind = first
      · simp [same, found]
      · simp [same, List.lookup_cons, ih, beq_false_of_ne same]

theorem removeSections_run (kinds : List SectionKind) (entity : Entity) :
    (kinds.forM fun kind => (modify (Entity.removeSection kind) :
        ExceptT Template.Fault (StateM Entity) Unit)).run.run entity =
      (.ok (), kinds.foldl (fun entity kind => entity.removeSection kind) entity) := by
  induction kinds generalizing entity with
  | nil => rfl
  | cons kind rest ih => exact ih (entity.removeSection kind)

theorem dropSections_eq_foldl (kinds : List SectionKind) (entity : Entity) :
    entity.dropSections kinds = kinds.foldl (fun entity kind => entity.removeSection kind) entity := by
  induction kinds generalizing entity with
  | nil =>
    cases entity with
    | leaf => rfl
    | node tag children => exact congrArg (Entity.node tag) (Entity.dropParts_nil children)
  | cons kind rest ih =>
    rw [List.foldl_cons, ← ih]
    cases entity with
    | leaf => rfl
    | node tag children => exact congrArg (Entity.node tag) (Entity.dropParts_cons kind rest children)

theorem run_bind_of_ok {action : ExceptT Template.Fault (StateM Entity) α}
    {next : α → ExceptT Template.Fault (StateM Entity) β} {entity changed : Entity}
    (success : action.run.run entity = (.ok value, changed)) :
    (action >>= next).run.run entity = (next value).run.run changed := by
  rw [ExceptT.run_bind, StateT.run_bind, success]
  rfl

theorem inPlace_eq (formatter : Formatter) (source : String) (projection : Json) (entity : Entity) :
    (inPlace formatter source projection).run.run entity =
      match onEntity formatter source projection entity with
      | .ok (text, changed) => (.ok text, changed)
      | .error fault => (.error fault, entity) := by
  have fetched : (fun kind => (SectionKind.all.filterMap fun kind =>
      (partOf entity kind).map fun markup => (kind, markup)).lookup kind) = partOf entity := by
    funext kind
    rw [lookup_fetched, if_pos (mem_all kind)]
  let dropAll (rendering : Template.Rendering) : ExceptT Template.Fault (StateM Entity) String := do
    rendering.dropped.forM fun kind => modify (Entity.removeSection kind)
    return rendering.text
  have start : (inPlace formatter source projection).run.run entity =
      ((liftM (formatter source projection (partOf entity)) :
        ExceptT Template.Fault (StateM Entity) Template.Rendering) >>= dropAll).run.run entity := by
    rw [← fetched]
    rfl
  rw [start, onEntity]
  cases formatter source projection (partOf entity) with
  | error fault => rfl
  | ok rendering =>
    have removed := removeSections_run rendering.dropped entity
    rw [← dropSections_eq_foldl] at removed
    exact run_bind_of_ok removed

/-- A section that a call dropped. -/
def isDropped (exchanges : List Template.Exchange) (child : Entity) : Bool :=
  child.partKind?.any fun kind => exchanges.any fun exchange => exchange.dropped? = some kind

theorem contains_dropped (exchanges : List Template.Exchange) (kind : SectionKind) :
    (exchanges.filterMap Template.Exchange.dropped?).contains kind =
      exchanges.any fun exchange => exchange.dropped? = some kind := by
  rw [Bool.eq_iff_iff]
  simp

/-- If the sections of an entity are of distinct kinds, just those go that some call dropped. -/
theorem dropSections_of_distinct (exchanges : List Template.Exchange) {entity : Entity}
    (distinct : (entity.children.filterMap Entity.partKind?).Nodup) :
    entity.dropSections (exchanges.filterMap Template.Exchange.dropped?) =
      entity.withChildren (entity.children.filter fun child => !isDropped exchanges child) := by
  show entity.withChildren (Entity.dropParts _ entity.children) = _
  rw [Entity.dropParts_of_distinct _ distinct]
  refine congrArg entity.withChildren (List.filter_congr fun child _ => ?_)
  rw [isDropped]
  exact congrArg (fun dropped => !child.partKind?.any dropped) (funext (contains_dropped exchanges))

/-- A rendering is atomic on an entity whose sections are of distinct kinds, whatever engine renders. Every
rendering goes through some calls to its end or to a fault, and each call that fetches a section is given
its markup as it was before the rendering, to be written as it is. If the end is a fault, the entity is
unchanged. Otherwise the sections that were dropped by some call are gone, and nothing else. -/
theorem rendering_atomic (engine : TemplateEngine) (source : String) (projection : Json) (entity : Entity)
    (distinct : (entity.children.filterMap Entity.partKind?).Nodup) :
    let markup (kind : SectionKind) := (entity.section? kind).map Markup.write
    let rendered := (inPlace (ofEngine engine) source projection).run.run entity
    (∃ exchanges rest, (engine source projection).follow exchanges = some rest ∧
      (∀ exchange ∈ exchanges, exchange.Served markup) ∧ (rest.output?.isSome ∨ rest.fault?.isSome)) ∧
    ∀ exchanges rest, (engine source projection).follow exchanges = some rest →
      (∀ exchange ∈ exchanges, exchange.Served markup) →
      (∀ exchange ∈ exchanges, exchange.function = .fetch → ∃ kind,
        Template.partNamed exchange.argument = .ok kind ∧
          ∀ escape, Template.shown escape exchange.reply = (markup kind).getD "") ∧
      (∀ fault, rest.fault? = some fault → rendered = (.error fault, entity)) ∧
      ∀ output, rest.output? = some output → rendered = (.ok output,
        entity.withChildren (entity.children.filter fun child => !isDropped exchanges child)) := by
  intro markup rendered
  refine ⟨Template.Dialogue.exists_follow markup _, fun exchanges rest followed served => ?_⟩
  have renders : rendered = match onEntity (ofEngine engine) source projection entity with
      | .ok (text, changed) => (.ok text, changed)
      | .error fault => (.error fault, entity) :=
    inPlace_eq (ofEngine engine) source projection entity
  have whole : ofEngine engine source projection (partOf entity) = _ :=
    Template.Dialogue.serve_of_follow followed served
  rw [onEntity, whole] at renders
  refine ⟨fun exchange member fetched => ?_, fun fault fails => ?_, fun output ends => ?_⟩
  · obtain ⟨kind, named, reply⟩ := served exchange member
    refine ⟨kind, named, fun escape => ?_⟩
    rw [reply, fetched]
    rfl
  · rw [renders, Template.Dialogue.serve_of_fault? fails]
    rfl
  · rw [renders, Template.Dialogue.serve_of_output? ends]
    simp only [Except.map, bind, Except.bind, pure, Except.pure, List.append_nil]
    rw [dropSections_of_distinct exchanges distinct]

/-- Two sections and some text in between. -/
def swapEntity : Entity :=
  .node (.declaration 1 "" {}) [.part .brief [.paragraph [.text "Swaps values"]],
    .paragraph [.text "See also"], .part .effects [.paragraph [.text "Exchanges values"]]]

/-- Drops a section and shows it. -/
def droppedSource : String :=
  "\x7b\x7b drop('brief') \x7d\x7d\x7b\x7b section('brief') \x7d\x7d"

/-- Drops a section and fails. -/
def failingSource : String :=
  "\x7b\x7b drop('brief') \x7d\x7d\x7b\x7b section('nope') \x7d\x7d"

/-- What the calls of the first template are given. -/
def droppedExchanges : List Template.Exchange :=
  [⟨.drop, "brief", .text "" true⟩, ⟨.fetch, "brief", .text "Swaps values" true⟩]

theorem rendering_atomic_swap :
    (swapEntity.children.filterMap Entity.partKind?).Nodup ∧
      (inPlace template droppedSource (.object [])).run.run swapEntity =
        (.ok "Swaps values", .node (.declaration 1 "" {}) [.paragraph [.text "See also"],
          .part .effects [.paragraph [.text "Exchanges values"]]]) ∧
      ((inPlace template failingSource (.object [])).run.run swapEntity).2 = swapEntity := by
  have distinct : (swapEntity.children.filterMap Entity.partKind?).Nodup := by decide
  have dropped := (rendering_atomic .standard droppedSource (.object []) swapEntity distinct).2
  have failed := (rendering_atomic .standard failingSource (.object []) swapEntity distinct).2
  have brief : Template.partNamed "brief" = .ok .brief := rfl
  have served : ∀ exchange ∈ droppedExchanges,
      exchange.Served fun kind => (swapEntity.section? kind).map Markup.write := by
    have markup : ((swapEntity.section? .brief).map Markup.write).getD "" = "Swaps values" := by
      decide
    refine List.forall_mem_cons.mpr ⟨⟨.brief, brief, rfl⟩, List.forall_mem_cons.mpr ⟨?_, nofun⟩⟩
    exact ⟨.brief, brief, congrArg (fun markup => Template.Value.text markup true) markup.symm⟩
  have rendered : ((TemplateEngine.standard droppedSource (.object [])).follow droppedExchanges).bind
      Template.Dialogue.output? = some "Swaps values" := by
    decide +kernel
  have unrendered : ((TemplateEngine.standard failingSource (.object [])).follow
      (droppedExchanges.take 1)).bind Template.Dialogue.fault? = some (.unknownSection "nope") := by
    decide +kernel
  obtain ⟨rest, followed, ends⟩ := Option.bind_eq_some_iff.mp rendered
  obtain ⟨left, reached, fails⟩ := Option.bind_eq_some_iff.mp unrendered
  have started : ∀ exchange ∈ droppedExchanges.take 1,
      exchange.Served fun kind => (swapEntity.section? kind).map Markup.write :=
    fun exchange member => served exchange (List.mem_of_mem_take member)
  exact ⟨distinct, (dropped _ _ followed served).2.2 _ ends,
    congrArg Prod.snd ((failed _ _ reached started).2.1 _ fails)⟩

end DocComment.Formatter
