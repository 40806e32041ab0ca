import DocComment.Proofs.Pass.Links
import DocComment.Proofs.Markup.Tree
import Mathlib.Logic.Relation

/-! Text for a link can have links in it that have no text, and these are filled as well. The filling ends
if every target opens up only so many targets in a row. -/
namespace DocComment

/-- The targets of the links without text, in preorder. -/
def Entity.bareTargets (entity : Entity) : List LinkTarget :=
  (entity.links.filter (·.bare)).map (·.target)

theorem Entity.mem_bareTargets {entity : Entity} {target : LinkTarget} :
    target ∈ entity.bareTargets ↔ ⟨target, true⟩ ∈ entity.links := by
  simp only [bareTargets, List.mem_map, List.mem_filter]
  constructor
  · rintro ⟨⟨_, _⟩, ⟨among, rfl⟩, rfl⟩
    exact among
  · exact fun among => ⟨_, ⟨among, rfl⟩, rfl⟩

/-- A link without text is the node itself or below it. -/
theorem Entity.mem_bareTargets_node {tag : Tag} {children : List Entity} {target : LinkTarget} :
    target ∈ (Entity.node tag children).bareTargets ↔
      (∃ title, tag = .link target title) ∧ children = [] ∨
        ∃ child ∈ children, target ∈ child.bareTargets := by
  simp only [mem_bareTargets, links_node, List.mem_append, List.mem_flatMap]
  refine or_congr_left ?_
  cases tag with
  | link own title =>
    have empty : true = children.isEmpty ↔ children = [] := by rw [eq_comm, List.isEmpty_iff]
    simp [link?, empty, @eq_comm _ own]
  | _ => simp [link?]

theorem Entity.bareTargets_of_child {tag : Tag} {children : List Entity} {child : Entity}
    {target : LinkTarget} (member : child ∈ children) (bare : target ∈ child.bareTargets) :
    target ∈ (Entity.node tag children).bareTargets :=
  mem_bareTargets.mpr (links_of_child member (mem_bareTargets.mp bare))

theorem Entity.mem_bareTargets_link (target : LinkTarget) (title : String) :
    target ∈ (Entity.node (.link target title) []).bareTargets :=
  mem_bareTargets.mpr (link_mem_links target title [])

namespace LinkText

section Depth

variable {text deeper : LinkTarget → Progress → Option (List Entity) × Progress}

theorem fillAll_of_failed {progress : Progress} (failed : progress.failure ≠ none)
    (entities : List Entity) : fillAll text progress entities = (entities, progress) :=
  fillAll_unchanged fun entity _ => fill_of_failed failed entity

/-- What fails by the end of the rest, if it fails before. -/
theorem fillAll_cons_shallow {progress : Progress} {entity : Entity} {rest : List Entity}
    (shallow : (fillAll text progress (entity :: rest)).2.failure ≠ some .tooDeep) :
    (fill text progress entity).2.failure ≠ some .tooDeep := by
  intro deep
  have failed : (fill text progress entity).2.failure ≠ none := by rw [deep]; nofun
  have later : (fillAll text progress (entity :: rest)).2 = (fill text progress entity).2 :=
    congrArg Prod.snd (fillAll_of_failed failed rest)
  exact shallow (later ▸ deep)

theorem fillAll_deeper {entities : List Entity}
    (each : ∀ entity ∈ entities, ∀ progress, (fill text progress entity).2.failure ≠ some .tooDeep →
      fill deeper progress entity = fill text progress entity)
    {progress : Progress} (shallow : (fillAll text progress entities).2.failure ≠ some .tooDeep) :
    fillAll deeper progress entities = fillAll text progress entities := by
  induction entities generalizing progress with
  | nil => rfl
  | cons entity rest ih =>
    have own := each entity List.mem_cons_self progress (fillAll_cons_shallow shallow)
    have later := ih (fun other member => each other (List.mem_cons_of_mem _ member)) shallow
    simp only [fillAll, own, later]

theorem fill_deeper
    (agree : ∀ target progress, (text target progress).2.failure ≠ some .tooDeep →
      deeper target progress = text target progress)
    {entity : Entity} {progress : Progress}
    (shallow : (fill text progress entity).2.failure ≠ some .tooDeep) :
    fill deeper progress entity = fill text progress entity := by
  induction entity using Entity.treeInduction generalizing progress with
  | leaf => rfl
  | node tag children ih =>
    rw [fill_node, fill_node]
    rw [fill_node] at shallow
    cases missing : missing? progress tag children with
    | some target =>
      rw [missing] at shallow
      dsimp only
      rw [agree target progress shallow]
    | none =>
      rw [missing] at shallow
      dsimp only
      rw [fillAll_deeper (fun child member progress => ih child member) shallow]

end Depth

variable {synthesis : Synthesis} {templates : LinkTemplates} {known : Known}

theorem filledText_deeper {depth deeper : Nat} (further : depth ≤ deeper) {target : LinkTarget}
    {progress : Progress}
    (shallow : (filledText synthesis templates known depth target progress).2.failure ≠ some .tooDeep) :
    filledText synthesis templates known deeper target progress =
      filledText synthesis templates known depth target progress := by
  induction depth generalizing deeper target progress with
  | zero => exact absurd rfl shallow
  | succ depth ih =>
    obtain ⟨deeper, rfl⟩ : ∃ less, deeper = less + 1 := ⟨deeper - 1, by omega⟩
    rcases made : textOf synthesis templates known target progress with ⟨_ | content, after⟩
    · rw [filledText_of_none made, filledText_of_none made]
    · rw [filledText_of_some made] at shallow ⊢
      have same := fillAll_deeper (fun entity _ progress => fill_deeper fun target progress =>
        ih (Nat.le_of_succ_le_succ further)) shallow
      rw [filledText_of_some made, same]

theorem runWithin_deeper {depth deeper : Nat} (further : depth ≤ deeper) {entity : Entity}
    {run : PassRun} (found : runWithin synthesis templates known depth entity = some run) :
    runWithin synthesis templates known deeper entity = some run := by
  have shallow := runWithin_isSome.mp (Option.isSome_iff_exists.mpr ⟨run, found⟩)
  have same := fill_deeper (fun target progress => filledText_deeper (Nat.succ_le_succ further)) shallow
  rw [runWithin] at found ⊢
  rw [same]
  exact found

/-- Whether there is a run however deep text in text gets. -/
def Ends (synthesis : Synthesis) (templates : LinkTemplates) (known : Known) (entity : Entity) : Prop :=
  ∃ depth, (runWithin synthesis templates known depth entity).isSome = true

/-- Two runs agree: both are the run within the larger depth. -/
theorem runWithin_unique {depth other : Nat} {entity : Entity} {run again : PassRun}
    (found : runWithin synthesis templates known depth entity = some run)
    (foundAgain : runWithin synthesis templates known other entity = some again) : run = again := by
  have first := runWithin_deeper (Nat.le_max_left depth other) found
  have second := runWithin_deeper (Nat.le_max_right depth other) foundAgain
  exact Option.some.inj (first.symm.trans second)

/-- Where some depth is enough, the search finds one. -/
theorem runWithin_depthFrom {start enough : Nat} (positive : 0 < start) {entity : Entity}
    {run : PassRun} (found : runWithin synthesis templates known enough entity = some run) :
    (runWithin synthesis templates known (depthFrom synthesis templates known start entity)
      entity).isSome = true := by
  rw [depthFrom_eq]
  split
  · assumption
  · rename_i shallow
    have further : start < enough := by
      by_contra deeper
      rw [runWithin_deeper (Nat.le_of_not_lt deeper) found] at shallow
      exact shallow rfl
    exact runWithin_depthFrom (by omega) found
termination_by enough - start

/-- A pass over an entity is the run within any depth that is enough. -/
theorem apply_of_runWithin {depth : Nat} {entity : Entity} {run : PassRun}
    (found : runWithin synthesis templates known depth entity = some run) :
    apply synthesis templates known entity = run := by
  unfold apply
  split
  · rename_i other own
    exact runWithin_unique own found
  · have enough := runWithin_depthFrom (by decide : 0 < vastDepth) found
    obtain ⟨other, own⟩ := Option.isSome_iff_exists.mp enough
    rw [own]
    exact runWithin_unique own found

/-- A text that keeps what holds of the failure. -/
def Keeps (text : LinkTarget → Progress → Option (List Entity) × Progress)
    (holds : Option Fault → Prop) (target : LinkTarget) : Prop :=
  ∀ progress, holds progress.failure → holds (text target progress).2.failure

section Keeps

variable {text : LinkTarget → Progress → Option (List Entity) × Progress} {holds : Option Fault → Prop}

theorem fillAll_keeps {entities : List Entity}
    (each : ∀ entity ∈ entities, ∀ progress : Progress, holds progress.failure →
      holds (fill text progress entity).2.failure)
    {progress : Progress} (before : holds progress.failure) :
    holds (fillAll text progress entities).2.failure := by
  induction entities generalizing progress with
  | nil => exact before
  | cons entity rest ih =>
    exact ih (fun other member => each other (List.mem_cons_of_mem _ member))
      (each entity List.mem_cons_self progress before)

theorem fill_keeps {entity : Entity} (keeps : ∀ target ∈ entity.bareTargets, Keeps text holds target)
    {progress : Progress} (before : holds progress.failure) :
    holds (fill text progress entity).2.failure := by
  induction entity using Entity.treeInduction generalizing progress with
  | leaf => exact before
  | node tag children ih =>
    rw [fill_node]
    split
    · rename_i target found
      obtain ⟨⟨title, rfl⟩, rfl, _⟩ := missing?_eq_some found
      exact keeps target (Entity.mem_bareTargets_link target title) progress before
    · exact fillAll_keeps (fun child member progress => ih child member fun target bare =>
        keeps target (Entity.bareTargets_of_child member bare)) before

theorem fillAll_visits {entities : List Entity} {progress : Progress}
    (fine : (fillAll text progress entities).2.failure = none) {entity : Entity}
    (member : entity ∈ entities) :
    ∃ before : Progress, (fill text before entity).2.failure = none := by
  induction entities generalizing progress with
  | nil => cases member
  | cons first rest ih =>
    rcases List.mem_cons.mp member with same | later
    · exact ⟨progress, same ▸ failure_of_fillAll fine⟩
    · exact ih fine later

/-- Where nothing fails every link without text is filled, and its text does not fail. -/
theorem fill_visits {entity : Entity} {progress : Progress}
    (fine : (fill text progress entity).2.failure = none) :
    ∀ target ∈ entity.bareTargets, ∃ before : Progress, before.failure = none ∧
      (text target before).2.failure = none := by
  induction entity using Entity.treeInduction generalizing progress with
  | leaf => simp [Entity.bareTargets, Entity.links, Entity.preorder, Entity.link?]
  | node tag children ih =>
    intro target bare
    rw [fill_node] at fine
    cases missing : missing? progress tag children with
    | some own =>
      rw [missing] at fine
      obtain ⟨⟨title, rfl⟩, rfl, before⟩ := missing?_eq_some missing
      obtain ⟨⟨_, same⟩, _⟩ | ⟨child, member, _⟩ := Entity.mem_bareTargets_node.mp bare
      · cases same
        exact ⟨progress, before, fine⟩
      · cases member
    | none =>
      rw [missing] at fine
      obtain ⟨⟨title, rfl⟩, rfl⟩ | ⟨child, member, among⟩ := Entity.mem_bareTargets_node.mp bare
      · simp [missing?, failure_of_fillAll fine] at missing
      · obtain ⟨_, still⟩ := fillAll_visits fine member
        exact ih child member still target among

end Keeps

/-- The links without text in the text for a target. -/
def opened (synthesis : Synthesis) (templates : LinkTemplates) (known : Known) (target : LinkTarget) :
    List LinkTarget :=
  ((textOf synthesis templates known target {}).1.getD []).flatMap Entity.bareTargets

/-- A target that opens up only so many targets in a row. -/
def Grounded (synthesis : Synthesis) (templates : LinkTemplates) (known : Known)
    (target : LinkTarget) : Prop :=
  Acc (fun inner outer => inner ∈ opened synthesis templates known outer) target

/-- What a target opens up, and what that opens up, and so on. -/
def Reaches (synthesis : Synthesis) (templates : LinkTemplates) (known : Known)
    (target inner : LinkTarget) : Prop :=
  Relation.ReflTransGen (fun outer inner => inner ∈ opened synthesis templates known outer) target inner

/-- The text does not depend on the progress. -/
theorem textOf_content (target : LinkTarget) (progress : Progress) :
    (textOf synthesis templates known target progress).1 =
      (textOf synthesis templates known target {}).1 := by
  unfold textOf
  dsimp only
  split
  · rfl
  · split
    · rfl
    · split <;> rfl

theorem mem_opened {target inner : LinkTarget} {progress after : Progress} {content : List Entity}
    (made : textOf synthesis templates known target progress = (some content, after)) :
    inner ∈ opened synthesis templates known target ↔ ∃ entity ∈ content, inner ∈ entity.bareTargets := by
  rw [opened, ← textOf_content target progress, made]
  exact List.mem_flatMap

/-- Text by itself never gets too deep. -/
theorem textOf_shallow (target : LinkTarget) :
    Keeps (textOf synthesis templates known) (· ≠ some .tooDeep) target := by
  intro progress before
  unfold textOf
  dsimp only
  split
  · exact before
  · split
    · exact before
    · split
      · exact before
      · nofun

variable {holds : Option Fault → Prop}

/-- What is kept at a depth that is enough is kept at every larger one. -/
theorem Keeps.deeper (shallow : ∀ failure, holds failure → failure ≠ some .tooDeep)
    {target : LinkTarget} {depth deeper : Nat} (further : depth ≤ deeper)
    (keeps : Keeps (filledText synthesis templates known depth) holds target) :
    Keeps (filledText synthesis templates known deeper) holds target := by
  intro progress before
  have after := keeps progress before
  rw [filledText_deeper further (shallow _ after)]
  exact after

/-- One depth is enough for finitely many targets. -/
theorem exists_depth (shallow : ∀ failure, holds failure → failure ≠ some .tooDeep)
    {targets : List LinkTarget}
    (each : ∀ target ∈ targets, ∃ depth, Keeps (filledText synthesis templates known depth) holds target) :
    ∃ depth, ∀ target ∈ targets, Keeps (filledText synthesis templates known depth) holds target := by
  induction targets with
  | nil => exact ⟨0, nofun⟩
  | cons target rest ih =>
    obtain ⟨first, own⟩ := each target List.mem_cons_self
    obtain ⟨second, later⟩ := ih fun other member => each other (List.mem_cons_of_mem _ member)
    refine ⟨max first second, fun other member => ?_⟩
    rcases List.mem_cons.mp member with rfl | among
    · exact own.deeper shallow (Nat.le_max_left first second)
    · exact (later other among).deeper shallow (Nat.le_max_right first second)

/-- At some depth the text for a grounded target keeps whatever the texts do that are reached. -/
theorem Grounded.keeps (shallow : ∀ failure, holds failure → failure ≠ some .tooDeep)
    {target : LinkTarget} (grounded : Grounded synthesis templates known target)
    (own : ∀ inner, Reaches synthesis templates known target inner →
      Keeps (textOf synthesis templates known) holds inner) :
    ∃ depth, Keeps (filledText synthesis templates known depth) holds target := by
  induction grounded with
  | intro target _ ih =>
    have each : ∀ inner ∈ opened synthesis templates known target,
        ∃ depth, Keeps (filledText synthesis templates known depth) holds inner := by
      intro inner among
      exact ih inner among fun other reached => own other (.head among reached)
    obtain ⟨depth, inside⟩ := exists_depth shallow each
    refine ⟨depth + 1, fun progress before => ?_⟩
    have after := own target .refl progress before
    rcases made : textOf synthesis templates known target progress with ⟨_ | content, stop⟩
    · rw [filledText_of_none made]
      rw [made] at after
      exact after
    · rw [filledText_of_some made]
      rw [made] at after
      exact fillAll_keeps (fun entity member progress => fill_keeps fun inner bare =>
        inside inner ((mem_opened made).mpr ⟨entity, member, bare⟩)) after

/-- A target whose text does not fail, at any depth, is grounded, and no text fails that is reached. -/
theorem grounded_of_fine {depth : Nat} {target : LinkTarget} {before : Progress}
    (start : before.failure = none)
    (fine : (filledText synthesis templates known depth target before).2.failure = none) :
    Grounded synthesis templates known target ∧
      ∀ inner, Reaches synthesis templates known target inner →
        (textOf synthesis templates known inner {}).2.failure = none := by
  induction depth generalizing target before with
  | zero => cases fine
  | succ depth ih =>
    have own := (textOf_gives synthesis templates known target before start).2
    obtain ⟨own, inside⟩ : (textOf synthesis templates known target {}).2.failure = none ∧
        ∀ inner ∈ opened synthesis templates known target,
          Grounded synthesis templates known inner ∧ ∀ other,
            Reaches synthesis templates known inner other →
              (textOf synthesis templates known other {}).2.failure = none := by
      rcases made : textOf synthesis templates known target before with ⟨_ | content, after⟩
      · rw [filledText_of_none made] at fine
        have nothing : opened synthesis templates known target = [] := by
          rw [opened, ← textOf_content target before, made]
          rfl
        rw [made] at own
        exact ⟨own.symm.trans fine, by simp [nothing]⟩
      · rw [filledText_of_some made] at fine
        rw [made] at own
        refine ⟨own.symm.trans (failure_of_fillAll fine), fun inner among => ?_⟩
        obtain ⟨entity, member, bare⟩ := (mem_opened made).mp among
        obtain ⟨_, visited⟩ := fillAll_visits fine member
        obtain ⟨_, begins, ends⟩ := fill_visits visited inner bare
        exact ih begins ends
    refine ⟨.intro target fun inner among => (inside inner among).1, fun inner reached => ?_⟩
    obtain rfl | ⟨next, among, later⟩ := Relation.ReflTransGen.cases_head reached
    · exact own
    · exact (inside next among).2 inner later

variable {entity : Entity}

theorem ends_of_grounded
    (grounded : ∀ target ∈ entity.bareTargets, Grounded synthesis templates known target) :
    Ends synthesis templates known entity := by
  obtain ⟨depth, shallow⟩ := exists_depth (fun _ => id) fun target bare =>
    (grounded target bare).keeps (fun _ => id) fun inner _ => textOf_shallow inner
  have enough : ∀ target ∈ entity.bareTargets,
      Keeps (filledText synthesis templates known (depth + 1)) (· ≠ some .tooDeep) target :=
    fun target bare => (shallow target bare).deeper (fun _ => id) (Nat.le_succ depth)
  exact ⟨depth, runWithin_isSome.mpr (fill_keeps enough nofun)⟩

/-- Nothing fails if and only if the links without text are grounded and no text fails that is
reached. -/
theorem apply_failure :
    (apply synthesis templates known entity).failure = none ↔
      ∀ target ∈ entity.bareTargets, Grounded synthesis templates known target ∧
        ∀ inner, Reaches synthesis templates known target inner →
          (textOf synthesis templates known inner {}).2.failure = none := by
  constructor
  · intro fine target bare
    obtain ⟨depth, _, complete⟩ := apply_fine fine
    obtain ⟨_, start, own⟩ := fill_visits complete target bare
    exact grounded_of_fine start own
  · intro each
    have shallow (failure : Option Fault) (fine : failure = none) : failure ≠ some .tooDeep := by
      rw [fine]
      nofun
    obtain ⟨depth, complete⟩ := exists_depth shallow fun target bare => by
      obtain ⟨grounded, texts⟩ := each target bare
      refine grounded.keeps shallow fun inner reached progress fine => ?_
      exact (textOf_gives synthesis templates known inner progress fine).2.trans (texts inner reached)
    have fine := fill_keeps (fun target bare => (complete target bare).deeper shallow (Nat.le_succ depth))
      (rfl : ({} : Progress).failure = none)
    obtain ⟨run, found⟩ := Option.isSome_iff_exists.mp (runWithin_isSome.mpr (shallow _ fine))
    rw [apply_of_runWithin found]
    exact (runWithin_eq_some found).2.mpr fine

/-- A target as markup has it: an address, or something that is to be looked up. -/
def isWritten : LinkTarget → Bool
  | .uri _ | .unresolved _ => true
  | _ => false

/-- All links of an entity are as in markup. -/
def Written (entity : Entity) : Prop :=
  ∀ link ∈ entity.links, isWritten link.target = true

theorem written_leaf (content : Leaf) : Written (.leaf content) := by
  simp [Written, Entity.links, Entity.preorder, Entity.link?]

theorem written_node {tag : Tag} {children : List Entity}
    (own : ∀ link, (Entity.node tag children).link? = some link → isWritten link.target = true)
    (below : ∀ child ∈ children, Written child) : Written (.node tag children) := by
  intro link among
  rw [Entity.links_node, List.mem_append, Option.mem_toList, List.mem_flatMap] at among
  obtain found | ⟨child, member, inside⟩ := among
  · exact own link found
  · exact below child member link inside

theorem linkEntity_written (destination title : String) (children : List Entity)
    (below : ∀ child ∈ children, Written child) :
    Written (Markup.linkEntity destination title children) := by
  unfold Markup.linkEntity
  split
  · exact written_node (by simp [Entity.link?, isWritten]) below
  · split
    · exact written_node (by simp [Entity.link?, isWritten]) below
    · split
      · refine written_node (by simp [Entity.link?, isWritten]) fun child member => ?_
        rw [List.mem_singleton.mp member]
        exact written_leaf _
      · exact written_node (by simp [Entity.link?, isWritten]) below

theorem closeOpening_written (opening : Markup.Opening) (children : List Entity)
    (below : ∀ child ∈ children, Written child) :
    ∀ entity ∈ Markup.closeOpening opening children, Written entity := by
  intro entity member
  cases opening with
  | transparent => exact below entity member
  | codeBlock info => rw [List.mem_singleton.mp member]; exact written_leaf _
  | link destination title =>
    rw [List.mem_singleton.mp member]; exact linkEntity_written destination title children below
  | _ => rw [List.mem_singleton.mp member]; exact written_node (by simp [Entity.link?]) below

theorem read_written (text : String) : ∀ entity ∈ Markup.read text, Written entity :=
  Markup.forall_treeOf written_leaf closeOpening_written _

theorem inlineContent_written {blocks : List Entity} (written : ∀ block ∈ blocks, Written block) :
    ∀ entity ∈ inlineContent blocks, Written entity := by
  intro entity member
  obtain ⟨block, present, inside⟩ := List.mem_flatMap.mp member
  have own := written block present
  split at inside
  · exact fun link among => own link (Entity.links_of_child inside among)
  · exact fun link among => own link (Entity.links_of_child inside among)
  · split at inside
    · rw [List.mem_singleton.mp inside]
      exact written_leaf _
    · rw [List.mem_singleton.mp inside]
      exact own

variable {source : SourceTree} {formatter : Formatter}

/-- Only targets as in markup are opened up. -/
theorem opened_written {target inner : LinkTarget}
    (among : inner ∈ opened ⟨source, Markup.read, formatter⟩ templates known target) :
    isWritten inner = true := by
  have content : ∀ entity ∈
      (textOf ⟨source, Markup.read, formatter⟩ templates known target {}).1.getD [], Written entity := by
    unfold textOf
    dsimp only
    split
    · nofun
    · split
      · nofun
      · split
        · rename_i rendered _
          rw [Option.getD_some]
          exact inlineContent_written (read_written rendered)
        · nofun
  obtain ⟨entity, member, bare⟩ := List.mem_flatMap.mp among
  exact content entity member _ (Entity.mem_bareTargets.mp bare)

/-- Where there are no templates for addresses and for what is not resolved, every target is grounded:
the links in its text get none. -/
theorem grounded_of_blank (uri : (Text.stripped templates.uri).isEmpty = true)
    (unresolved : (Text.stripped templates.unresolved).isEmpty = true) (target : LinkTarget) :
    Grounded ⟨source, Markup.read, formatter⟩ templates known target := by
  have silent (inner : LinkTarget) (written : isWritten inner = true) :
      opened ⟨source, Markup.read, formatter⟩ templates known inner = [] := by
    cases inner with
    | uri => simp [opened, textOf, LinkTemplates.template, uri]
    | unresolved => simp [opened, textOf, LinkTemplates.template, unresolved]
    | _ => cases written
  refine .intro target fun inner among => .intro inner fun other next => ?_
  rw [silent inner (opened_written among)] at next
  cases next

/-- Filling in the text of links ends if there are no templates for addresses and for what is not
resolved, as by default, and wherever the targets of the links without text are grounded. It fails nowhere
if and only if they are, and no text fails that is reached from them. The depth that is enough does not
matter. -/
theorem fill_ends (source : SourceTree) (formatter : Formatter) (templates : LinkTemplates)
    (known : Known) (entity : Entity) :
    let synthesis : Synthesis := ⟨source, Markup.read, formatter⟩
    ((Text.stripped templates.uri).isEmpty = true → (Text.stripped templates.unresolved).isEmpty = true →
      Ends synthesis templates known entity) ∧
    ((∀ target ∈ entity.bareTargets, Grounded synthesis templates known target) →
      Ends synthesis templates known entity) ∧
    ((apply synthesis templates known entity).failure = none ↔
      ∀ target ∈ entity.bareTargets, Grounded synthesis templates known target ∧
        ∀ inner, Reaches synthesis templates known target inner →
          (textOf synthesis templates known inner {}).2.failure = none) ∧
    (∀ depth run, runWithin synthesis templates known depth entity = some run →
      apply synthesis templates known entity = run) := by
  intro synthesis
  refine ⟨fun uri unresolved => ?_, ends_of_grounded, apply_failure, fun depth run => apply_of_runWithin⟩
  exact ends_of_grounded fun target _ => grounded_of_blank uri unresolved target

/-- A file with one function. -/
def linkedTree : SourceTree :=
  ({} : SourceTree).addFile "a.hpp" |>.add 0 .function "swap"

/-- Texts that are links without text, down to what is not resolved. -/
def chainTemplates : LinkTemplates :=
  { declaration := "[](x)", uri := "[](<> \"y\")", unresolved := "y" }

theorem fill_ends_chain :
    (∀ target ∈ (Entity.node (.link (.declarationRef 1) "") []).bareTargets,
      Grounded ⟨linkedTree, Markup.read, Formatter.template⟩ chainTemplates {} target) ∧
    Ends ⟨linkedTree, Markup.read, Formatter.template⟩ chainTemplates {}
      (.node (.link (.declarationRef 1) "") []) := by
  have last : opened ⟨linkedTree, Markup.read, Formatter.template⟩ chainTemplates {}
      (.unresolved "y") = [] := by
    decide
  have second : opened ⟨linkedTree, Markup.read, Formatter.template⟩ chainTemplates {} (.uri "x") =
      [.unresolved "y"] := by
    decide +kernel
  have first : opened ⟨linkedTree, Markup.read, Formatter.template⟩ chainTemplates {}
      (.declarationRef 1) = [.uri "x"] := by
    decide +kernel
  have grounded : ∀ target ∈ (Entity.node (.link (.declarationRef 1) "") []).bareTargets,
      Grounded ⟨linkedTree, Markup.read, Formatter.template⟩ chainTemplates {} target := by
    intro target bare
    obtain ⟨⟨_, same⟩, _⟩ | ⟨_, member, _⟩ := Entity.mem_bareTargets_node.mp bare
    · cases same
      refine .intro _ fun uri among => .intro _ fun raw next => .intro _ fun other more => ?_
      rw [first, List.mem_singleton] at among
      subst among
      rw [second, List.mem_singleton] at next
      subst next
      rw [last] at more
      cases more
    · cases member
  exact ⟨grounded,
    (fill_ends linkedTree Formatter.template chainTemplates {} (.node (.link (.declarationRef 1) "") [])).2.1
      grounded⟩

theorem fill_bare (text : LinkTarget → Progress → Option (List Entity) × Progress) {progress : Progress}
    (start : progress.failure = none) (target : LinkTarget) (title : String) :
    (fill text progress (.node (.link target title) [])).2 = (text target progress).2 := by
  have missing : missing? progress (.link target title) [] = some target := by simp [missing?, start]
  rw [fill_node, missing]

/-- A link whose text is a link like it never has its text. -/
theorem not_ends_of_self {target : LinkTarget} {title : String}
    (content : (textOf synthesis templates known target {}).1 = some [.node (.link target title) []])
    (fine : (textOf synthesis templates known target {}).2.failure = none) :
    ¬ Ends synthesis templates known (.node (.link target title) []) := by
  have deep (depth : Nat) (progress : Progress) (start : progress.failure = none) :
      (filledText synthesis templates known depth target progress).2.failure = some .tooDeep := by
    induction depth generalizing progress with
    | zero => rfl
    | succ depth ih =>
      have still := (textOf_gives synthesis templates known target progress start).2
      have same := (textOf_content target progress).trans content
      rcases made : textOf synthesis templates known target progress with ⟨written, after⟩
      rw [made] at still same
      cases same
      have inside := fill_bare (filledText synthesis templates known depth) (still.trans fine) target title
      rw [filledText_of_some made]
      exact (congrArg Progress.failure inside).trans (ih after (still.trans fine))
  intro ends
  obtain ⟨depth, found⟩ := ends
  exact runWithin_isSome.mp found ((congrArg Progress.failure (fill_bare _ rfl target title)).trans
    (deep (depth + 1) {} rfl))

/-- The text for an address is a link to the same address, and is without text as well. -/
theorem self_reference_never_ends :
    ¬ Ends ⟨{}, Markup.read, Formatter.template⟩ { uri := "[](x)" } {}
      (.node (.link (.uri "x") "") []) :=
  not_ends_of_self (by decide +kernel) (by decide +kernel)

end LinkText

end DocComment
