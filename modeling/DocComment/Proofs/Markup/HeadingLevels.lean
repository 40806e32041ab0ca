import DocComment.Proofs.Markup.InlineBuilds
import DocComment.Proofs.Markup.Tree

/-! The headings that are read have one of six levels. What holds for every block that lines are read as, and
for a container of such blocks, is followed through the states of the reader. -/
namespace DocComment.Markup

/-- A property of the blocks that lines can be read as, and of containers if it is one of all in them. -/
structure Hereditary (holds : Block → Prop) : Prop where
  paragraph (text : List Char) : holds (.paragraph text)
  heading {level : Nat} (text : List Char) (positive : 1 ≤ level) (atMost : level ≤ 6) : holds (.heading level text)
  rule : holds .rule
  code (info text : List Char) : holds (.code info text)
  html (text : List Char) : holds (.html text)
  quote {children : List Block} (below : ∀ child ∈ children, holds child) : holds (.quote children)
  list (ordered tight : Bool) {items : List Block} (below : ∀ item ∈ items, holds item) :
    holds (.list ordered tight items)
  item {children : List Block} (below : ∀ child ∈ children, holds child) : holds (.item children)

theorem headingLevel?_range {text : List Char} {level : Nat} (found : headingLevel? text = some level) :
    1 ≤ level ∧ level ≤ 6 := by
  unfold headingLevel? at found
  dsimp only at found
  split at found
  · rename_i range
    have bounds : 1 ≤ runLength '#' text ∧ runLength '#' text ≤ 6 := by simpa using range
    split at found
    · cases found
      exact bounds
    · split at found <;> cases found
      exact bounds
  · cases found

theorem underlineLevel?_range {text : List Char} {level : Nat} (found : underlineLevel? text = some level) :
    1 ≤ level ∧ level ≤ 6 := by
  unfold underlineLevel? at found
  split at found
  · split at found <;> cases found
    split <;> decide
  · cases found

theorem paragraphRest_range {containers : List Container} {lines : List Line} {level : Nat}
    (found : (paragraphRest containers lines).underline = some level) : 1 ≤ level ∧ level ≤ 6 := by
  induction lines with
  | nil => cases found
  | cons line rest ih =>
    unfold paragraphRest at found
    dsimp only at found
    split at found
    · rename_i underlined
      cases found
      split at underlined
      · exact underlineLevel?_range underlined
      · cases underlined
    · split at found
      · cases found
      · exact ih found

namespace BlockState

variable {holds : Block → Prop} {state : BlockState}

/-- The property holds for the finished blocks and for those in open containers. -/
structure Sound (holds : Block → Prop) (state : BlockState) : Prop where
  blocks : ∀ block ∈ state.blocks, holds block
  spine : ∀ inner ∈ state.spine, ∀ child ∈ inner.children, holds child

theorem Sound.append (sound : Sound holds state) {block : Block} (added : holds block) :
    Sound holds (state.append block) := by
  obtain ⟨blocks, spine, definitions, lastBlank, emptyItem⟩ := state
  cases spine with
  | nil => exact ⟨List.forall_mem_cons.mpr ⟨added, sound.blocks⟩, sound.spine⟩
  | cons inner outer =>
    obtain ⟨own, others⟩ := List.forall_mem_cons.mp sound.spine
    exact ⟨sound.blocks, List.forall_mem_cons.mpr ⟨List.forall_mem_cons.mpr ⟨added, own⟩, others⟩⟩

theorem Sound.enter (sound : Sound holds state) (container : Container) :
    Sound holds (state.enter container) :=
  ⟨sound.blocks, List.forall_mem_cons.mpr ⟨by simp, sound.spine⟩⟩

theorem finished_holds (hereditary : Hereditary holds) {inner : OpenContainer}
    (below : ∀ child ∈ inner.children, holds child) : holds (finished inner) := by
  have reversed : ∀ child ∈ inner.children.reverse, holds child := fun child member =>
    below child (List.mem_reverse.mp member)
  unfold finished
  dsimp only
  split
  · exact hereditary.quote reversed
  · exact hereditary.list _ _ reversed
  · exact hereditary.item reversed

variable (hereditary : Hereditary holds)

include hereditary

theorem Sound.close (sound : Sound holds state) : Sound holds state.close := by
  obtain ⟨blocks, spine, definitions, lastBlank, emptyItem⟩ := state
  cases spine with
  | nil => exact sound
  | cons inner outer =>
    obtain ⟨own, others⟩ := List.forall_mem_cons.mp sound.spine
    have surroundings (emptyItem : Bool) : Sound holds ⟨blocks, outer, definitions, lastBlank, emptyItem⟩ :=
      ⟨sound.blocks, others⟩
    exact (surroundings _).append (finished_holds hereditary own)

theorem Sound.closeTo (sound : Sound holds state) (depth fuel : Nat) :
    Sound holds (state.closeTo depth fuel) := by
  induction fuel generalizing state with
  | zero => exact sound
  | succ fuel ih =>
    unfold BlockState.closeTo
    split
    · exact sound
    · exact ih (sound.close hereditary)

theorem Sound.finishEmptyItem (sound : Sound holds state) : Sound holds state.finishEmptyItem := by
  have closed := sound.close hereditary
  unfold BlockState.finishEmptyItem
  dsimp only
  split
  · split
    · exact ⟨closed.blocks, closed.spine⟩
    · exact ⟨sound.blocks, sound.spine⟩
  · exact ⟨sound.blocks, sound.spine⟩

omit hereditary in
theorem Sound.loosen (sound : Sound holds state) (index : Nat) :
    ∀ inner ∈ loosenAt index state.spine, ∀ child ∈ inner.children, holds child := by
  have all := sound.spine
  unfold loosenAt
  generalize state.spine = spine at all
  induction spine generalizing index with
  | nil => simp
  | cons first rest ih =>
    obtain ⟨own, others⟩ := List.forall_mem_cons.mp all
    cases index with
    | zero =>
      refine List.forall_mem_cons.mpr ⟨?_, others⟩
      dsimp only
      split <;> exact own
    | succ index => exact List.forall_mem_cons.mpr ⟨own, ih index others⟩

/-- A list that is over is closed, and a blank line leaves its blocks. -/
theorem Sound.finishList (sound : Sound holds state) : Sound holds state.finishList := by
  have empty := sound.finishEmptyItem hereditary
  have closed := empty.close hereditary
  unfold BlockState.finishList
  dsimp only
  split <;> split
  · exact ⟨closed.blocks, closed.loosen 1⟩
  · exact closed
  · exact ⟨empty.blocks, empty.loosen 1⟩
  · exact empty

theorem Sound.continueList (sound : Sound holds state) (mark : Char) :
    Sound holds (state.continueList mark) := by
  have empty := sound.finishEmptyItem hereditary
  have fresh {before : BlockState} (own : Sound holds before) :
      Sound holds { before.enter (.list mark true) with lastBlank := false } :=
    ⟨own.blocks, (own.enter (.list mark true)).spine⟩
  unfold BlockState.continueList
  dsimp only
  split
  · split
    · split
      · exact ⟨empty.blocks, empty.loosen 0⟩
      · exact empty
    · exact fresh (empty.finishList hereditary)
  · exact fresh empty
  · exact fresh (empty.finishList hereditary)

end BlockState

variable {holds : Block → Prop} (hereditary : Hereditary holds) {state : BlockState}

open BlockState (Sound)

include hereditary

theorem leafBlock_sound (sound : Sound holds state) (cursor : Cursor) (ending : LineEnding)
    (following : List Line) : Sound holds (leafBlock state cursor ending following).1 := by
  unfold leafBlock
  dsimp only
  split
  · have added (text : List Char) := sound.append (hereditary.code [] text)
    exact ⟨(added _).blocks, (added _).spine⟩
  · split
    · exact sound.append (hereditary.html _)
    · split
      · exact sound.append hereditary.rule
      · split
        · rename_i found
          obtain ⟨positive, atMost⟩ := headingLevel?_range found
          exact sound.append (hereditary.heading _ positive atMost)
        · split
          · exact ⟨sound.blocks, sound.spine⟩
          · split
            · exact sound.append (hereditary.code _ _)
            · split
              · rename_i found
                obtain ⟨positive, atMost⟩ := paragraphRest_range found
                exact sound.append (hereditary.heading _ positive atMost)
              · exact sound.append (hereditary.paragraph _)

theorem openContainers_sound (sound : Sound holds state) (ending : LineEnding) (following : List Line)
    (fuel : Nat) (cursor : Cursor) :
    Sound holds (openContainers ending following fuel state cursor).1 := by
  induction fuel generalizing state cursor with
  | zero => exact sound
  | succ fuel ih =>
    unfold openContainers
    dsimp only
    split
    · rename_i found width content _
      have inside := (sound.continueList hereditary found.mark).enter (.item width)
      split
      · exact ⟨inside.blocks, inside.spine⟩
      · exact ih inside content
    · split
      · exact ih ((sound.finishList hereditary).enter .quote) _
      · split
        · split
          · exact sound
          · rename_i opened
            split
            · have spine := sound.spine
              rw [opened] at spine
              obtain ⟨own, others⟩ := List.forall_mem_cons.mp spine
              exact ⟨sound.blocks, List.forall_mem_cons.mpr ⟨own, others⟩⟩
            · exact ⟨sound.blocks, sound.spine⟩
          · exact ⟨sound.blocks, sound.spine⟩
        · exact leafBlock_sound hereditary (sound.finishList hereditary) cursor ending following

theorem blockStep_sound (sound : Sound holds state) (line : Line) (following : List Line) :
    Sound holds (blockStep state line following).1 := by
  unfold blockStep
  exact openContainers_sound hereditary (sound.closeTo hereditary _ _) _ _ _ _

theorem runBlocks_sound (fuel : Nat) (sound : Sound holds state) (lines : List Line) :
    Sound holds (runBlocks fuel state lines) := by
  induction fuel generalizing state lines with
  | zero => exact sound
  | succ fuel ih =>
    cases lines with
    | nil => exact sound.closeTo hereditary _ _
    | cons line following => exact ih (blockStep_sound hereditary sound line following) _

/-- What holds for all blocks that lines can be read as and for containers of such holds for every block of
a text. -/
theorem forall_blocksOf (text : List Char) : ∀ block ∈ (blocksOf text).1, holds block := by
  intro block member
  have start : Sound holds {} := ⟨by simp, by simp⟩
  exact (runBlocks_sound hereditary _ start _).blocks block (List.mem_reverse.mp member)

omit hereditary

/-- A heading that is opened has one of the levels. -/
def Opening.Fits : Opening → Prop
  | .heading level => 1 ≤ level ∧ level ≤ 6
  | _ => True

theorem Inlined.opens_fits {opening : Opening} (inline : opens opening = true) : opening.Fits := by
  cases opening with
  | heading => cases inline
  | _ => trivial

/-- All that is opened for a block fits. -/
def Block.Fits (block : Block) : Prop :=
  ∀ definitions tight opening, .enter opening ∈ blockEvents definitions tight block → opening.Fits

theorem mem_allBlockEvents {definitions : List Definition} {tight : Bool} {blocks : List Block} {event : Event}
    (member : event ∈ allBlockEvents definitions tight blocks) :
    ∃ block ∈ blocks, event ∈ blockEvents definitions tight block := by
  induction blocks with
  | nil => cases member
  | cons block rest ih =>
    rcases List.mem_append.mp member with own | later
    · exact ⟨block, List.mem_cons_self, own⟩
    · obtain ⟨other, present, inside⟩ := ih later
      exact ⟨other, List.mem_cons_of_mem _ present, inside⟩

theorem Block.fits_hereditary : Hereditary Block.Fits := by
  have inline {definitions : List Definition} {text : List Char} {opening : Opening}
      (member : .enter opening ∈ inlineEvents definitions text) : opening.Fits := by
    obtain ⟨⟨_, _, _, _, opened⟩, _⟩ := inlineEvents_inlined definitions text
    exact Inlined.opens_fits (opened opening member)
  have enclosed {own opening : Opening} {inner : List Event}
      (member : .enter opening ∈ .enter own :: inner ++ [.leave]) (fits : own.Fits)
      (below : .enter opening ∈ inner → opening.Fits) : opening.Fits := by
    rcases List.mem_cons.mp member with same | inside
    · cases same
      exact fits
    · exact (List.mem_append.mp inside).elim below (by simp)
  have all {definitions : List Definition} {tight : Bool} {blocks : List Block} {opening : Opening}
      (below : ∀ block ∈ blocks, block.Fits)
      (member : .enter opening ∈ allBlockEvents definitions tight blocks) : opening.Fits := by
    obtain ⟨block, present, inside⟩ := mem_allBlockEvents member
    exact below block present _ _ _ inside
  constructor
  case paragraph =>
    intro text definitions tight opening member
    unfold blockEvents at member
    cases tight with
    | true => exact inline member
    | false => exact enclosed member trivial inline
  case heading =>
    intro level text positive atMost definitions tight opening member
    exact enclosed member ⟨positive, atMost⟩ inline
  case rule =>
    intro definitions tight opening member
    simp [blockEvents] at member
  case code =>
    intro info text definitions tight opening member
    exact @enclosed _ opening [_] member trivial (by simp)
  case html =>
    intro text definitions tight opening member
    exact @enclosed _ opening [_] member trivial (by simp)
  case quote =>
    intro children below definitions tight opening member
    exact enclosed member trivial (all below)
  case list =>
    intro ordered tight items below definitions _ opening member
    exact enclosed member trivial (all below)
  case item =>
    intro children below definitions tight opening member
    exact enclosed member trivial (all below)

theorem events_fit (text : List Char) {opening : Opening} (member : .enter opening ∈ events text) :
    opening.Fits := by
  obtain ⟨block, present, inside⟩ := mem_allBlockEvents member
  exact forall_blocksOf Block.fits_hereditary text block present _ _ _ inside

end DocComment.Markup

namespace DocComment.Entity

/-- The headings in the whole tree have one of six levels. -/
inductive Leveled : Entity → Prop where
  | leaf (content : Leaf) : Leveled (.leaf content)
  | node {tag : Tag} {inner : List Entity} (own : ∀ level, tag = .heading level → 1 ≤ level ∧ level ≤ 6)
      (below : ∀ child ∈ inner, Leveled child) : Leveled (.node tag inner)

end DocComment.Entity

namespace DocComment.Markup

open Entity (Leveled)

theorem linkEntity_leveled (destination title : String) {children : List Entity}
    (below : ∀ child ∈ children, Leveled child) : Leveled (linkEntity destination title children) := by
  unfold linkEntity
  split
  · exact .node nofun below
  · split
    · exact .node nofun below
    · split
      · exact .node nofun fun child member => List.mem_singleton.mp member ▸ .leaf _
      · exact .node nofun below

theorem closeOpening_leveled (opening : Opening) (children : List Entity) (fits : opening.Fits)
    (below : ∀ child ∈ children, Leveled child) :
    ∀ entity ∈ closeOpening opening children, Leveled entity := by
  intro entity member
  cases opening with
  | transparent => exact below entity member
  | codeBlock => rw [List.mem_singleton.mp member]; exact .leaf _
  | link destination title =>
    rw [List.mem_singleton.mp member]
    exact linkEntity_leveled destination title below
  | heading level =>
    rw [List.mem_singleton.mp member]
    exact .node (fun other same => Tag.heading.inj same ▸ fits) below
  | _ => rw [List.mem_singleton.mp member]; exact .node nofun below

/-- Whatever text is read, its headings have levels from one to six. -/
theorem read_leveled (text : String) : ∀ entity ∈ read text, Leveled entity :=
  forall_treeOf_allowed .leaf closeOpening_leveled fun _ member => events_fit text.toList member

end DocComment.Markup
