import DocComment.Markup.Read
import DocComment.Proofs.Entity.Tree

namespace DocComment.Markup

open Entity (IsMarkup)

section

variable {allowed : Opening → Prop} {holds : Entity → Prop}

theorem forall_pushChild (leaf : ∀ content, holds (.leaf content)) {children : List Entity}
    {entity : Entity} (present : ∀ child ∈ children, holds child) (added : holds entity) :
    ∀ child ∈ pushChild children entity, holds child := by
  unfold pushChild
  split
  · intro child member
    rcases List.mem_cons.mp member with same | later
    · subst child; exact leaf _
    · exact present child (List.mem_cons_of_mem _ later)
  · intro child member
    rcases List.mem_cons.mp member with same | later
    · subst child; exact added
    · exact present child later

namespace TreeState

/-- The property holds for the roots and for the children of every open frame, and all that is open is
allowed. -/
structure Sound (allowed : Opening → Prop) (holds : Entity → Prop) (state : TreeState) : Prop where
  roots : ∀ entity ∈ state.roots, holds entity
  frames : ∀ frame ∈ state.frames, allowed frame.opening ∧ ∀ entity ∈ frame.children, holds entity

theorem Sound.push (leaf : ∀ content, holds (.leaf content)) {state : TreeState}
    (sound : Sound allowed holds state) (added : holds entity) :
    Sound allowed holds (state.push entity) := by
  unfold TreeState.push
  split
  · exact ⟨forall_pushChild leaf sound.roots added, sound.frames⟩
  · rename_i frame outer frames
    have framesSound := sound.frames
    rw [frames] at framesSound
    refine ⟨sound.roots, fun other member => ?_⟩
    rcases List.mem_cons.mp member with same | later
    · subst other
      obtain ⟨own, below⟩ := framesSound frame List.mem_cons_self
      exact ⟨own, forall_pushChild leaf below added⟩
    · exact framesSound other (List.mem_cons_of_mem _ later)

theorem Sound.pushAll (leaf : ∀ content, holds (.leaf content)) {state : TreeState}
    (sound : Sound allowed holds state) (entities : List Entity)
    (added : ∀ entity ∈ entities, holds entity) :
    Sound allowed holds (entities.foldl TreeState.push state) := by
  induction entities generalizing state with
  | nil => exact sound
  | cons entity rest ih =>
    exact ih (sound.push leaf (added entity List.mem_cons_self))
      fun other member => added other (List.mem_cons_of_mem _ member)

theorem Sound.close (leaf : ∀ content, holds (.leaf content))
    (closes : ∀ opening children, allowed opening → (∀ child ∈ children, holds child) →
      ∀ entity ∈ closeOpening opening children, holds entity)
    {state : TreeState} (sound : Sound allowed holds state) : Sound allowed holds state.close := by
  unfold TreeState.close
  split
  · exact sound
  · rename_i frame outer frames
    have framesSound := sound.frames
    rw [frames] at framesSound
    obtain ⟨own, below⟩ := framesSound frame List.mem_cons_self
    have surroundings : Sound allowed holds { state with frames := outer } :=
      ⟨sound.roots, fun other member => framesSound other (List.mem_cons_of_mem _ member)⟩
    apply surroundings.pushAll leaf
    apply closes _ _ own
    intro child member
    exact below child (List.mem_reverse.mp member)

theorem Sound.step (leaf : ∀ content, holds (.leaf content))
    (closes : ∀ opening children, allowed opening → (∀ child ∈ children, holds child) →
      ∀ entity ∈ closeOpening opening children, holds entity)
    {state : TreeState} (sound : Sound allowed holds state) (event : Event)
    (own : ∀ opening, event = .enter opening → allowed opening) :
    Sound allowed holds (state.step event) := by
  cases event with
  | enter opening =>
    refine ⟨sound.roots, fun frame member => ?_⟩
    rcases List.mem_cons.mp member with same | later
    · subst frame
      exact ⟨own opening rfl, by simp⟩
    · exact sound.frames frame later
  | leave => exact sound.close leaf closes
  | text written => exact sound.push leaf (leaf _)
  | code written => exact sound.push leaf (leaf _)
  | softBreak => exact sound.push leaf (leaf _)
  | hardBreak => exact sound.push leaf (leaf _)
  | rule => exact sound.push leaf (leaf _)

end TreeState

/-- Whatever the events, balanced or not, if all that they open is allowed. -/
theorem forall_treeOf_allowed (leaf : ∀ content, holds (.leaf content))
    (closes : ∀ opening children, allowed opening → (∀ child ∈ children, holds child) →
      ∀ entity ∈ closeOpening opening children, holds entity)
    {events : List Event} (opened : ∀ opening, .enter opening ∈ events → allowed opening) :
    ∀ entity ∈ treeOf events, holds entity := by
  have run (state : TreeState) (sound : state.Sound allowed holds) :
      (events.foldl TreeState.step state).Sound allowed holds := by
    induction events generalizing state with
    | nil => exact sound
    | cons event rest ih =>
      refine ih (fun opening member => opened opening (List.mem_cons_of_mem _ member)) _ ?_
      exact sound.step leaf closes event fun opening same => opened opening (by simp [same])
  have closed (count : Nat) (state : TreeState) (sound : state.Sound allowed holds) :
      (state.closeAll count).Sound allowed holds := by
    induction count generalizing state with
    | zero => exact sound
    | succ count ih => exact ih _ (sound.close leaf closes)
  intro entity member
  exact (closed _ _ (run {} ⟨by simp, by simp⟩)).roots entity (List.mem_reverse.mp member)

/-- Whatever the events, balanced or not. -/
theorem forall_treeOf (leaf : ∀ content, holds (.leaf content))
    (closes : ∀ opening children, (∀ child ∈ children, holds child) →
      ∀ entity ∈ closeOpening opening children, holds entity)
    (events : List Event) : ∀ entity ∈ treeOf events, holds entity :=
  forall_treeOf_allowed leaf (fun opening children (_ : True) => closes opening children) fun _ _ => trivial

end

theorem linkEntity_markup (destination title : String) (children : List Entity)
    (markup : ∀ child ∈ children, IsMarkup child) :
    IsMarkup (linkEntity destination title children) := by
  unfold linkEntity
  split
  · exact .node rfl markup
  · split
    · exact .node rfl markup
    · split
      · refine .node rfl fun child member => ?_
        rw [List.mem_singleton.mp member]
        exact .leaf _
      · exact .node rfl markup

theorem closeOpening_markup (opening : Opening) (children : List Entity)
    (markup : ∀ child ∈ children, IsMarkup child) :
    ∀ entity ∈ closeOpening opening children, IsMarkup entity := by
  intro entity member
  cases opening with
  | transparent => exact markup entity member
  | codeBlock info => rw [List.mem_singleton.mp member]; exact .leaf _
  | link destination title =>
    rw [List.mem_singleton.mp member]; exact linkEntity_markup destination title children markup
  | _ => rw [List.mem_singleton.mp member]; exact .node rfl markup

/-- Whatever the events, balanced or not, they build markup. -/
theorem treeOf_markup (events : List Event) : ∀ entity ∈ treeOf events, IsMarkup entity :=
  forall_treeOf .leaf closeOpening_markup events

theorem read_markup (text : String) : ∀ entity ∈ read text, IsMarkup entity :=
  treeOf_markup _

end DocComment.Markup
