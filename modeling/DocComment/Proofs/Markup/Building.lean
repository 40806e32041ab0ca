import DocComment.Markup.Tree
import DocComment.Unicode.Ranges

namespace DocComment.Markup

/-- The entities as children: a text joins the text just before it. -/
def gather (entities : List Entity) : List Entity :=
  (entities.foldl pushChild []).reverse

theorem gather_single (entity : Entity) : gather [entity] = [entity] := by
  cases entity with
  | leaf leaf => cases leaf <;> rfl
  | node => rfl

/-- Reading the events has the effect of adding the entities, whatever is open. -/
def Builds (events : List Event) (entities : List Entity) : Prop :=
  ∀ state : TreeState, events.foldl TreeState.step state = entities.foldl TreeState.push state

namespace TreeState

theorem pushAll_roots (roots entities : List Entity) :
    entities.foldl push ⟨roots, []⟩ = ⟨entities.foldl pushChild roots, []⟩ := by
  induction entities generalizing roots with
  | nil => rfl
  | cons entity rest ih => exact ih (pushChild roots entity)

theorem pushAll_frame (roots : List Entity) (opening : Opening) (children : List Entity)
    (outer : List Frame) (entities : List Entity) :
    entities.foldl push ⟨roots, ⟨opening, children⟩ :: outer⟩ =
      ⟨roots, ⟨opening, entities.foldl pushChild children⟩ :: outer⟩ := by
  induction entities generalizing children with
  | nil => rfl
  | cons entity rest ih => exact ih (pushChild children entity)

end TreeState

namespace Builds

theorem nil : Builds [] [] := fun _ => rfl

theorem append {events later : List Event} {entities more : List Entity}
    (first : Builds events entities) (second : Builds later more) :
    Builds (events ++ later) (entities ++ more) := by
  intro state
  rw [List.foldl_append, List.foldl_append, first, second]

theorem text (written : String) : Builds [.text written] [.leaf (.text written)] := fun _ => rfl

theorem code (written : String) : Builds [.code written] [.leaf (.code written)] := fun _ => rfl

theorem softBreak : Builds [.softBreak] [.leaf .softBreak] := fun _ => rfl

theorem hardBreak : Builds [.hardBreak] [.leaf .hardBreak] := fun _ => rfl

/-- An opening and its closing turn what is between them into what the opening becomes. -/
theorem enclosed (opening : Opening) {events : List Event} {entities : List Entity}
    (inner : Builds events entities) :
    Builds (.enter opening :: events ++ [.leave]) (closeOpening opening (gather entities)) := by
  intro state
  have opened : TreeState.step state (.enter opening) =
      ⟨state.roots, ⟨opening, []⟩ :: state.frames⟩ := rfl
  rw [List.cons_append, List.foldl_cons, opened, List.foldl_append, inner,
    TreeState.pushAll_frame]
  rfl

theorem treeOf {events : List Event} {entities : List Entity} (built : Builds events entities) :
    treeOf events = gather entities := by
  have start : events.foldl TreeState.step {} = ⟨entities.foldl pushChild [], []⟩ := by
    rw [built, TreeState.pushAll_roots]
  simp only [Markup.treeOf, start]
  rfl

end Builds

/-- Texts in a row become one text. -/
theorem gather_texts (chunks : List String) (nonempty : chunks ≠ []) :
    gather (chunks.map fun chunk => .leaf (.text chunk)) =
      [.leaf (.text (String.ofList (chunks.map String.toList).flatten))] := by
  have joined : ∀ (chunks : List String) (first : String),
      (chunks.map fun chunk => Entity.leaf (.text chunk)).foldl pushChild [.leaf (.text first)] =
        [.leaf (.text (first ++ String.ofList (chunks.map String.toList).flatten))] := by
    intro chunks
    induction chunks with
    | nil => intro first; simp
    | cons chunk rest ih =>
      intro first
      exact (ih (first ++ chunk)).trans (by simp [String.append_assoc])
  obtain ⟨first, rest, rfl⟩ := List.exists_cons_of_ne_nil nonempty
  have one : pushChild [] (.leaf (.text first)) = [.leaf (.text first)] := rfl
  rw [gather, List.map_cons, List.foldl_cons, one, joined]
  simp

/-- A piece of what inline content says. Blanks and soft breaks are all gaps. -/
inductive Word where
  | gap
  | char (c : Char)
  | leaf (leaf : Leaf)
  | enter (tag : Tag)
  | leave
  deriving Repr, DecidableEq

def Word.ofChar (c : Char) : Word :=
  if Unicode.isWhite c then .gap else .char c

mutual

/-- What an entity says, with its nesting. -/
def words : Entity → List Word
  | .leaf (.text written) => written.toList.map Word.ofChar
  | .leaf .softBreak => [.gap]
  | .leaf other => [.leaf other]
  | .node tag children => .enter tag :: wordsAll children ++ [.leave]

def wordsAll : List Entity → List Word
  | [] => []
  | entity :: rest => words entity ++ wordsAll rest

end

@[simp] theorem wordsAll_nil : wordsAll [] = [] := rfl

@[simp] theorem wordsAll_cons (entity : Entity) (rest : List Entity) :
    wordsAll (entity :: rest) = words entity ++ wordsAll rest := rfl

theorem wordsAll_append (entities more : List Entity) :
    wordsAll (entities ++ more) = wordsAll entities ++ wordsAll more := by
  induction entities with
  | nil => rfl
  | cons entity rest ih => simp [ih]

theorem wordsAll_pushChild (children : List Entity) (entity : Entity) :
    wordsAll (pushChild children entity).reverse = wordsAll children.reverse ++ words entity := by
  unfold pushChild
  split
  · simp [wordsAll_append, words, Entity.text]
  · simp [wordsAll_append]

/-- Joining texts changes nothing of what is said. -/
theorem wordsAll_gather (entities : List Entity) : wordsAll (gather entities) = wordsAll entities := by
  have onto : ∀ (entities children : List Entity),
      wordsAll (entities.foldl pushChild children).reverse =
        wordsAll children.reverse ++ wordsAll entities := by
    intro entities
    induction entities with
    | nil => intro children; simp
    | cons entity rest ih =>
      intro children
      rw [List.foldl_cons, ih, wordsAll_pushChild, wordsAll_cons, List.append_assoc]
  simpa [gather] using onto entities []

end DocComment.Markup
