import Mathlib.Data.List.Chain
import DocComment.Proofs.Markup.Building
import DocComment.Proofs.Markup.Tree

/-! Building a tree from events loses no text but the marks of link names, whether the events are balanced
or not, and leaves no two texts side by side. -/
namespace DocComment.Markup

/-- The root is the outermost level and there is no other one. -/
def Rooted (stack : LevelStack) : Prop :=
  ∃ inner root, stack = inner ++ [root] ∧ root.opening = none ∧ ∀ level ∈ inner, level.opening ≠ none

namespace TreeState

def levels (state : TreeState) : LevelStack :=
  state.frames.map (fun frame => ⟨some frame.opening, frame.children⟩) ++ [⟨none, state.roots⟩]

theorem rooted_levels (state : TreeState) : Rooted state.levels := by
  refine ⟨_, _, rfl, rfl, fun level member => ?_⟩
  obtain ⟨frame, _, rfl⟩ := List.mem_map.mp member
  exact Option.some_ne_none _

theorem levels_push (state : TreeState) (entity : Entity) :
    (state.push entity).levels = state.levels.push entity := by
  obtain ⟨roots, frames⟩ := state
  cases frames <;> rfl

theorem levels_pushAll (state : TreeState) (entities : List Entity) :
    (entities.foldl push state).levels = entities.foldl LevelStack.push state.levels := by
  induction entities generalizing state with
  | nil => rfl
  | cons entity rest ih => rw [List.foldl_cons, ih, levels_push, List.foldl_cons]

theorem levels_close (state : TreeState) : state.close.levels = state.levels.close := by
  obtain ⟨roots, frames⟩ := state
  cases frames with
  | nil => rfl
  | cons frame outer =>
    have around : ∃ level others, levels ⟨roots, outer⟩ = level :: others := by
      cases outer with
      | nil => exact ⟨_, _, rfl⟩
      | cons => exact ⟨_, _, rfl⟩
    obtain ⟨level, others, same⟩ := around
    have whole : levels ⟨roots, frame :: outer⟩ =
        ⟨some frame.opening, frame.children⟩ :: levels ⟨roots, outer⟩ := rfl
    rw [whole, close, levels_pushAll, same]
    rfl

theorem levels_step (state : TreeState) (event : Event) :
    (state.step event).levels = state.levels.step event := by
  cases event with
  | enter opening => rfl
  | leave => exact levels_close state
  | text | code | softBreak | hardBreak | rule => exact levels_push state _

theorem levels_after (events : List Event) : LevelStack.after events = (events.foldl step {}).levels := by
  have run : ∀ state : TreeState,
      events.foldl LevelStack.step state.levels = (events.foldl step state).levels := by
    induction events with
    | nil => exact fun _ => rfl
    | cons event rest ih =>
      intro state
      rw [List.foldl_cons, ← levels_step, ih, List.foldl_cons]
  exact run {}

theorem levels_closeAll (count : Nat) (state : TreeState) :
    (state.closeAll count).levels = state.levels.closeAll count := by
  induction count generalizing state with
  | zero => rfl
  | succ count ih => rw [closeAll, ih, levels_close, LevelStack.closeAll]

@[simp] theorem length_pushAll (state : TreeState) (entities : List Entity) :
    (entities.foldl push state).frames.length = state.frames.length := by
  obtain ⟨roots, frames⟩ := state
  cases frames with
  | nil => rw [pushAll_roots]
  | cons frame outer =>
    rw [pushAll_frame]
    rfl

@[simp] theorem length_close (state : TreeState) : state.close.frames.length = state.frames.length - 1 := by
  unfold close
  split
  · simp [*]
  · simp [*]

@[simp] theorem length_closeAll (count : Nat) (state : TreeState) :
    (state.closeAll count).frames.length = state.frames.length - count := by
  induction count generalizing state with
  | zero => rfl
  | succ count ih =>
    rw [closeAll, ih, length_close]
    omega

theorem close_of_closed {state : TreeState} (closed : state.frames.length = 0) : state.close = state := by
  rw [close, List.length_eq_zero_iff.mp closed]

theorem closeAll_of_closed {state : TreeState} (closed : state.frames.length = 0) (count : Nat) :
    state.closeAll count = state := by
  induction count with
  | zero => rfl
  | succ count ih => rw [closeAll, close_of_closed closed, ih]

theorem closeAll_add (first second : Nat) (state : TreeState) :
    state.closeAll (first + second) = (state.closeAll first).closeAll second := by
  induction first generalizing state with
  | zero => rw [Nat.zero_add, closeAll]
  | succ first ih => rw [Nat.add_right_comm, closeAll, ih, closeAll]

/-- Closing what is left open ends in the children of the root. -/
theorem finish_levels (state : TreeState) :
    state.levels.finish = (state.closeAll state.frames.length).roots.reverse := by
  have length : state.levels.length = state.frames.length + 1 := by simp [levels]
  have closed : (state.closeAll state.frames.length).frames.length = 0 := by simp
  have root : ((state.closeAll state.frames.length).closeAll 1).levels =
      [⟨none, (state.closeAll state.frames.length).roots⟩] := by
    rw [closeAll_of_closed closed, levels, List.length_eq_zero_iff.mp closed]
    rfl
  rw [LevelStack.finish, length, ← levels_closeAll, closeAll_add, root]
  rfl

end TreeState

/-- Neither an opening nor an ending. -/
def Event.isLeaf : Event → Bool
  | .enter _ | .leave => false
  | _ => true

/-- The events without the surplus endings, and with those that are missing at the end. This many openings
are before them. -/
def balanced : Nat → List Event → List Event
  | depth, [] => List.replicate depth .leave
  | depth, .enter opening :: rest => .enter opening :: balanced (depth + 1) rest
  | 0, .leave :: rest => balanced 0 rest
  | depth + 1, .leave :: rest => .leave :: balanced depth rest
  | depth, event :: rest => event :: balanced depth rest

theorem balanced_leaf {event : Event} (isLeaf : event.isLeaf = true) (depth : Nat) (rest : List Event) :
    balanced depth (event :: rest) = event :: balanced depth rest := by
  cases event with
  | enter | leave => cases isLeaf
  | text | code | softBreak | hardBreak | rule => cases depth <;> rfl

/-- The leaves are those of the events, in their order. -/
theorem balanced_leaves (depth : Nat) (events : List Event) :
    (balanced depth events).filter Event.isLeaf = events.filter Event.isLeaf := by
  induction events generalizing depth with
  | nil =>
    rw [balanced, List.filter_replicate]
    rfl
  | cons event rest ih =>
    cases event with
    | enter opening => exact ih (depth + 1)
    | leave =>
      cases depth with
      | zero => exact ih 0
      | succ depth => exact ih depth
    | text | code | softBreak | hardBreak | rule =>
      rw [balanced_leaf rfl, List.filter_cons_of_pos rfl, List.filter_cons_of_pos rfl, ih]

namespace TreeState

theorem foldl_leave (count : Nat) (state : TreeState) :
    (List.replicate count .leave).foldl step state = state.closeAll count := by
  induction count generalizing state with
  | zero => rfl
  | succ count ih => exact ih state.close

/-- Closing what is left open is like reading the endings that are missing. -/
theorem foldl_balanced (events : List Event) {depth : Nat} {state : TreeState}
    (open_ : state.frames.length = depth) : (balanced depth events).foldl step state =
      (events.foldl step state).closeAll (events.foldl step state).frames.length := by
  induction events generalizing depth state with
  | nil => rw [balanced, foldl_leave, List.foldl_nil, open_]
  | cons event rest ih =>
    cases event with
    | enter opening =>
      rw [balanced, List.foldl_cons, List.foldl_cons]
      exact ih (congrArg (· + 1) open_)
    | leave =>
      cases depth with
      | zero =>
        have same : state.step .leave = state := close_of_closed open_
        rw [balanced, List.foldl_cons, same]
        exact ih open_
      | succ depth =>
        rw [balanced, List.foldl_cons, List.foldl_cons]
        refine ih ((length_close state).trans ?_)
        rw [open_, Nat.add_sub_cancel]
    | text | code | softBreak | hardBreak | rule =>
      rw [balanced_leaf rfl, List.foldl_cons, List.foldl_cons]
      exact ih ((length_pushAll state [_]).trans open_)

end TreeState

theorem treeOf_balanced (events : List Event) : treeOf (balanced 0 events) = treeOf events := by
  have run := @TreeState.foldl_balanced events 0 {} rfl
  have closed : ((balanced 0 events).foldl TreeState.step {}).frames.length = 0 := by simp [run]
  have whole : treeOf (balanced 0 events) = ((balanced 0 events).foldl TreeState.step {}).roots.reverse := by
    simp only [treeOf, TreeState.closeAll_of_closed closed]
  rw [whole, run]
  rfl

def Event.said : Event → String
  | .text written | .code written => written
  | .softBreak | .hardBreak => " "
  | .rule | .enter _ | .leave => ""

/-- A text, an ending, or the opening of a construct without a node of its own. -/
def Event.isPlain : Event → Bool
  | .text _ | .leave | .enter .transparent => true
  | _ => false

/-- The events hold text and nothing else. -/
structure TextAlone (events : List Event) : Prop where
  plain : ∀ event ∈ events, event.isPlain = true
  spoken : ∃ event ∈ events, event.isLeaf = true

/-- A link that tells no target but its text, which starts with a mark. -/
structure MarkedLink (opening : Opening) (inner : List Event) (shown name : String) : Prop where
  bare : opening = .link "" ""
  alone : TextAlone inner
  mark : ∃ mark, (mark = '*' ∨ mark = '?') ∧ shown = String.singleton mark ++ name

/-- The text that balanced events show: that of the leaves in their order, less the marks of links. -/
inductive Shows : List Event → String → Prop where
  | nil : Shows [] ""
  | leaf {event : Event} {rest : List Event} {shown : String} (isLeaf : event.isLeaf = true)
      (more : Shows rest shown) : Shows (event :: rest) (event.said ++ shown)
  | enclosed {opening : Opening} {events rest : List Event} {shown later : String}
      (inner : Shows events shown) (unmarked : ∀ name, ¬ MarkedLink opening events shown name)
      (more : Shows rest later) : Shows (.enter opening :: events ++ .leave :: rest) (shown ++ later)
  | marked {opening : Opening} {events rest : List Event} {shown name later : String}
      (inner : Shows events shown) (link : MarkedLink opening events shown name)
      (more : Shows rest later) : Shows (.enter opening :: events ++ .leave :: rest) (name ++ later)

def isText : Entity → Bool
  | .leaf (.text _) => true
  | _ => false

theorem isText_iff {entity : Entity} : isText entity = true ↔ ∃ written, entity = .text written := by
  constructor
  · intro text
    cases entity with
    | node => cases text
    | leaf leaf =>
      cases leaf with
      | text written => exact ⟨written, rfl⟩
      | _ => cases text
  · rintro ⟨written, rfl⟩
    rfl

/-- No text is next to another one. -/
def Apart (entities : List Entity) : Prop :=
  entities.IsChain fun first second => ¬ (isText first = true ∧ isText second = true)

theorem apart_single (entity : Entity) : Apart [entity] :=
  List.IsChain.singleton entity

theorem apart_reverse {entities : List Entity} : Apart entities.reverse ↔ Apart entities := by
  rw [Apart, Apart, List.isChain_reverse]
  simp only [and_comm]

theorem Apart.pushChild {children : List Entity} (apart : Apart children) (entity : Entity) :
    Apart (pushChild children entity) := by
  unfold Markup.pushChild
  split
  case h_1 added last rest =>
    cases rest with
    | nil => exact apart_single _
    | cons next others =>
      obtain ⟨first, more⟩ := List.isChain_cons_cons.mp apart
      exact List.isChain_cons_cons.mpr ⟨first, more⟩
  case h_2 notTexts =>
    cases children with
    | nil => exact apart_single entity
    | cons last rest =>
      refine List.isChain_cons_cons.mpr ⟨?_, apart⟩
      intro texts
      obtain ⟨added, rfl⟩ := isText_iff.mp texts.1
      obtain ⟨before, rfl⟩ := isText_iff.mp texts.2
      exact notTexts added before rest rfl rfl

theorem apart_gather (entities : List Entity) : Apart (gather entities) := by
  have all : ∀ children, Apart children → Apart (entities.foldl pushChild children) := by
    induction entities with
    | nil => exact fun _ apart => apart
    | cons entity rest ih => exact fun children apart => ih _ (apart.pushChild entity)
  exact apart_reverse.mpr (all [] List.IsChain.nil)

theorem isText_pushChild (children : List Entity) (entity : Entity) :
    (∀ child ∈ pushChild children entity, isText child = true) ↔
      isText entity = true ∧ ∀ child ∈ children, isText child = true := by
  unfold pushChild
  split
  · simp [isText]
  · exact List.forall_mem_cons

/-- Joining texts makes nothing else a text. -/
theorem isText_gather (entities : List Entity) :
    (∀ entity ∈ gather entities, isText entity = true) ↔ ∀ entity ∈ entities, isText entity = true := by
  have all : ∀ children, (∀ child ∈ entities.foldl pushChild children, isText child = true) ↔
      (∀ child ∈ children, isText child = true) ∧ ∀ entity ∈ entities, isText entity = true := by
    induction entities with
    | nil => simp
    | cons entity rest ih =>
      intro children
      rw [List.foldl_cons, ih, isText_pushChild, List.forall_mem_cons]
      tauto
  simpa [gather] using all []

theorem gather_eq_nil_iff (entities : List Entity) : gather entities = [] ↔ entities = [] := by
  have all : ∀ children, entities.foldl pushChild children = [] → children = [] ∧ entities = [] := by
    induction entities with
    | nil => exact fun _ none => ⟨none, rfl⟩
    | cons entity rest ih =>
      intro children none
      have pushed := (ih _ none).1
      unfold pushChild at pushed
      split at pushed <;> cases pushed
  constructor
  · intro none
    exact (all [] (List.reverse_eq_nil_iff.mp none)).2
  · rintro rfl
    rfl

/-- Texts that are apart are one text. -/
theorem Apart.exists_single {entities : List Entity} (apart : Apart entities)
    (texts : ∀ entity ∈ entities, isText entity = true) (nonempty : entities ≠ []) :
    ∃ written, entities = [.text written] := by
  cases entities with
  | nil => exact absurd rfl nonempty
  | cons first rest =>
    cases rest with
    | nil =>
      obtain ⟨written, rfl⟩ := isText_iff.mp (texts first List.mem_cons_self)
      exact ⟨written, rfl⟩
    | cons second others =>
      obtain ⟨not, _⟩ := List.isChain_cons_cons.mp apart
      exact absurd ⟨texts first (by simp), texts second (by simp)⟩ not

/-- Texts are apart in an entity and all that is in it. -/
def ApartIn (entity : Entity) : Prop :=
  ∀ node ∈ entity.preorder, Apart node.children

theorem ApartIn.leaf (leaf : Leaf) : ApartIn (.leaf leaf) := by
  intro node member
  rw [Entity.preorder, List.mem_singleton] at member
  rw [member]
  exact List.IsChain.nil

theorem ApartIn.node (tag : Tag) {children : List Entity} (apart : Apart children)
    (inner : ∀ child ∈ children, ApartIn child) : ApartIn (.node tag children) := by
  intro node member
  rw [Entity.preorder, List.mem_cons] at member
  rcases member with rfl | below
  · exact apart
  · obtain ⟨child, present, within⟩ := Entity.mem_preorderAll.mp below
    exact inner child present node within

theorem ApartIn.gather {entities : List Entity} (inner : ∀ entity ∈ entities, ApartIn entity) :
    ∀ entity ∈ gather entities, ApartIn entity := by
  have all : ∀ children, (∀ child ∈ children, ApartIn child) →
      ∀ child ∈ entities.foldl pushChild children, ApartIn child := by
    induction entities with
    | nil => exact fun _ before => before
    | cons entity rest ih =>
      obtain ⟨first, later⟩ := List.forall_mem_cons.mp inner
      exact fun children before => ih later _ (forall_pushChild .leaf before first)
  intro entity member
  exact all [] (by simp) entity (List.mem_reverse.mp member)

/-- Closing an opening puts no text beside another one. -/
theorem apartIn_closeOpening (opening : Opening) {children : List Entity} (apart : Apart children)
    (inner : ∀ child ∈ children, ApartIn child) :
    ∀ entity ∈ closeOpening opening children, ApartIn entity := by
  have node : ∀ tag, ∀ entity ∈ [Entity.node tag children], ApartIn entity := fun tag =>
    List.forall_mem_singleton.mpr (.node tag apart inner)
  cases opening with
  | transparent => exact inner
  | codeBlock info => exact List.forall_mem_singleton.mpr (.leaf _)
  | link destination title =>
    rw [closeOpening, List.forall_mem_singleton]
    unfold linkEntity
    split
    · exact .node _ apart inner
    · split
      · exact .node _ apart inner
      · split
        · exact .node _ (apart_single _) (List.forall_mem_singleton.mpr (.leaf _))
        · exact .node _ apart inner
  | paragraph | htmlBlock | heading | blockQuote | list | item | emphasis | strong | image => exact node _

theorem plainTextAll_gather (entities : List Entity) :
    Entity.plainTextAll (gather entities) = Entity.plainTextAll entities := by
  have push : ∀ children entity, Entity.plainTextAll (pushChild children entity).reverse =
      Entity.plainTextAll children.reverse ++ Entity.plainText entity := by
    intro children entity
    unfold pushChild
    split <;> simp [Entity.plainTextAll_append, Entity.plainTextAll, Entity.plainText, String.append_assoc]
  have all : ∀ children, Entity.plainTextAll (entities.foldl pushChild children).reverse =
      Entity.plainTextAll children.reverse ++ Entity.plainTextAll entities := by
    induction entities with
    | nil => simp [Entity.plainTextAll]
    | cons entity rest ih =>
      intro children
      rw [List.foldl_cons, ih, push, Entity.plainTextAll, String.append_assoc]
  simpa [gather, Entity.plainTextAll] using all []

theorem plainTextAll_marked {mark : Char} {name : String} (fuzzy : mark = '*' ∨ mark = '?') :
    Entity.plainTextAll (closeOpening (.link "" "") [.text (String.singleton mark ++ name)]) = name := by
  have dropped : dropFuzzyMark (String.singleton mark ++ name) = name := by
    rcases fuzzy with rfl | rfl <;> simp [dropFuzzyMark]
  have closed : closeOpening (.link "" "") [.text (String.singleton mark ++ name)] =
      [.node (.link (.unresolved (String.singleton mark ++ name)) "")
        [.text (dropFuzzyMark (String.singleton mark ++ name))]] := rfl
  rw [closed, dropped]
  simp [Entity.plainTextAll, Entity.plainText]

theorem dropFuzzyMark_unmarked {written : String}
    (unmarked : ∀ mark name, (mark = '*' ∨ mark = '?') → written ≠ String.singleton mark ++ name) :
    dropFuzzyMark written = written := by
  have starts : ∀ {mark : Char} {name : List Char}, written.toList = mark :: name →
      written = String.singleton mark ++ String.ofList name := by
    intro mark name same
    exact String.toList_inj.mp (by simp [same])
  unfold dropFuzzyMark
  split
  case h_1 name same => exact absurd (starts same) (unmarked '*' _ (.inl rfl))
  case h_2 name same => exact absurd (starts same) (unmarked '?' _ (.inr rfl))
  case h_3 => rfl

/-- Whatever else is closed says what is in it. -/
theorem plainTextAll_unmarked {opening : Opening} {children : List Entity}
    (unmarked : opening = .link "" "" → ∀ mark name, (mark = '*' ∨ mark = '?') →
      children ≠ [.text (String.singleton mark ++ name)]) :
    Entity.plainTextAll (closeOpening opening children) = Entity.plainTextAll children := by
  cases opening with
  | link destination title =>
    rw [closeOpening]
    unfold linkEntity
    split
    · simp [Entity.plainTextAll, Entity.plainText]
    · split
      · simp [Entity.plainTextAll, Entity.plainText]
      · rename_i noAddress noTitle
        rw [not_not] at noAddress noTitle
        subst noAddress noTitle
        split
        · rename_i name
          have kept : dropFuzzyMark name = name := dropFuzzyMark_unmarked fun mark rest fuzzy same =>
            unmarked rfl mark rest fuzzy (by rw [same])
          simp [Entity.plainTextAll, Entity.plainText, kept]
        · simp [Entity.plainTextAll, Entity.plainText]
  | transparent => rfl
  | paragraph | htmlBlock | heading | blockQuote | list | item | emphasis | strong | image | codeBlock =>
    simp [closeOpening, Entity.plainTextAll, Entity.plainText]

theorem Builds.leaf {event : Event} (isLeaf : event.isLeaf = true) :
    ∃ leaf, Builds [event] [.leaf leaf] ∧ Entity.plainText (.leaf leaf) = event.said ∧
      isText (.leaf leaf) = event.isPlain := by
  cases event with
  | enter | leave => cases isLeaf
  | text | code | softBreak | hardBreak | rule =>
    exact ⟨_, fun _ => rfl, by simp [Entity.plainText, Event.said], rfl⟩

theorem Builds.enclosed_append (opening : Opening) {events rest : List Event} {children others : List Entity}
    (inner : Builds events children) (more : Builds rest others) :
    Builds (.enter opening :: events ++ .leave :: rest)
      (closeOpening opening (gather children) ++ others) := by
  have closed := (inner.enclosed opening).append more
  rwa [List.append_assoc, List.singleton_append] at closed

/-- Only a construct without a node of its own becomes texts. -/
theorem isText_closeOpening (opening : Opening) (children : List Entity) :
    (∀ entity ∈ closeOpening opening children, isText entity = true) ↔
      opening = .transparent ∧ ∀ child ∈ children, isText child = true := by
  cases opening with
  | transparent => simp [closeOpening]
  | link destination title =>
    have node : ∃ tag inner, linkEntity destination title children = .node tag inner := by
      unfold linkEntity
      split
      · exact ⟨_, _, rfl⟩
      · split
        · exact ⟨_, _, rfl⟩
        · split <;> exact ⟨_, _, rfl⟩
    obtain ⟨tag, inner, same⟩ := node
    simp [closeOpening, same, isText]
  | paragraph | htmlBlock | heading | blockQuote | list | item | emphasis | strong | image | codeBlock =>
    simp [closeOpening, isText]

/-- What balanced events build, and how it shows their text. -/
structure Showing (events : List Event) (shown : String) (entities : List Entity) : Prop where
  builds : Builds events entities
  same : Entity.plainTextAll entities = shown
  apart : ∀ entity ∈ entities, ApartIn entity
  texts : (∀ entity ∈ entities, isText entity = true) ↔ ∀ event ∈ events, event.isPlain = true
  empty : (∀ event ∈ events, event.isPlain = true) →
    (entities = [] ↔ ∀ event ∈ events, event.isLeaf = false)

namespace Showing

variable {events rest : List Event} {shown later own : String} {entities children others : List Entity}

theorem nil : Showing [] "" [] := ⟨.nil, rfl, by simp, by simp, by simp⟩

theorem leaf {event : Event} (isLeaf : event.isLeaf = true) (more : Showing rest later others) :
    ∃ leaf, Showing (event :: rest) (event.said ++ later) (.leaf leaf :: others) := by
  obtain ⟨leaf, built, said, plain⟩ := Builds.leaf isLeaf
  refine ⟨leaf, built.append more.builds, ?_, List.forall_mem_cons.mpr ⟨.leaf leaf, more.apart⟩, ?_, ?_⟩
  · rw [Entity.plainTextAll, said, more.same]
  · rw [List.forall_mem_cons, List.forall_mem_cons, plain, more.texts]
  · simp [isLeaf]

/-- Text is alone in the events if and only if the only child is a text. -/
theorem textAlone_iff (showing : Showing events shown entities) :
    TextAlone events ↔ ∃ written, gather entities = [.text written] := by
  constructor
  · intro alone
    have nonempty : entities ≠ [] := by
      intro none
      obtain ⟨event, member, isLeaf⟩ := alone.spoken
      rw [(showing.empty alone.plain).mp none event member] at isLeaf
      cases isLeaf
    have texts := (isText_gather entities).mpr (showing.texts.mpr alone.plain)
    exact (apart_gather entities).exists_single texts (mt (gather_eq_nil_iff entities).mp nonempty)
  · intro single
    obtain ⟨written, same⟩ := single
    have plain := showing.texts.mp ((isText_gather entities).mp (by rw [same]; simp [isText]))
    refine ⟨plain, ?_⟩
    by_contra none
    have empty := (showing.empty plain).mpr (by simpa using none)
    rw [(gather_eq_nil_iff entities).mpr empty] at same
    cases same

theorem enclosed {opening : Opening} (inner : Showing events shown children)
    (said : Entity.plainTextAll (closeOpening opening (gather children)) = own)
    (more : Showing rest later others) :
    Showing (.enter opening :: events ++ .leave :: rest) (own ++ later)
      (closeOpening opening (gather children) ++ others) := by
  have open_ : (Event.enter opening).isPlain = true ↔ opening = .transparent := by
    cases opening <;> simp [Event.isPlain]
  refine ⟨inner.builds.enclosed_append opening more.builds, ?_, ?_, ?_, fun plain => ?_⟩
  · rw [Entity.plainTextAll_append, said, more.same]
  · exact List.forall_mem_append.mpr
      ⟨apartIn_closeOpening opening (apart_gather children) (ApartIn.gather inner.apart), more.apart⟩
  · rw [List.forall_mem_append, isText_closeOpening, isText_gather, inner.texts, more.texts, List.cons_append,
      List.forall_mem_cons, List.forall_mem_append, List.forall_mem_cons, open_, and_assoc]
    simp [Event.isPlain]
  · rw [List.cons_append, List.forall_mem_cons, List.forall_mem_append, List.forall_mem_cons, open_] at plain
    obtain ⟨rfl, within, _, after⟩ := plain
    rw [closeOpening, List.append_eq_nil_iff, gather_eq_nil_iff, inner.empty within, more.empty after,
      List.cons_append, List.forall_mem_cons, List.forall_mem_append, List.forall_mem_cons]
    simp [Event.isLeaf]

end Showing

/-- Events that show a text build entities with this text, in which texts are apart. -/
theorem Shows.showing {events : List Event} {shown : String} (shows_ : Shows events shown) :
    ∃ entities, Showing events shown entities := by
  induction shows_ with
  | nil => exact ⟨[], .nil⟩
  | leaf isLeaf more ih =>
    obtain ⟨others, showing⟩ := ih
    obtain ⟨leaf, own⟩ := showing.leaf isLeaf
    exact ⟨_, own⟩
  | @enclosed opening events rest shown later inner unmarked more ihInner ih =>
    obtain ⟨children, showing⟩ := ihInner
    obtain ⟨others, following⟩ := ih
    refine ⟨_, showing.enclosed ?_ following⟩
    rw [plainTextAll_unmarked, plainTextAll_gather, showing.same]
    intro bare mark name fuzzy alone
    refine unmarked name ⟨bare, showing.textAlone_iff.mpr ⟨_, alone⟩, mark, fuzzy, ?_⟩
    rw [← showing.same, ← plainTextAll_gather, alone]
    simp [Entity.plainTextAll, Entity.plainText]
  | @marked opening events rest shown name later inner link more ihInner ih =>
    obtain ⟨children, showing⟩ := ihInner
    obtain ⟨others, following⟩ := ih
    refine ⟨_, showing.enclosed ?_ following⟩
    obtain ⟨written, alone⟩ := showing.textAlone_iff.mp link.alone
    obtain ⟨mark, fuzzy, same⟩ := link.mark
    have whole : written = String.singleton mark ++ name := by
      rw [← same, ← showing.same, ← plainTextAll_gather, alone]
      simp [Entity.plainTextAll, Entity.plainText]
    rw [alone, link.bare, whole, plainTextAll_marked fuzzy]

theorem Shows.plainTextAll_treeOf {events : List Event} {shown : String} (shows_ : Shows events shown) :
    shown = Entity.plainTextAll (treeOf events) := by
  obtain ⟨entities, showing⟩ := shows_.showing
  rw [showing.builds.treeOf, plainTextAll_gather, showing.same]

theorem Shows.exists_enclosed (opening : Opening) {events rest : List Event} {shown later : String}
    (inner : Shows events shown) (more : Shows rest later) :
    ∃ whole, Shows (.enter opening :: events ++ .leave :: rest) whole := by
  by_cases link : ∃ name, MarkedLink opening events shown name
  · obtain ⟨name, link⟩ := link
    exact ⟨_, .marked inner link more⟩
  · exact ⟨_, .enclosed inner (not_exists.mp link) more⟩

/-- Events that show texts, with this many endings between them that have no opening. -/
inductive Unopened : Nat → List Event → Prop where
  | last {events : List Event} {shown : String} (shows_ : Shows events shown) : Unopened 0 events
  | ending {depth : Nat} {events rest : List Event} {shown : String} (shows_ : Shows events shown)
      (more : Unopened depth rest) : Unopened (depth + 1) (events ++ .leave :: rest)

namespace Unopened

theorem leaf {depth : Nat} {event : Event} {events : List Event} (isLeaf : event.isLeaf = true)
    (unopened : Unopened depth events) : Unopened depth (event :: events) := by
  cases unopened with
  | last shows_ => exact .last (.leaf isLeaf shows_)
  | ending shows_ more => exact .ending (.leaf isLeaf shows_) more

/-- An opening takes the first of the endings. -/
theorem enclosed {depth : Nat} (opening : Opening) {events : List Event}
    (unopened : Unopened (depth + 1) events) : Unopened depth (.enter opening :: events) := by
  cases unopened with
  | @ending _ inner rest shown shows_ more =>
    cases more with
    | last later =>
      obtain ⟨whole, shown⟩ := shows_.exists_enclosed opening later
      exact .last shown
    | @ending depth next others _ later more =>
      obtain ⟨whole, shown⟩ := shows_.exists_enclosed opening later
      have left := Unopened.ending shown more
      rwa [List.append_assoc, List.cons_append, List.cons_append] at left

theorem balanced (depth : Nat) (events : List Event) : Unopened depth (balanced depth events) := by
  induction events generalizing depth with
  | nil =>
    rw [Markup.balanced]
    induction depth with
    | zero => exact .last .nil
    | succ depth ih => exact .ending .nil ih
  | cons event rest ih =>
    cases event with
    | enter opening => exact (ih (depth + 1)).enclosed opening
    | leave =>
      cases depth with
      | zero => exact ih 0
      | succ depth => exact .ending .nil (ih depth)
    | text | code | softBreak | hardBreak | rule =>
      rw [balanced_leaf rfl]
      exact (ih depth).leaf rfl

end Unopened

theorem exists_shows (events : List Event) : ∃ shown, Shows (balanced 0 events) shown := by
  cases Unopened.balanced 0 events with
  | last shows_ => exact ⟨_, shows_⟩

/-- Whatever has been reported, in any order, the stack of frames has its root and keeps it while the others
are closed, no two texts of the blocks stand side by side, and their text is that of the leaves, less the
marks of links. -/
theorem building_keeps_text (reports : List Report) :
    (∀ count, Rooted ((LevelStack.after (reports.map Report.event)).closeAll count)) ∧
    (LevelStack.after (reports.map Report.event)).finish = blocksOfReports reports ∧
    Apart (blocksOfReports reports) ∧
    (∀ node ∈ Entity.preorderAll (blocksOfReports reports), Apart node.children) ∧
    (balanced 0 (reports.map Report.event)).filter Event.isLeaf =
      (reports.map Report.event).filter Event.isLeaf ∧
    ∀ shown, Shows (balanced 0 (reports.map Report.event)) shown ↔
      shown = Entity.plainTextAll (blocksOfReports reports) := by
  have same := treeOf_balanced (reports.map Report.event)
  obtain ⟨shown, shows_⟩ := exists_shows (reports.map Report.event)
  obtain ⟨entities, showing⟩ := shows_.showing
  have tree : blocksOfReports reports = gather entities := by
    rw [blocksOfReports, ← same, showing.builds.treeOf]
  refine ⟨fun count => ?_, ?_, ?_, fun node member => ?_, balanced_leaves 0 _, fun other => ?_⟩
  · rw [TreeState.levels_after, ← TreeState.levels_closeAll]
    exact TreeState.rooted_levels _
  · rw [TreeState.levels_after, TreeState.finish_levels]
    rfl
  · rw [tree]
    exact apart_gather entities
  · rw [tree] at member
    obtain ⟨entity, present, below⟩ := Entity.mem_preorderAll.mp member
    exact ApartIn.gather showing.apart entity present node below
  · have text : shown = Entity.plainTextAll (blocksOfReports reports) := by
      rw [shows_.plainTextAll_treeOf, same, blocksOfReports]
    rw [← text]
    constructor
    · intro own
      rw [own.plainTextAll_treeOf, shows_.plainTextAll_treeOf]
    · rintro rfl
      exact shows_

/-- A surplus ending, and a link that is never closed: its two texts are one, which starts with a mark. -/
example : blocksOfReports [.finish, .start (.link "" ""), .text "?", .footnote "a"] =
    [.node (.link (.unresolved "?[^a]") "") [.text "[^a]"]] := by
  decide

end DocComment.Markup
