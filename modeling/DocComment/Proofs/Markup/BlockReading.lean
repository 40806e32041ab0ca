import DocComment.Proofs.Markup.BlockLines

namespace DocComment.Markup

/-- Steps from line to line. -/
inductive Runs : BlockState × List Line → BlockState × List Line → Prop where
  | refl (last : BlockState × List Line) : Runs last last
  | step {state : BlockState} {line : Line} {following : List Line} {last : BlockState × List Line}
      (shorter : (blockStep state line following).2.length ≤ following.length)
      (more : Runs (blockStep state line following) last) : Runs (state, line :: following) last

namespace Runs

theorem trans {first middle last : BlockState × List Line} (runs : Runs first middle)
    (more : Runs middle last) : Runs first last := by
  induction runs with
  | refl => exact more
  | step shorter _ ih => exact .step shorter (ih more)

theorem runBlocks {first : BlockState × List Line} {last : BlockState} (runs : Runs first (last, []))
    (fuel : Nat) (enough : first.2.length < fuel) :
    runBlocks fuel first.1 first.2 = last.closed 0 := by
  generalize target : (last, ([] : List Line)) = final at runs
  induction runs generalizing fuel with
  | refl =>
    subst target
    obtain ⟨fuel, rfl⟩ := Nat.exists_eq_add_one.mpr (Nat.zero_lt_of_lt enough)
    rfl
  | @step state line following final shorter more ih =>
    obtain ⟨fuel, rfl⟩ := Nat.exists_eq_add_one.mpr (Nat.zero_lt_of_lt enough)
    rw [Markup.runBlocks]
    exact ih fuel (by simp only [List.length_cons] at enough; omega) target

/-- What each of some lines preserves holds after them. -/
theorem of_each {holds : BlockState → Prop} {lines : List Line} (rest : List Line) {state : BlockState}
    (each : ∀ state, ∀ line ∈ lines, ∀ following, holds state →
      ∃ next, blockStep state line following = (next, following) ∧ holds next)
    (start : holds state) : ∃ last, Runs (state, lines ++ rest) (last, rest) ∧ holds last := by
  induction lines generalizing state with
  | nil => exact ⟨state, .refl _, start⟩
  | cons line others ih =>
    obtain ⟨next, step, kept⟩ := each state line List.mem_cons_self (others ++ rest) start
    obtain ⟨last, runs, final⟩ :=
      ih (fun state other member => each state other (List.mem_cons_of_mem line member)) kept
    rw [List.cons_append]
    refine ⟨last, .step ?_ ?_, final⟩
    · exact Nat.le_of_eq (by rw [step])
    · exact step ▸ runs

end Runs

/-- From an opened line on all is read up to the lines that are left, and then something holds. -/
def ReadTo (opened : BlockState × List Line) (following rest : List Line) (holds : BlockState → Prop) :
    Prop :=
  opened.2.length ≤ following.length ∧ ∃ last, Runs opened (last, rest) ∧ holds last

namespace ReadTo

variable {opened : BlockState × List Line} {following rest : List Line} {holds : BlockState → Prop}

/-- Reading goes on with the next line. -/
theorem next {line : Line} {later last : List Line} {after : BlockState → Prop}
    (first : ReadTo opened following (line :: later) holds)
    (second : ∀ state, holds state → ReadTo (blockStep state line later) later last after) :
    ReadTo opened following last after := by
  obtain ⟨shorter, state, runs, held⟩ := first
  obtain ⟨least, final, more, done⟩ := second state held
  exact ⟨shorter, final, runs.trans (.step least more), done⟩

theorem runs {last : List Line} {after : BlockState → Prop} (first : ReadTo opened following rest holds)
    (second : ∀ state, holds state → ∃ final, Runs (state, rest) (final, last) ∧ after final) :
    ReadTo opened following last after := by
  obtain ⟨shorter, state, runs, held⟩ := first
  obtain ⟨final, more, done⟩ := second state held
  exact ⟨shorter, final, runs.trans more, done⟩

end ReadTo

namespace BlockState

/-- A state in which the next blocks start, on what is left when an open list is finished. A list does
not go on with them. -/
structure Accepts (base : BlockState) (blocks : List Block) (state : BlockState) : Prop where
  settled : state.emptyItem = false
  finish : state.finishList = base
  apart : ∀ mark tight children outer, state.spine = ⟨.list mark tight, children⟩ :: outer →
    blocks.head?.bind ordered? ≠ some (mark == '.' || mark == ')')

namespace Accepts

variable {base state : BlockState} {blocks : List Block}

theorem flags (accepts : Accepts base blocks state) : base.emptyItem = false ∧ base.lastBlank = false :=
  accepts.finish ▸ finishList_flags state accepts.settled

/-- A state accepts all blocks in itself where no list is open. -/
theorem self (settled : state.emptyItem = false) (unseen : state.lastBlank = false)
    (tidy : Tidy state) : Accepts state blocks state := by
  refine ⟨settled, ?_, fun _ _ _ _ same => absurd same (tidy.head _ _ _ _)⟩
  rw [finishList_of_tidy settled tidy.head, unseen]
  rfl

/-- Another list starts. -/
theorem continueList {ordered tight : Bool} {items rest : List Block}
    (accepts : Accepts base (.list ordered tight items :: rest) state) :
    state.continueList (markOf ordered) = base.enter (.list (markOf ordered) true) := by
  obtain ⟨settled, finish, apart⟩ := accepts
  obtain ⟨_, unseen⟩ := finishList_flags state settled
  have fresh (state : BlockState) (unseen : state.lastBlank = false) :
      { state.enter (.list (markOf ordered) true) with lastBlank := false } =
        state.enter (.list (markOf ordered) true) := by
    rw [← unseen]
    rfl
  rw [BlockState.continueList, finishEmptyItem_eq state settled]
  dsimp only
  split
  · rename_i existing _ children outer same
    have other : (existing == markOf ordered) = false := by
      refine beq_false_of_ne ?_
      rintro rfl
      refine apart _ _ _ _ same ?_
      cases ordered <;> rfl
    rw [other, if_neg Bool.false_ne_true, finish, fresh base (finish ▸ unseen)]
  · rename_i empty
    rw [← finish, finishList_of_tidy settled (by simp [empty])]
    split
    · rw [loosened, empty]
      simp [enter, withBlank, loosenAt, empty]
    · rename_i unseen
      exact fresh state (by simpa using unseen)
  · rw [finish, fresh base (finish ▸ unseen)]

end Accepts

/-- A list goes on with items of its kind. -/
theorem continueList_self {state : BlockState} {mark : Char} {tight : Bool} {children : List Block}
    {outer : List OpenContainer} (settled : state.emptyItem = false) (unseen : state.lastBlank = false)
    (listed : state.spine = ⟨.list mark tight, children⟩ :: outer) : state.continueList mark = state := by
  rw [continueList, finishEmptyItem_eq state settled]
  simp [listed, unseen]

/-- The last block may be open still. Only a list goes on after an empty line. -/
def Left (target state : BlockState) : Prop :=
  ∃ extra, Above target extra state ∧ state.lastBlank = false ∧
    ((∀ block ∈ target.lastBlock?, ordered? block = none) → unquoted extra = [])

/-- A state is left once nothing is open above it. -/
theorem Left.self {state : BlockState} (settled : state.emptyItem = false)
    (unseen : state.lastBlank = false) : Left state state := by
  refine ⟨[], ⟨?_, (List.append_nil _).symm, .none, settled⟩, unseen, fun _ => rfl⟩
  rw [withBlank_self unseen, closed_of_le (Nat.le_refl _)]

/-- Empty lines wait for the next block. -/
theorem Left.wait {target state : BlockState} (left : Left target state) {blank : List Line}
    (nonempty : blank ≠ []) (empty : ∀ line ∈ blank, line.content = within target.containers [])
    (rest : List Line) :
    ∃ last, Runs (state, blank ++ rest) (last, rest) ∧ ∃ extra, Waits target extra last := by
  have each : ∀ state extra, Above target extra state → ∀ line ∈ blank, ∀ following,
      ∃ next, blockStep state line following = (next, following) ∧ ∃ extra, Waits target extra next := by
    intro state extra above line member following
    obtain ⟨next, step, kept, seen, _⟩ := above.blank (empty line member) following
    exact ⟨next, step, extra, kept, seen⟩
  obtain ⟨extra, above, _⟩ := left
  obtain ⟨line, more, rfl⟩ := List.exists_cons_of_ne_nil nonempty
  obtain ⟨next, step, waits⟩ := each state extra above line List.mem_cons_self (more ++ rest)
  have later : ∀ state, ∀ other ∈ more, ∀ following, (∃ extra, Waits target extra state) →
      ∃ next, blockStep state other following = (next, following) ∧ ∃ extra, Waits target extra next :=
    fun state other member following ⟨_, waits⟩ =>
      each state _ waits.above other (List.mem_cons_of_mem line member) following
  obtain ⟨last, runs, final⟩ := Runs.of_each rest later waits
  refine ⟨last, .step ?_ ?_, final⟩
  · exact Nat.le_of_eq (congrArg (·.2.length) step)
  · exact step ▸ runs

/-- Empty lines in a quote go unseen if no list is open in it. -/
theorem Left.pass {inside state : BlockState} {children : List Block} {outer : List OpenContainer}
    (left : Left inside state) (quoted : inside.spine = ⟨.quote, children⟩ :: outer) {blank : List Line}
    (empty : ∀ line ∈ blank, line.content = within inside.containers [])
    (unlisted : blank ≠ [] → ∀ block ∈ inside.lastBlock?, ordered? block = none) (rest : List Line) :
    ∃ last, Runs (state, blank ++ rest) (last, rest) ∧ Left inside last := by
  by_cases none : blank = []
  · subst none
    exact ⟨state, .refl _, left⟩
  · have bare := unlisted none
    refine Runs.of_each rest (fun state line member following kept => ?_) left
    obtain ⟨extra, above, unseen, flat⟩ := kept
    obtain ⟨next, step, above, _, same⟩ := above.blank (empty line member) following
    have nothing := flat bare
    refine ⟨next, step, _, above, (same ⟨nothing, children, outer, quoted⟩).trans unseen, fun _ => ?_⟩
    rw [nothing]
    rfl

/-- The last item is open still. -/
def ItemLeft (target state : BlockState) : Prop :=
  ∃ indent extra, 0 < indent ∧ state.closed target.spine.length = target ∧
    state.containers = target.containers ++ .item indent :: extra ∧
    state.emptyItem = false ∧ state.lastBlank = false

/-- Adds items to the innermost list. -/
def withItems (state : BlockState) (items : List Block) : BlockState :=
  match state.spine with
  | ⟨.list mark tight, children⟩ :: outer =>
    { state with spine := ⟨.list mark (tight && isTight items), items.reverse ++ children⟩ :: outer }
  | _ => state

/-- Adding items in two parts. -/
theorem withItems_append {state : BlockState} {mark : Char} {tight : Bool} {children : List Block}
    {outer : List OpenContainer} (listed : state.spine = ⟨.list mark tight, children⟩ :: outer)
    (items more : List Block) :
    (state.withItems items).withItems more = state.withItems (items ++ more) := by
  simp [withItems, listed, isTight, Bool.and_assoc]

theorem withItems_spine {state : BlockState} {mark : Char} {tight : Bool} {children : List Block}
    {outer : List OpenContainer} (listed : state.spine = ⟨.list mark tight, children⟩ :: outer)
    (items : List Block) :
    (state.withItems items).spine =
      ⟨.list mark (tight && isTight items), items.reverse ++ children⟩ :: outer := by
  rw [withItems, listed]

theorem withItems_flags (state : BlockState) (items : List Block) :
    (state.withItems items).emptyItem = state.emptyItem ∧
      (state.withItems items).lastBlank = state.lastBlank := by
  unfold withItems
  split <;> exact ⟨rfl, rfl⟩

theorem containers_of_spine {state : BlockState} {inner : OpenContainer} {outer : List OpenContainer}
    (same : state.spine = inner :: outer) :
    state.containers = (outer.map (·.container)).reverse ++ [inner.container] := by
  simp [containers, same]

/-- Lines in a list are those around it. -/
theorem within_of_list {state : BlockState} {mark : Char} {tight : Bool} {children : List Block}
    {outer : List OpenContainer} (listed : state.spine = ⟨.list mark tight, children⟩ :: outer) :
    within state.containers = within (outer.map (·.container)).reverse := by
  rw [containers_of_spine listed, within_concat]
  rfl

theorem enter_containers (state : BlockState) (container : Container) :
    (state.enter container).containers = state.containers ++ [container] := by
  simp [containers, enter]

/-- Closing takes the innermost container away. -/
theorem containers_of_close {inside target : BlockState} {inner : OpenContainer}
    {outer : List OpenContainer} (spine : inside.spine = inner :: outer) (close : inside.close = target) :
    inside.containers = target.containers ++ [inner.container] := by
  rw [← close, close_containers, containers_of_spine spine, List.dropLast_concat]

/-- What is left of all containers inside one is left when that one is closed as well. -/
theorem closed_of_close {state inside target : BlockState} {inner : OpenContainer}
    {outer : List OpenContainer} (spine : inside.spine = inner :: outer)
    (closes : state.closed inside.spine.length = inside) (close : inside.close = target) :
    state.closed target.spine.length = target := by
  have deeper : inside.spine.length = target.spine.length + 1 := by
    rw [← containers_length, containers_of_close spine close, List.length_append, containers_length]
    rfl
  have shorter := close_spine_length inside
  have less : target.spine.length ≤ inside.spine.length := by omega
  rw [← closed_closed less, closes, ← closed_close (by omega), closed_of_le (by omega), close]

/-- What is left in a quote is left around it as well. -/
theorem Left.close_quote {inside target state : BlockState} {children : List Block}
    {outer : List OpenContainer} (left : Left inside state)
    (quoted : inside.spine = ⟨.quote, children⟩ :: outer) (close : inside.close = target) :
    Left target state := by
  obtain ⟨extra, above, unseen, _⟩ := left
  refine ⟨.quote :: extra, ⟨closed_of_close quoted above.closes close, ?_, .quote extra, above.settled⟩,
    unseen, fun _ => rfl⟩
  rw [above.containers, containers_of_close quoted close, List.append_assoc]
  rfl

/-- A list that is closed comes last. -/
theorem lastBlock?_close {state : BlockState} {mark : Char} {tight : Bool} {children : List Block}
    {outer : List OpenContainer} (same : state.spine = ⟨.list mark tight, children⟩ :: outer) :
    state.close.lastBlock? = some (.list (mark == '.' || mark == ')') tight children.reverse) := by
  rw [close, same]
  exact lastBlock?_append _ _

/-- A finished list is a block. -/
theorem close_withItems {base : BlockState} (settled : base.emptyItem = false) (ordered : Bool)
    (items : List Block) :
    ((base.enter (.list (markOf ordered) true)).withItems items).close =
      base.append (.list ordered (isTight items) items) := by
  have kind : (markOf ordered == '.' || markOf ordered == ')') = ordered := by cases ordered <;> rfl
  obtain ⟨blocks, spine, definitions, lastBlank, _⟩ := base
  obtain rfl := settled
  simp only [withItems, enter, close, finished, kind, Bool.true_and, List.append_nil, List.reverse_reverse]
  cases isTight items <;> rfl

/-- Blocks in a quote change nothing around it. -/
theorem addAll_quote {base : BlockState} (tidy : Tidy base) (children : List Block) :
    (base.enter .quote).addAll children =
      { base with spine := ⟨.quote, children.reverse⟩ :: base.spine } := by
  have same : loosenAt 0 base.spine = base.spine := by
    cases spine : base.spine with
    | nil => rfl
    | cons inner outer =>
      obtain ⟨container, blocks⟩ := inner
      cases container with
      | list mark tight => exact absurd spine (tidy.head mark tight blocks outer)
      | _ => rfl
  have entered : (base.enter .quote).spine = ⟨.quote, []⟩ :: base.spine := rfl
  rw [addAll_inside children entered, same, ite_self, List.append_nil]
  rfl

/-- A finished quote is a block. -/
theorem close_addAll_quote {base : BlockState} (tidy : Tidy base) (children : List Block) :
    ((base.enter .quote).addAll children).close = base.append (.quote children) := by
  simp [addAll_quote tidy, close, finished]

/-- A finished item is part of its list. -/
theorem close_addAll_item {base : BlockState} {mark : Char} {tight : Bool} {listed : List Block}
    {outer : List OpenContainer} (inside : base.spine = ⟨.list mark tight, listed⟩ :: outer)
    (indent : Nat) (children : List Block) :
    ((base.enter (.item indent)).addAll children).close = base.withItems [.item children] := by
  have entered : (base.enter (.item indent)).spine = ⟨.item indent, []⟩ :: base.spine := rfl
  rw [addAll_inside children entered]
  obtain ⟨blocks, spine, definitions, lastBlank, emptyItem⟩ := base
  obtain rfl := inside
  by_cases few : children.length ≤ 1 <;>
    simp [close, finished, enter, append, withItems, isTight, few, loosenAt]

end BlockState

open BlockState

/-- The lines are read as these blocks, whatever is open around them. -/
def ReadsBlocks (children : List Block) (lines : List (List Char)) : Prop :=
  ∀ base state column ending body rest fuel first others, lines = first :: others →
    Accepts base children state → Tidy base →
    body.map (·.content) = others.map (within base.containers) → Fed body →
    Ends base.containers rest → first.length < fuel →
    ReadTo (openContainers ending (body ++ rest) fuel state { column, rest := first }) (body ++ rest)
      rest (Left (base.addAll children))

/-- The lines are read as items of the list that goes on with them. -/
def ReadsItems (ordered : Bool) (items : List Block) (lines : List (List Char)) : Prop :=
  ∀ base state tight children outer column ending body rest fuel first others,
    lines = first :: others → state.continueList (markOf ordered) = base →
    base.emptyItem = false → base.lastBlank = false →
    base.spine = ⟨.list (markOf ordered) tight, children⟩ :: outer →
    body.map (·.content) = others.map (within base.containers) → Fed body →
    (∀ indent, 0 < indent → Ends (base.containers ++ [.item indent]) rest) → first.length < fuel →
    ReadTo (openContainers ending (body ++ rest) fuel state { column, rest := first }) (body ++ rest)
      rest (ItemLeft (base.withItems items))

theorem ReadsBlocks.leaf {block : Block} {lines : List (List Char)} (leaf : LeafLines block lines) :
    ReadsBlocks [block] lines := by
  rintro base state column ending body rest fuel first others rfl accepts tidy same fed ends enough
  obtain ⟨fuel, rfl⟩ := Nat.exists_eq_add_one.mpr (Nat.zero_lt_of_lt enough)
  obtain ⟨settled, unseen⟩ := accepts.flags
  obtain ⟨c, rest, starts, inked, notQuote, item⟩ := leaf.opens column
  have read := leaf.leafBlock base column ending same fed ends
  rw [starts] at item read ⊢
  rw [openContainers_leaf accepts.finish inked notQuote item, read]
  obtain ⟨settledAfter, unseenAfter⟩ := append_flags base block
  refine ⟨by simp, _, .refl _, .self ?_ ?_⟩
  · exact settledAfter.trans settled
  · exact unseenAfter.trans unseen

/-- A quote is entered where its mark stands. -/
theorem openContainers_quote {base state : BlockState} (finish : state.finishList = base)
    (ending : LineEnding) (following : List Line) (fuel column : Nat) (c : Char) (text : List Char) :
    openContainers ending following (fuel + 1) state
        { column, rest := Container.quote.lineIn (c :: text) } =
      openContainers ending following fuel (base.enter .quote)
        { column := column + 2, rest := c :: text } := by
  have line : Container.quote.lineIn (c :: text) = '>' :: ' ' :: c :: text := rfl
  have blanks := skipUpTo_inked (c := '>') column (' ' :: c :: text) (by decide)
  have item : itemStart? 0 { column, rest := '>' :: ' ' :: c :: text } = none := by
    simp [itemStart?, ListMark.read?]
  have mark : quoteMark? { column, rest := '>' :: ' ' :: c :: text } =
      some { column := column + 2, rest := c :: text } := by
    simp [quoteMark?, Cursor.next, Cursor.skipUpTo, Cursor.skipBlanks, Cursor.skipBlanksFrom]
  rw [line, openContainers]
  simp only [blanks, item, mark, finish]
  rfl

theorem ReadsBlocks.quote {children : List Block} {lines : List (List Char)} (starts : Starts lines)
    (inner : ReadsBlocks children lines) (gap : Nat)
    (closes : 0 < gap → ∀ block ∈ children.getLast?, ordered? block = none) :
    ReadsBlocks [.quote children] ((lines ++ List.replicate gap []).map Container.quote.lineIn) := by
  intro base state column ending body rest fuel first others spelled accepts tidy same fed ends enough
  obtain ⟨c, text, others, rfl, inked⟩ := starts
  rw [List.cons_append, List.map_cons, List.cons.injEq] at spelled
  obtain ⟨rfl, rfl⟩ := spelled
  obtain ⟨fuel, rfl⟩ := Nat.exists_eq_add_one.mpr (Nat.zero_lt_of_lt enough)
  obtain ⟨settled, unseen⟩ := accepts.flags
  have containers := enter_containers base .quote
  rw [List.map_append, List.map_append] at same
  obtain ⟨body, blank, rfl, sameBody, sameBlank⟩ := List.map_eq_append_iff.mp same
  have empty : ∀ line ∈ blank, 0 < gap ∧ line.content = within (base.enter .quote).containers [] := by
    intro line member
    have content := List.mem_map_of_mem (f := (·.content)) member
    rw [sameBlank, List.map_replicate, List.map_replicate, List.mem_replicate] at content
    rw [containers, within_concat]
    exact ⟨Nat.pos_of_ne_zero content.1, content.2⟩
  have ended : Ends (base.enter .quote).containers (blank ++ rest) := by
    cases blank with
    | nil =>
      rw [containers]
      exact ends.append _
    | cons line more => exact .empty (empty line List.mem_cons_self).2
  have spine : ((base.enter .quote).addAll children).spine = ⟨.quote, children.reverse⟩ :: base.spine := by
    rw [addAll_quote tidy]
  rw [openContainers_quote accepts.finish, List.append_assoc]
  have read := inner (base.enter .quote) (base.enter .quote) (column + 2) ending body (blank ++ rest) fuel
    (c :: text) others rfl (.self settled unseen tidy.enter_quote) tidy.enter_quote
    (by rw [containers, within_concat, sameBody, List.map_map]) fed.append_left ended
    (by simp [Container.lineIn] at enough ⊢; omega)
  have inQuote : ((base.enter .quote).addAll children).containers = (base.enter .quote).containers := by
    rw [containers_of_spine spine, containers, BlockState.containers]
  have unlisted : blank ≠ [] → ∀ block ∈ ((base.enter .quote).addAll children).lastBlock?,
      ordered? block = none := by
    intro gap block among
    obtain ⟨line, member⟩ := List.exists_mem_of_ne_nil blank gap
    refine closes (empty line member).1 block ?_
    rw [lastBlock?, spine] at among
    simpa using among
  refine read.runs fun state left => ?_
  obtain ⟨last, runs, passed⟩ :=
    left.pass spine (fun line member => inQuote ▸ (empty line member).2) unlisted rest
  exact ⟨last, runs, passed.close_quote spine (close_addAll_quote tidy children)⟩

theorem ReadsBlocks.list {ordered : Bool} {items : List Block} {lines : List (List Char)}
    (inner : ReadsItems ordered items lines) :
    ReadsBlocks [.list ordered (isTight items) items] lines := by
  intro base state column ending body rest fuel first others spelled accepts tidy same fed ends enough
  obtain ⟨settled, unseen⟩ := accepts.flags
  have containers := enter_containers base (.list (markOf ordered) true)
  obtain ⟨shorter, last, runs, indent, extra, positive, closes, kept, settledAfter, unseenAfter⟩ :=
    inner (base.enter (.list (markOf ordered) true)) state true [] base.spine column ending body rest fuel
      first others spelled accepts.continueList settled unseen rfl
      (by rw [containers, within_concat]; exact same) fed
      (fun indent positive => by rw [containers]; exact (ends.append _).append _) enough
  have entered : (base.enter (.list (markOf ordered) true)).spine =
      ⟨.list (markOf ordered) true, []⟩ :: base.spine := rfl
  have spine := withItems_spine entered items
  refine ⟨shorter, last, runs, .list (markOf ordered) (true && isTight items) :: .item indent :: extra,
    ⟨?_, ?_, .list _ _ _ positive, settledAfter⟩, unseenAfter, fun single => ?_⟩
  · rw [withBlank_self unseenAfter]
    exact closed_of_close spine closes (close_withItems settled ordered items)
  · rw [kept, containers_of_spine spine, addAll, append_containers, BlockState.containers,
      List.append_assoc]
    rfl
  · have listed := single _ (lastBlock?_append base _)
    cases listed

/-- Empty lines keep blocks apart. -/
theorem ReadsBlocks.next {block : Block} {blocks : List Block} {lines more : List (List Char)}
    (starts : Starts lines) (first : ReadsBlocks [block] lines) (gap : Nat)
    (apart : ∀ ordered, ordered? block = some ordered → blocks.head?.bind ordered? ≠ some ordered)
    (nonempty : blocks ≠ []) (startsMore : Starts more) (others : ReadsBlocks blocks more) :
    ReadsBlocks (block :: blocks) (lines ++ (List.replicate (gap + 1) [] ++ more)) := by
  intro base state column ending body rest fuel line later spelled accepts tidy same fed ends enough
  obtain ⟨c, text, own, rfl, inked⟩ := starts
  obtain ⟨d, textMore, ownMore, rfl, inkedMore⟩ := startsMore
  rw [List.cons_append, List.cons.injEq] at spelled
  obtain ⟨rfl, rfl⟩ := spelled
  simp only [List.map_append, List.map_eq_append_iff] at same
  obtain ⟨body, _, rfl, sameBody, blank, _, rfl, sameBlank, sameMore⟩ := same
  obtain ⟨line, bodyMore, rfl, content, sameMore⟩ := List.map_eq_cons_iff.mp sameMore
  have containers := append_containers base block
  have empty : ∀ line ∈ blank, line.content = within (base.append block).containers [] := by
    intro line member
    have content := List.mem_map_of_mem (f := (·.content)) member
    rw [sameBlank, List.map_replicate, List.mem_replicate] at content
    rw [containers]
    exact content.2
  have blank_ : blank ≠ [] := by
    rintro rfl
    simp at sameBlank
  have ended : Ends base.containers (blank ++ line :: (bodyMore ++ rest)) := by
    obtain ⟨line, more, rfl⟩ := List.exists_cons_of_ne_nil blank_
    exact .empty (containers ▸ empty line List.mem_cons_self)
  have fedMore := fed.append_right.append_right
  have read := first base state column ending body (blank ++ line :: (bodyMore ++ rest)) fuel (c :: text) own
    rfl ⟨accepts.settled, accepts.finish, accepts.apart⟩ tidy sameBody fed.append_left ended enough
  rw [List.append_assoc, List.append_assoc, List.cons_append]
  have waiting := read.runs fun state (left : Left (base.append block) state) =>
    left.wait blank_ empty (line :: (bodyMore ++ rest))
  refine waiting.next fun state reached => ?_
  obtain ⟨extra, waits⟩ := reached
  obtain ⟨left, after, step, settled, finish, closes⟩ :=
    waits.next (tidy.append block) inkedMore (containers ▸ content) (bodyMore ++ rest)
  have accepted : Accepts (base.append block).loosened blocks left := by
    refine ⟨settled, finish, fun mark tight children outer listed => apart _ ?_⟩
    have last := lastBlock?_append base block
    rw [← closes mark tight children outer listed] at last
    have other := lastBlock?_close (show (left.withBlank false).spine = _ from listed)
    rw [other] at last
    obtain rfl := Option.some.inj last
    rfl
  have bare : base.containers.map Container.bare =
      (base.append block).loosened.containers.map Container.bare := by
    rw [loosened_bare, containers]
  obtain ⟨next, later, rfl⟩ := List.exists_cons_of_ne_nil nonempty
  rw [step]
  refine others (base.append block).loosened left after line.ending bodyMore rest _ (d :: textMore) ownMore
    rfl accepted (tidy.append block).loosened ?_ ?_ (ends.congr bare) ?_
  · rw [sameMore, funext (within_congr bare)]
  · exact fedMore.tail
  · rw [content]
    exact Nat.lt_succ_of_le (length_le_within _ _)

/-- An item is read from its marker on. -/
theorem ReadsItems.item {ordered : Bool} {children : List Block} {marker first : List Char}
    {others : List (List Char)} (marks : IsMarker marker (markOf ordered))
    (noRule : ordered = false → isRule (marker ++ ' ' :: first) = false)
    (starts : Starts (first :: others)) (inner : ReadsBlocks children (first :: others)) :
    ReadsItems ordered [.item children]
      ((marker ++ ' ' :: first) :: others.map (Container.item (marker.length + 1)).lineIn) := by
  intro base state tight listed outer column ending body rest fuel line later spelled continues settled
    unseen inside same fed ends enough
  obtain ⟨c, text, _, same', inked⟩ := starts
  obtain ⟨rfl, _⟩ := List.cons.inj same'
  obtain ⟨rfl, rfl⟩ := List.cons.inj spelled
  obtain ⟨fuel, rfl⟩ := Nat.exists_eq_add_one.mpr (Nat.zero_lt_of_lt enough)
  have kind : (markOf ordered == '.' || markOf ordered == ')') = ordered := by cases ordered <;> rfl
  obtain ⟨number, after, start⟩ := marks.itemStart? text column inked fun unordered =>
    noRule (kind ▸ unordered)
  have opened : openContainers ending (body ++ rest) (fuel + 1) state
      { column, rest := marker ++ ' ' :: c :: text } =
        openContainers ending (body ++ rest) fuel (base.enter (.item (marker.length + 1)))
          { column := after, rest := c :: text } := by
    obtain ⟨d, own, rfl, inkedMark, _⟩ := marks.first
    have blanks := skipUpTo_inked column (own ++ ' ' :: c :: text) inkedMark
    have content : isBlankLine (c :: text) = false := by simp [isBlankLine, inked]
    rw [List.cons_append] at start ⊢
    simp [openContainers, blanks, start, continues, content]
  have containers := enter_containers base (.item (marker.length + 1))
  have tidy : Tidy (base.enter (.item (marker.length + 1))) := trivial
  have read := inner (base.enter (.item (marker.length + 1))) (base.enter (.item (marker.length + 1))) after
    ending body rest fuel (c :: text) others rfl (.self settled unseen tidy) tidy
    (by rw [containers, within_concat, same, List.map_map]) fed (containers ▸ ends _ (by omega))
    (by simp only [List.length_append, List.length_cons] at enough ⊢; omega)
  rw [opened]
  refine read.runs fun last reached => ?_
  obtain ⟨extra, above, unseenAfter, _⟩ := reached
  let item := (base.enter (.item (marker.length + 1))).addAll children
  have entered : (base.enter (.item (marker.length + 1))).spine =
      ⟨.item (marker.length + 1), []⟩ :: base.spine := rfl
  have close : item.close = base.withItems [.item children] := close_addAll_item inside _ children
  have spine := congrArg BlockState.spine (addAll_inside children entered)
  refine ⟨last, .refl _, marker.length + 1, extra, by omega, closed_of_close spine ?_ close, ?_,
    above.settled, unseenAfter⟩
  · rw [← withBlank_self unseenAfter]
    exact above.closes
  · rw [above.containers]
    exact (congrArg (· ++ extra) (containers_of_close spine close)).trans (List.append_assoc ..)

/-- The next item starts where the last one is left. -/
theorem BlockState.ItemLeft.blockStep_next {base last : BlockState} {ordered tight : Bool} {listed : List Block}
    {outer : List OpenContainer} (left : ItemLeft base last)
    (spine : base.spine = ⟨.list (markOf ordered) tight, listed⟩ :: outer) {marker text : List Char}
    (marks : IsMarker marker (markOf ordered)) {line : Line}
    (content : line.content = within base.containers (marker ++ ' ' :: text)) (following : List Line) :
    ∃ column, blockStep last line following =
      openContainers line.ending following (line.content.length + 1) base
        { column, rest := marker ++ ' ' :: text } := by
  obtain ⟨indent, extra, positive, closes, kept, _⟩ := left
  obtain ⟨d, mark, rfl, inked, _⟩ := marks.first
  rw [within_of_list spine] at content
  obtain ⟨column, followed⟩ := followSpine_nextItem (markOf ordered) tight extra (mark ++ ' ' :: text)
    positive inked content
  have depth : base.spine.length = (outer.map (·.container)).reverse.length + 1 := by
    rw [spine]
    simp
  have follows : followSpine last.containers { rest := line.content } =
      (base.spine.length, { column, rest := d :: (mark ++ ' ' :: text) }) := by
    rw [kept, containers_of_spine spine, List.append_assoc, depth]
    exact followed
  refine ⟨column, ?_⟩
  rw [blockStep_of_followSpine follows, closes]
  rfl

/-- The next item of a list. -/
theorem ReadsItems.next {ordered : Bool} {item : Block} {items : List Block}
    {lines : List (List Char)} {marker text : List Char} {others : List (List Char)}
    (starts : Starts lines) (first : ReadsItems ordered [item] lines)
    (marks : IsMarker marker (markOf ordered))
    (more : ReadsItems ordered items ((marker ++ ' ' :: text) :: others)) :
    ReadsItems ordered (item :: items) (lines ++ (marker ++ ' ' :: text) :: others) := by
  intro base state tight listed outer column ending body rest fuel line later spelled continues settled
    unseen inside same fed ends enough
  obtain ⟨c, own, own', rfl, inked⟩ := starts
  rw [List.cons_append, List.cons.injEq] at spelled
  obtain ⟨rfl, rfl⟩ := spelled
  rw [List.map_append] at same
  obtain ⟨body, _, rfl, sameBody, sameMore⟩ := List.map_eq_append_iff.mp same
  obtain ⟨line, bodyMore, rfl, content, sameMore⟩ := List.map_eq_cons_iff.mp sameMore
  have ended : ∀ indent, 0 < indent →
      Ends (base.containers ++ [.item indent]) (line :: (bodyMore ++ rest)) := by
    intro indent positive
    rw [containers_of_spine inside, List.append_assoc]
    exact .item positive marks (within_of_list inside ▸ content)
  have read := first base state tight listed outer column ending body (line :: (bodyMore ++ rest)) fuel
    (c :: own) own' rfl continues settled unseen inside sameBody fed.append_left ended enough
  rw [List.append_assoc, List.cons_append]
  refine read.next fun last (left : ItemLeft (base.withItems [item]) last) => ?_
  have spine := withItems_spine inside [item]
  obtain ⟨settledNow, unseenNow⟩ := withItems_flags base [item]
  have within_ : within (base.withItems [item]).containers = within base.containers := by
    rw [within_of_list spine, within_of_list inside]
  have ends_ : ∀ indent, 0 < indent → Ends ((base.withItems [item]).containers ++ [.item indent]) rest := by
    intro indent positive
    refine (ends indent positive).congr ?_
    rw [containers_of_spine spine, containers_of_spine inside]
    simp [Container.bare]
  obtain ⟨after, step⟩ := left.blockStep_next spine marks (within_ ▸ content) (bodyMore ++ rest)
  rw [step]
  have rest_ := more (base.withItems [item]) (base.withItems [item]) _ _ outer after line.ending bodyMore rest
    (line.content.length + 1) (marker ++ ' ' :: text) others rfl
    (continueList_self (settledNow.trans settled) (unseenNow.trans unseen) spine)
    (settledNow.trans settled) (unseenNow.trans unseen) spine (within_ ▸ sameMore)
    fed.append_right.tail ends_ (by rw [content]; exact Nat.lt_succ_of_le (length_le_within _ _))
  rwa [withItems_append inside] at rest_

/-- How lines are read, blocks or items. -/
def Series.Reads : Series → List Block → List (List Char) → Prop
  | .blocks, children, lines => ReadsBlocks children lines
  | .items ordered _, parts, lines => ReadsItems ordered parts lines

namespace BlockLines

theorem reads {kind : Series} {blocks : List Block} {lines : List (List Char)}
    (spelled : BlockLines kind blocks lines) : kind.Reads blocks lines := by
  induction spelled with
  | leaf lines => exact ReadsBlocks.leaf lines
  | quote inner gap closes ih => exact ReadsBlocks.quote inner.starts ih gap closes
  | list inner ih => exact ReadsBlocks.list ih
  | next first gap apart others ihFirst ihOthers =>
    exact ReadsBlocks.next first.starts ihFirst gap apart others.ne_nil others.starts ihOthers
  | item short noRule inner ih =>
    exact ReadsItems.item (itemMarker_isMarker short) noRule inner.starts ih
  | nextItem first others ihFirst ihOthers =>
    obtain ⟨marker, text, more, marks, rfl⟩ := others.marked
    exact ReadsItems.next first.starts ihFirst marks ihOthers

/-- A text is read as the blocks that its lines spell. Empty lines at its end do not matter. -/
theorem blocksOf {blocks : List Block} {lines : List (List Char)}
    (spelled : BlockLines .blocks blocks lines) {text : List Char} (gap : Nat)
    (same : contents text = lines ++ List.replicate gap []) (plain : ∀ c ∈ text, c ≠ '\r') :
    blocksOf text = (blocks, []) := by
  obtain ⟨c, own, others, rfl, inked⟩ := spelled.starts
  have fed := linesOf_fed text plain
  rw [contents, List.cons_append] at same
  obtain ⟨line, following, lines, content, sameMore⟩ := List.map_eq_cons_iff.mp same
  obtain ⟨body, blank, rfl, sameBody, sameBlank⟩ := List.map_eq_append_iff.mp sameMore
  rw [lines] at fed
  have inside : within ({} : BlockState).containers = id := rfl
  have empty : ∀ line ∈ blank, line.content = [] := by
    intro line member
    have content := List.mem_map_of_mem (f := (·.content)) member
    rw [sameBlank] at content
    exact List.eq_of_mem_replicate content
  have ends : Ends ({} : BlockState).containers blank := by
    cases blank with
    | nil => exact .nil
    | cons line more => exact .empty (empty line List.mem_cons_self)
  have start : Accepts {} blocks {} := .self rfl rfl trivial
  have reads : ReadsBlocks blocks ((c :: own) :: others) := spelled.reads
  have read := reads {} {} 0 line.ending body blank (line.content.length + 1) (c :: own) others rfl
    start trivial (by rw [sameBody, inside, List.map_id]) fed.tail.append_left
    ends (by rw [content]; exact Nat.lt_succ_self _)
  have top := addAll_top blocks (show ({} : BlockState).spine = [] from rfl)
  let target : BlockState := ({} : BlockState).addAll blocks
  have each : ∀ state, ∀ line ∈ blank, ∀ following, (∃ extra, Above target extra state) →
      ∃ next, blockStep state line following = (next, following) ∧ ∃ extra, Above target extra next := by
    rintro state line member following ⟨extra, above⟩
    have bare : line.content = within target.containers [] := by
      rw [empty line member, show target = _ from top]
      rfl
    obtain ⟨next, step, kept, _⟩ := above.blank bare following
    exact ⟨next, step, _, kept⟩
  obtain ⟨shorter, last, runs, extra, above⟩ := read.runs fun state reached => by
    obtain ⟨extra, above, _⟩ := reached
    have run := Runs.of_each [] each ⟨extra, above⟩
    rwa [List.append_nil] at run
  have step : blockStep {} line (body ++ blank) =
      openContainers line.ending (body ++ blank) (line.content.length + 1) {} { rest := c :: own } := by
    rw [← content]
    rfl
  have run : Runs ({}, line :: (body ++ blank)) (last, []) := .step (step ▸ shorter) (step ▸ runs)
  have all := run.runBlocks ((line :: (body ++ blank)).length + 1) (Nat.lt_succ_self _)
  have closed := above.closes
  rw [closed_withBlank, show target = _ from top] at closed
  have blocks_ := congrArg (fun state : BlockState => (state.blocks.reverse, state.definitions)) closed
  simp only [Markup.blocksOf, lines, all]
  simpa [withBlank] using blocks_

end BlockLines

end DocComment.Markup
