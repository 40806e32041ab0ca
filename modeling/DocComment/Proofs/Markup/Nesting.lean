import DocComment.Proofs.Markup.LeafBlocks

namespace DocComment.Markup

namespace BlockState

/-- No list is innermost, and no list is just around a quote. -/
def Tidy (state : BlockState) : Prop :=
  match state.spine with
  | ⟨.list .., _⟩ :: _ => False
  | ⟨.quote, _⟩ :: ⟨.list .., _⟩ :: _ => False
  | _ => True

/-- Containers that the last block can leave open: a quote, or a list with its last item. -/
inductive Extra : List Container → Prop where
  | none : Extra []
  | quote (inner : List Container) : Extra (.quote :: inner)
  | list (mark : Char) (tight : Bool) {indent : Nat} (inner : List Container) (positive : 0 < indent) :
      Extra (.list mark tight :: .item indent :: inner)

/-- A state that is the target once the last block is closed. -/
structure Above (target : BlockState) (extra : List Container) (state : BlockState) : Prop where
  closes : (state.withBlank false).closed target.spine.length = target
  containers : state.containers = target.containers ++ extra
  extra : Extra extra
  settled : state.emptyItem = false

/-- What is left of extra containers after an empty line. -/
def unquoted (extra : List Container) : List Container :=
  extra.takeWhile (· != .quote)

theorem Extra.unquoted {extra : List Container} (kind : Extra extra) : Extra (unquoted extra) := by
  cases kind with
  | none => exact .none
  | quote => exact .none
  | list mark tight inner positive => exact .list mark tight _ positive

/-- An empty line goes unseen where it only belongs to a quote. -/
def Unseen (target : BlockState) (extra : List Container) : Prop :=
  unquoted extra = [] ∧ ∃ children outer, target.spine = ⟨.quote, children⟩ :: outer

/-- The state after an empty line. -/
structure Waits (target : BlockState) (extra : List Container) (state : BlockState) : Prop where
  above : Above target (unquoted extra) state
  blank : state.lastBlank = true ∨ Unseen target extra

/-- A line that follows some of the containers closes the others. -/
theorem blockStep_of_followSpine {state : BlockState} {line : Line} {count : Nat} {cursor : Cursor}
    (follows : followSpine state.containers { rest := line.content } = (count, cursor))
    (following : List Line) : blockStep state line following =
      openContainers line.ending following (line.content.length + 1) (state.closed count) cursor := by
  simp only [blockStep, follows]
  rfl

theorem openContainers_empty {state : BlockState} (settled : state.emptyItem = false)
    (ending : LineEnding) (following : List Line) (fuel column : Nat) :
    openContainers ending following (fuel + 1) state { column, rest := [] } =
      (match state.spine with
        | ⟨.quote, _⟩ :: _ => state
        | _ => state.withBlank true, following) := by
  have start : Cursor.skipUpTo 4 { column, rest := [] } = (0, { column, rest := [] }) := rfl
  have item : itemStart? 0 { column, rest := [] } = none := rfl
  have quote : quoteMark? { column, rest := [] } = none := rfl
  have blank : isBlankLine [] = true := rfl
  obtain ⟨blocks, spine, definitions, lastBlank, _⟩ := state
  obtain rfl := settled
  simp only [openContainers, start, item, quote, blank]
  cases spine with
  | nil => rfl
  | cons inner outer =>
    obtain ⟨container, children⟩ := inner
    cases container <;> rfl

theorem containers_length (state : BlockState) : state.containers.length = state.spine.length := by
  simp [containers]

/-- The innermost container is the last of all. -/
theorem exists_innermost {state : BlockState} {outer : List Container} {container : Container}
    (same : state.containers = outer ++ [container]) :
    ∃ children rest, state.spine = ⟨container, children⟩ :: rest := by
  cases spine : state.spine with
  | nil => simp [containers, spine] at same
  | cons inner rest =>
    simp only [containers, spine, List.map_cons, List.reverse_cons] at same
    obtain ⟨_, own⟩ := List.append_inj' same rfl
    obtain rfl := (List.cons.inj own).1
    exact ⟨_, _, rfl⟩

/-- If the innermost container is a quote, it is none of those that stay open on an empty line. -/
theorem unquoted_eq_nil {extra outer : List Container}
    (last : (outer ++ unquoted extra).getLast? = some .quote) : unquoted extra = [] := by
  rcases List.eq_nil_or_concat' (unquoted extra) with none | ⟨before, container, apart⟩
  · exact none
  · rw [apart, ← List.append_assoc, List.getLast?_concat] at last
    obtain rfl := Option.some.inj last
    have member : Container.quote ∈ unquoted extra := by simp [apart]
    simpa using List.mem_takeWhile_imp member

/-- An empty line closes quotes of the last block. -/
theorem Above.blank {target state : BlockState} {extra : List Container}
    (above : Above target extra state) {line : Line}
    (empty : line.content = within target.containers []) (following : List Line) :
    ∃ next, blockStep state line following = (next, following) ∧
      Above target (unquoted extra) next ∧
      (next.lastBlank = true ∨ Unseen target extra) ∧
      (Unseen target extra → next.lastBlank = state.lastBlank) := by
  obtain ⟨column, followed⟩ := followSpine_within target.containers 0 []
  have follows : followSpine state.containers { rest := line.content } =
      ((unquoted extra).length + target.containers.length, { column, rest := [] }) := by
    rw [above.containers, empty, followSpine_append, followed, if_pos rfl, followSpine_empty]
    rfl
  let left := state.closed ((unquoted extra).length + target.containers.length)
  obtain ⟨settled, same⟩ := closed_flags ((unquoted extra).length + target.containers.length) state
    above.settled
  have kept : left.containers = target.containers ++ unquoted extra := by
    rw [closed_containers, above.containers, Nat.add_comm, List.take_length_add_append]
    congr 1
    exact (List.prefix_iff_eq_take.mp (List.takeWhile_prefix _)).symm
  have closes : (left.withBlank false).closed target.spine.length = target := by
    rw [← closed_withBlank, closed_closed (by rw [containers_length]; omega), above.closes]
  have step : blockStep state line following =
      (match left.spine with
        | ⟨.quote, _⟩ :: _ => left
        | _ => left.withBlank true, following) :=
    (blockStep_of_followSpine follows following).trans
      (openContainers_empty settled line.ending following line.content.length column)
  refine ⟨_, step, ?_⟩
  split
  · rename_i children outer quoted
    refine ⟨⟨closes, kept, above.extra.unquoted, settled⟩, .inr ?_, fun _ => same⟩
    have none : unquoted extra = [] := by
      apply @unquoted_eq_nil extra target.containers
      rw [← kept, BlockState.containers, quoted]
      simp
    rw [none, List.append_nil] at kept
    have depth : left.spine.length = target.spine.length := by
      rw [← containers_length, kept, containers_length]
    rw [closed_of_le (by exact Nat.le_of_eq depth)] at closes
    exact ⟨none, children, outer, by rw [← closes]; exact quoted⟩
  · rename_i unquoted_
    refine ⟨⟨closes, kept, above.extra.unquoted, settled⟩, .inl rfl, ?_⟩
    rintro ⟨none, children, outer, quoted⟩
    have own : target.containers = (outer.map (·.container)).reverse ++ [.quote] := by
      simp [BlockState.containers, quoted]
    rw [none, List.append_nil, own] at kept
    obtain ⟨_, _, innermost⟩ := exists_innermost kept
    exact absurd innermost (unquoted_ _ _)

theorem withBlank_self {state : BlockState} (blank : state.lastBlank = false) :
    state.withBlank false = state := by
  obtain ⟨blocks, spine, definitions, _, emptyItem⟩ := state
  obtain rfl := blank
  rfl

/-- Without a list innermost, closing to the target leaves it. -/
theorem Tidy.head {state : BlockState} (tidy : Tidy state) (mark : Char) (tight : Bool)
    (children : List Block) (outer : List OpenContainer) :
    state.spine ≠ ⟨.list mark tight, children⟩ :: outer := by
  intro same
  simp [Tidy, same] at tidy

theorem Tidy.enter_quote {state : BlockState} (tidy : Tidy state) : Tidy (state.enter .quote) := by
  obtain ⟨blocks, spine, definitions, lastBlank, emptyItem⟩ := state
  cases spine with
  | nil => trivial
  | cons inner outer =>
    obtain ⟨container, children⟩ := inner
    cases container with
    | list mark tight => exact absurd rfl (tidy.head mark tight children outer)
    | _ => trivial

/-- Only the containers decide, and whether a list is tight does not matter. -/
theorem tidy_iff_bare {state : BlockState} : Tidy state ↔
    match state.spine.map (·.container.bare) with
    | Container.list .. :: _ => False
    | Container.quote :: Container.list .. :: _ => False
    | _ => True := by
  unfold Tidy
  rcases state.spine with _ | ⟨⟨container, _⟩, _ | ⟨⟨next, _⟩, outer⟩⟩
  · rfl
  · cases container <;> rfl
  · cases container <;> cases next <;> rfl

theorem Tidy.congr {state other : BlockState} (tidy : Tidy state)
    (same : other.containers.map Container.bare = state.containers.map Container.bare) : Tidy other := by
  have spines : other.spine.map (·.container.bare) = state.spine.map (·.container.bare) := by
    apply List.reverse_injective
    simpa [containers, Function.comp_def] using same
  rwa [tidy_iff_bare, spines, ← tidy_iff_bare]

theorem Tidy.append {state : BlockState} (tidy : Tidy state) (block : Block) :
    Tidy (state.append block) :=
  tidy.congr (by rw [append_containers])

theorem Tidy.loosened {state : BlockState} (tidy : Tidy state) : Tidy state.loosened :=
  tidy.congr (loosened_bare state)

theorem Tidy.loosened_quote {state : BlockState} (tidy : Tidy state) {children : List Block}
    {outer : List OpenContainer} (quoted : state.spine = ⟨.quote, children⟩ :: outer) :
    BlockState.loosened state = state := by
  have same : loosenAt 1 state.spine = state.spine := by
    rw [quoted]
    cases outer with
    | nil => rfl
    | cons next rest =>
      obtain ⟨container, others⟩ := next
      cases container with
      | list => simp [Tidy, quoted] at tidy
      | _ => rfl
  rw [BlockState.loosened, same]

/-- What finishes a list that is not innermost. -/
theorem finishList_of_tidy {state : BlockState} (settled : state.emptyItem = false)
    (head : ∀ mark tight children outer, state.spine ≠ ⟨.list mark tight, children⟩ :: outer) :
    state.finishList = if state.lastBlank then state.loosened.withBlank false else state := by
  rw [finishList_eq state settled]
  cases same : state.spine with
  | nil => rfl
  | cons inner outer =>
    obtain ⟨container, children⟩ := inner
    cases container with
    | list => exact absurd same (head _ _ _ _)
    | _ => rfl

/-- A state in which the next block starts after an empty line. A list that the last block left open is
still there. -/
structure Resumes (target left : BlockState) : Prop where
  settled : left.emptyItem = false
  finish : left.finishList = target.loosened
  closes : ∀ mark tight children outer, left.spine = ⟨.list mark tight, children⟩ :: outer →
    (left.withBlank false).close = target

/-- The last block left nothing open. An empty line in a quote may have gone unseen. -/
theorem Resumes.of_bare {target left : BlockState} (tidy : Tidy target) (settled : left.emptyItem = false)
    (same : left.withBlank false = target)
    (blank : left.lastBlank = true ∨ ∃ children outer, target.spine = ⟨.quote, children⟩ :: outer) :
    Resumes target left := by
  have spine : left.spine = target.spine := by rw [← same]; rfl
  refine ⟨settled, ?_, fun mark tight children outer listed => ?_⟩
  · rw [finishList_of_tidy settled fun _ _ _ _ => spine ▸ tidy.head _ _ _ _]
    split
    · rw [← same]
      rfl
    · rename_i shown
      have unseen : left.lastBlank = false := by simpa using shown
      rw [withBlank_self unseen] at same
      subst same
      rcases blank with seen | ⟨children, outer, quoted⟩
      · exact absurd seen shown
      · exact (tidy.loosened_quote quoted).symm
  · exact absurd (spine ▸ listed) (tidy.head _ _ _ _)

/-- The last block is a list, which is open. -/
theorem Resumes.of_list {target left : BlockState} {mark : Char} {tight : Bool}
    (settled : left.emptyItem = false) (seen : left.lastBlank = true)
    (open_ : left.containers = target.containers ++ [.list mark tight])
    (closes : (left.withBlank false).closed target.spine.length = target) : Resumes target left := by
  obtain ⟨listed, outer, spine⟩ := exists_innermost open_
  have close : (left.withBlank false).close = target := by
    have deep : (left.withBlank false).spine.length = target.spine.length + 1 := by
      have length := congrArg List.length open_
      rw [containers_length, List.length_append, containers_length] at length
      exact length
    have shorter := close_spine_length (left.withBlank false)
    rw [← closed_close (by omega), closed_of_le (by omega)] at closes
    exact closes
  refine ⟨settled, ?_, fun _ _ _ _ _ => close⟩
  obtain ⟨_, blankClose⟩ := close_flags left settled
  rw [finishList_eq left settled, spine]
  dsimp only
  rw [blankClose, seen, if_pos rfl, ← close, close_withBlank]
  rfl

/-- After an empty line comes the first line of the next block. -/
theorem Waits.next {target state : BlockState} {extra : List Container}
    (waits : Waits target extra state) (tidy : Tidy target) {line : Line} {c : Char}
    {text : List Char} (inked : isLineBlank c = false)
    (content : line.content = within target.containers (c :: text)) (following : List Line) :
    ∃ left column, blockStep state line following =
        openContainers line.ending following (line.content.length + 1) left { column, rest := c :: text } ∧
      Resumes target left := by
  obtain ⟨⟨closes, kept, kind, settled⟩, blank⟩ := waits
  have depth := containers_length target
  have noQuote : Container.quote ∉ unquoted extra := fun member => by
    simpa using List.mem_takeWhile_imp member
  rw [Unseen] at blank
  generalize unquoted extra = more at kept kind noQuote blank
  cases kind with
  | quote => exact absurd List.mem_cons_self noQuote
  | none =>
    obtain ⟨column, followed⟩ := followSpine_within target.containers 0 (c :: text)
    obtain ⟨settledLeft, blankLeft⟩ := closed_flags target.containers.length state settled
    have follows : followSpine state.containers { rest := line.content } =
        (target.containers.length, { column, rest := c :: text }) := by
      rw [kept, List.append_nil, content, followed]
    refine ⟨_, column, blockStep_of_followSpine follows following, .of_bare tidy settledLeft ?_ ?_⟩
    · rw [← closed_withBlank, depth, closes]
    · exact blank.imp blankLeft.trans And.right
  | @list mark tight indent inner positive =>
    obtain ⟨column, followed⟩ := followSpine_nextItem mark tight inner text positive inked content
    obtain ⟨settledLeft, blankLeft⟩ := closed_flags (target.containers.length + 1) state settled
    have seen : state.lastBlank = true := blank.resolve_right fun unseen => nomatch unseen.1
    have open_ : (state.closed (target.containers.length + 1)).containers =
        target.containers ++ [.list mark tight] := by
      rw [closed_containers, kept, List.take_length_add_append]
      rfl
    refine ⟨_, column, blockStep_of_followSpine (kept ▸ followed) following,
      .of_list settledLeft (blankLeft.trans seen) open_ ?_⟩
    rw [← closed_withBlank, closed_closed (by omega), closes]

/-- Adds blocks with empty lines between them. -/
def addAll (state : BlockState) : List Block → BlockState
  | [] => state
  | [block] => state.append block
  | block :: next :: rest => addAll (state.append block).loosened (next :: rest)

/-- At the top blocks change nothing else. -/
theorem addAll_top (blocks : List Block) {state : BlockState} (top : state.spine = []) :
    state.addAll blocks = { state with blocks := blocks.reverse ++ state.blocks } := by
  fun_induction addAll state blocks with
  | case1 => rfl
  | case2 state block => simp [append, top]
  | case3 state block next rest ih =>
    have same : (state.append block).loosened = { state with blocks := block :: state.blocks } := by
      simp [append, loosened, top, loosenAt]
    rw [ih (by rw [same, top]), same]
    simp

/-- In a container more than one block make the list around it loose. -/
theorem addAll_inside (blocks : List Block) {state : BlockState} {container : Container}
    {children : List Block} {outer : List OpenContainer}
    (inside : state.spine = ⟨container, children⟩ :: outer) :
    state.addAll blocks = { state with
      spine := ⟨container, blocks.reverse ++ children⟩ ::
        (if blocks.length ≤ 1 then outer else loosenAt 0 outer) } := by
  fun_induction addAll state blocks generalizing children outer with
  | case1 state =>
    obtain ⟨_, spine, _, _, _⟩ := state
    obtain rfl := inside
    rfl
  | case2 state block => simp [append, inside]
  | case3 state block next rest ih =>
    have same : (state.append block).loosened =
        { state with spine := ⟨container, block :: children⟩ :: loosenAt 0 outer } := by
      simp [append, loosened, inside, loosenAt]
    have twice : loosenAt 0 (loosenAt 0 outer) = loosenAt 0 outer := by
      cases outer with
      | nil => rfl
      | cons inner others =>
        obtain ⟨container, _⟩ := inner
        cases container <;> rfl
    rw [ih (by rw [same]), same]
    simp [twice]

/-- The last block that was added. -/
def lastBlock? (state : BlockState) : Option Block :=
  match state.spine with
  | [] => state.blocks.head?
  | inner :: _ => inner.children.head?

theorem lastBlock?_append (state : BlockState) (block : Block) :
    (state.append block).lastBlock? = some block := by
  unfold append
  split <;> simp [lastBlock?, *]

end BlockState

end DocComment.Markup
