import DocComment.Proofs.Markup.Lines

namespace DocComment.Markup

namespace Container

/-- A line as it stands in a container. An empty line keeps no blanks. -/
def lineIn (container : Container) (line : List Char) : List Char :=
  match container with
  | .quote => if line.isEmpty then ['>'] else '>' :: ' ' :: line
  | .item indent => if line.isEmpty then [] else List.replicate indent ' ' ++ line
  | .list .. => line

theorem length_le_lineIn (container : Container) (line : List Char) :
    line.length ≤ (container.lineIn line).length := by
  cases container with
  | quote => cases line <;> simp [lineIn, Nat.add_assoc]
  | item => cases line <;> simp [lineIn]
  | list => exact Nat.le_refl _

/-- The place behind the marks of a container, if a line continues it. -/
def past? (cursor : Cursor) : Container → Option Cursor
  | .quote => quoteMark? (cursor.skipUpTo 3).2
  | .item indent =>
    match cursor.skipBlanks indent with
    | (0, after) => some after
    | (_, after) => if after.rest.isEmpty then some after else none
  | .list .. => some cursor

end Container

/-- A line as it stands in containers, the outermost first. -/
def within (containers : List Container) (line : List Char) : List Char :=
  containers.foldr Container.lineIn line

theorem within_append (outer inner : List Container) (line : List Char) :
    within (outer ++ inner) line = within outer (within inner line) := by
  simp [within]

theorem within_concat (outer : List Container) (container : Container) :
    within (outer ++ [container]) = within outer ∘ container.lineIn :=
  funext fun line => within_append outer [container] line

theorem length_le_within (containers : List Container) (line : List Char) :
    line.length ≤ (within containers line).length := by
  induction containers with
  | nil => exact Nat.le_refl _
  | cons container inner ih => exact Nat.le_trans ih (container.length_le_lineIn _)

theorem skipBlanks_replicate (column count : Nat) (rest : List Char) :
    Cursor.skipBlanks count { column, rest := List.replicate count ' ' ++ rest } =
      (0, { column := column + count, rest }) := by
  have from_ (column : Nat) : Cursor.skipBlanksFrom column count (List.replicate count ' ' ++ rest) =
      (0, { column := column + count, rest }) := by
    induction count generalizing column with
    | zero => cases rest <;> simp [Cursor.skipBlanksFrom]
    | succ count ih =>
      rw [List.replicate_succ, List.cons_append, Cursor.skipBlanksFrom]
      simp [ih, Nat.add_assoc, Nat.add_comm 1]
  cases count with
  | zero => simp [Cursor.skipBlanks]
  | succ count => simp [Cursor.skipBlanks, from_]

theorem followSpine_cons (container : Container) (inner : List Container) (cursor : Cursor) :
    followSpine (container :: inner) cursor =
      match container.past? cursor with
      | some after => ((followSpine inner after).1 + 1, (followSpine inner after).2)
      | none => (0, cursor) := by
  cases container <;> rfl

/-- Containers are followed as far as the first that is not continued. -/
theorem followSpine_append (containers inner : List Container) (cursor : Cursor) :
    followSpine (containers ++ inner) cursor =
      if (followSpine containers cursor).1 = containers.length then
        ((followSpine inner (followSpine containers cursor).2).1 + containers.length,
          (followSpine inner (followSpine containers cursor).2).2)
      else followSpine containers cursor := by
  induction containers generalizing cursor with
  | nil => simp [followSpine]
  | cons container rest ih =>
    rw [List.cons_append, followSpine_cons, followSpine_cons]
    cases container.past? cursor with
    | none => simp
    | some after =>
      simp only [ih after, List.length_cons, Nat.add_right_cancel_iff]
      split <;> rfl

/-- Behind the marks of a container a line goes on as it stands in the others. -/
theorem followSpine_lineIn (container : Container) (inner : List Container) (column : Nat)
    (line : List Char) :
    ∃ after, followSpine (container :: inner) { column, rest := container.lineIn line } =
      ((followSpine inner { column := after, rest := line }).1 + 1,
        (followSpine inner { column := after, rest := line }).2) := by
  cases container with
  | quote =>
    cases line with
    | nil =>
      refine ⟨column + 1, ?_⟩
      simp [followSpine, Container.lineIn, Cursor.skipUpTo, Cursor.skipBlanks, Cursor.skipBlanksFrom,
        quoteMark?, Cursor.next]
    | cons c rest =>
      refine ⟨column + 2, ?_⟩
      simp [followSpine, Container.lineIn, Cursor.skipUpTo, Cursor.skipBlanks, Cursor.skipBlanksFrom,
        quoteMark?, Cursor.next]
  | item indent =>
    cases line with
    | nil =>
      refine ⟨column, ?_⟩
      cases indent <;>
        simp [followSpine, Container.lineIn, Cursor.skipBlanks, Cursor.skipBlanksFrom]
    | cons c rest =>
      refine ⟨column + indent, ?_⟩
      have skipped := skipBlanks_replicate column indent (c :: rest)
      simp [followSpine, Container.lineIn, skipped]
  | list => exact ⟨column, rfl⟩

/-- A line is followed through the containers it stands in. -/
theorem followSpine_within (containers : List Container) (column : Nat) (line : List Char) :
    ∃ after, followSpine containers { column, rest := within containers line } =
      (containers.length, { column := after, rest := line }) := by
  induction containers generalizing column with
  | nil => exact ⟨column, rfl⟩
  | cons container rest ih =>
    obtain ⟨next, first⟩ := followSpine_lineIn container rest column (within rest line)
    obtain ⟨after, others⟩ := ih next
    exact ⟨after, first.trans (by rw [others, List.length_cons])⟩

/-- An empty line stays in items and lists, up to the first quote. -/
theorem followSpine_empty (containers : List Container) (column : Nat) :
    followSpine containers { column, rest := [] } =
      ((containers.takeWhile (· != .quote)).length, { column, rest := [] }) := by
  induction containers with
  | nil => rfl
  | cons container inner ih =>
    cases container with
    | quote =>
      simp [followSpine, Cursor.skipUpTo, Cursor.skipBlanks, Cursor.skipBlanksFrom, quoteMark?]
    | item indent =>
      cases indent <;> simp [followSpine, Cursor.skipBlanks, Cursor.skipBlanksFrom, ih]
    | list mark tight => simp [followSpine, ih]

/-- A line that no blank begins is not part of an item. -/
theorem followSpine_item {c : Char} (inked : c ≠ ' ' ∧ c ≠ '\t') (indent column : Nat)
    (inner : List Container) (rest : List Char) (positive : 0 < indent) :
    followSpine (.item indent :: inner) { column, rest := c :: rest } =
      (0, { column, rest := c :: rest }) := by
  obtain ⟨wanted, rfl⟩ := Nat.exists_eq_add_one.mpr positive
  simp [followSpine, skipBlanks_inked column _ rest positive inked]

/-- It may be the next item of the list. -/
theorem followSpine_nextItem {containers : List Container} {line : List Char} {c : Char} (mark : Char)
    (tight : Bool) {indent : Nat} (inner : List Container) (rest : List Char) (positive : 0 < indent)
    (inked : isLineBlank c = false) (same : line = within containers (c :: rest)) :
    ∃ column, followSpine (containers ++ .list mark tight :: .item indent :: inner) { rest := line } =
      (containers.length + 1, { column, rest := c :: rest }) := by
  obtain ⟨column, followed⟩ := followSpine_within containers 0 (c :: rest)
  have left := followSpine_item (not_blank inked) indent column inner rest positive
  refine ⟨column, ?_⟩
  rw [same, followSpine_append, followed, if_pos rfl, followSpine]
  simp [left, Nat.add_comm]

/-- A list marker for items with this mark. -/
structure IsMarker (marker : List Char) (mark : Char) : Prop where
  first : ∃ c rest, marker = c :: rest ∧ isLineBlank c = false ∧ c ≠ '>'
  read : ∀ rest, ∃ number, ListMark.read? (marker ++ ' ' :: rest) = some ⟨mark, number, marker.length⟩

namespace IsMarker

variable {marker : List Char} {mark : Char}

theorem interruptsParagraph (marks : IsMarker marker mark) (text : List Char) :
    interruptsParagraph false (marker ++ ' ' :: text) = true := by
  obtain ⟨number, read⟩ := marks.read text
  have item : itemInterrupts false (marker ++ ' ' :: text) = true := by
    simp [itemInterrupts, read]
  simp [Markup.interruptsParagraph, item]

end IsMarker

/-- What ends the blocks in some containers: a line that is empty where they end, or an item of a list
outside. -/
def EndsAt (containers : List Container) (line : List Char) : Prop :=
  ∃ count column,
    followSpine containers { rest := line } = (count, { column, rest := [] }) ∨
    ∃ marker mark text, count < containers.length ∧ IsMarker marker mark ∧
      followSpine containers { rest := line } = (count, { column, rest := marker ++ ' ' :: text })

/-- The next line, if there is one, ends the blocks. -/
def Ends (containers : List Container) (lines : List Line) : Prop :=
  ∀ line ∈ lines.head?, EndsAt containers line.content

namespace Ends

variable {containers : List Container} {line : Line} {lines : List Line}

theorem nil : Ends containers [] := nofun

theorem empty (same : line.content = within containers []) : Ends containers (line :: lines) := by
  rintro _ ⟨⟩
  obtain ⟨after, followed⟩ := followSpine_within containers 0 []
  exact ⟨_, after, .inl (same ▸ followed)⟩

/-- What ends blocks ends the blocks inside of them. -/
theorem append (ends : Ends containers lines) (inner : List Container) :
    Ends (containers ++ inner) lines := by
  intro line first
  obtain ⟨count, column, same | ⟨marker, mark, text, less, marks, same⟩⟩ := ends line first
  · by_cases all : count = containers.length
    · subst all
      have left := followSpine_empty inner column
      refine ⟨(inner.takeWhile (· != .quote)).length + containers.length, column, .inl ?_⟩
      rw [followSpine_append, same, if_pos rfl, left]
    · refine ⟨count, column, .inl ?_⟩
      rw [followSpine_append, same, if_neg all]
  · refine ⟨count, column, .inr ⟨marker, mark, text, ?_, marks, ?_⟩⟩
    · rw [List.length_append]
      omega
    · rw [followSpine_append, same, if_neg (Nat.ne_of_lt less)]

/-- An item ends the one before. -/
theorem item {marker text : List Char} {mark other : Char} {tight : Bool} {indent : Nat}
    (positive : 0 < indent) (marks : IsMarker marker mark)
    (same : line.content = within containers (marker ++ ' ' :: text)) :
    Ends (containers ++ [.list other tight, .item indent]) (line :: lines) := by
  rintro _ ⟨⟩
  obtain ⟨c, rest, first, inked, _⟩ := marks.first
  subst first
  obtain ⟨column, followed⟩ :=
    followSpine_nextItem other tight [] (rest ++ ' ' :: text) positive inked same
  exact ⟨containers.length + 1, column, .inr ⟨_, mark, text, by simp, marks, followed⟩⟩

theorem paragraphRest (ends : Ends containers lines) : paragraphRest containers lines = ⟨[], none, lines⟩ := by
  cases lines with
  | nil => rfl
  | cons line more =>
    obtain ⟨count, column, same | ⟨marker, mark, text, less, marks, same⟩⟩ := ends line rfl
    · have blanks : Cursor.skipBlanks 4 { column, rest := [] } = (4, { column, rest := [] }) := rfl
      have none : underlineLevel? [] = none := rfl
      simp [Markup.paragraphRest, same, blanks, none]
    · obtain ⟨c, rest, rfl, inked, _⟩ := marks.first
      have interrupts := marks.interruptsParagraph text
      have blanks := skipBlanks_inked column 4 (rest ++ ' ' :: text) (by omega) (not_blank inked)
      have outside : (count == containers.length) = false := by simp; omega
      rw [List.cons_append] at same interrupts
      simp [Markup.paragraphRest, same, blanks, outside, interrupts]

theorem definitionLines (ends : Ends containers lines) : definitionLines containers lines = [] := by
  cases lines with
  | nil => rfl
  | cons line more =>
    obtain ⟨count, column, same | ⟨marker, mark, text, less, marks, same⟩⟩ := ends line rfl
    · have blanks : Cursor.skipBlanks 4 { column, rest := [] } = (4, { column, rest := [] }) := rfl
      simp [Markup.definitionLines, same, blanks]
    · have outside : (count != containers.length) = true := by simp; omega
      simp [Markup.definitionLines, same, outside]

end Ends

/-- A container whether or not its list is tight. -/
def Container.bare : Container → Container
  | .list mark _ => .list mark true
  | other => other

theorem followSpine_congr {containers others : List Container}
    (same : containers.map Container.bare = others.map Container.bare) (cursor : Cursor) :
    followSpine containers cursor = followSpine others cursor := by
  have past (container : Container) (cursor : Cursor) :
      container.bare.past? cursor = container.past? cursor := by
    cases container <;> rfl
  have bare (containers : List Container) (cursor : Cursor) :
      followSpine (containers.map Container.bare) cursor = followSpine containers cursor := by
    induction containers generalizing cursor with
    | nil => rfl
    | cons container inner ih => simp only [List.map_cons, followSpine_cons, past, ih]
  rw [← bare, same, bare]

theorem within_congr {containers others : List Container}
    (same : containers.map Container.bare = others.map Container.bare) (line : List Char) :
    within containers line = within others line := by
  have lineIn (container : Container) (line : List Char) :
      container.bare.lineIn line = container.lineIn line := by
    cases container <;> rfl
  have bare (containers : List Container) :
      within (containers.map Container.bare) line = within containers line := by
    induction containers with
    | nil => rfl
    | cons container inner ih =>
      change container.bare.lineIn (within (inner.map Container.bare) line) = _
      rw [ih, lineIn]
      rfl
  rw [← bare, same, bare]

theorem Ends.congr {containers others : List Container} {lines : List Line}
    (same : containers.map Container.bare = others.map Container.bare)
    (ends : Ends containers lines) : Ends others lines := by
  intro line first
  obtain ⟨count, column, holds⟩ := ends line first
  have length : containers.length = others.length := by
    simpa using congrArg List.length same
  rw [followSpine_congr same, length] at holds
  exact ⟨count, column, holds⟩

namespace BlockState

/-- Closes all but the outermost containers. -/
def closed (depth : Nat) (state : BlockState) : BlockState :=
  state.closeTo depth state.spine.length

theorem append_spine_length (state : BlockState) (block : Block) :
    (state.append block).spine.length = state.spine.length := by
  unfold append
  split <;> simp_all

theorem append_containers (state : BlockState) (block : Block) :
    (state.append block).containers = state.containers := by
  unfold append containers
  split <;> simp_all

theorem close_spine_length (state : BlockState) :
    state.close.spine.length = state.spine.length - 1 := by
  unfold close
  split
  · rename_i none
    simp [none]
  · rename_i inner outer same
    rw [append_spine_length, same]
    rfl

theorem close_containers (state : BlockState) : state.close.containers = state.containers.dropLast := by
  unfold close
  split
  · rename_i none
    simp [containers, none]
  · rename_i inner outer same
    rw [append_containers, containers, containers, same]
    simp

theorem closed_of_le {depth : Nat} {state : BlockState} (shallow : state.spine.length ≤ depth) :
    state.closed depth = state := by
  unfold closed
  cases length : state.spine.length with
  | zero => rfl
  | succ => rw [closeTo, if_pos shallow]

theorem closed_close {depth : Nat} {state : BlockState} (deep : depth < state.spine.length) :
    state.close.closed depth = state.closed depth := by
  have shorter := close_spine_length state
  obtain ⟨fuel, length⟩ := Nat.exists_eq_add_one.mpr (Nat.zero_lt_of_lt deep)
  rw [closed, closed, length, closeTo, if_neg (by omega), shorter, length]
  rfl

/-- What is closed to some depth can first be closed to a greater one. -/
theorem closed_closed {depth deeper : Nat} (le : depth ≤ deeper) (state : BlockState) :
    (state.closed deeper).closed depth = state.closed depth := by
  induction length : state.spine.length generalizing state with
  | zero => rw [closed_of_le (show state.spine.length ≤ deeper by omega)]
  | succ count ih =>
    by_cases shallow : state.spine.length ≤ deeper
    · rw [closed_of_le shallow]
    · have shorter := close_spine_length state
      rw [← closed_close (Nat.lt_of_not_le shallow), ih state.close (by omega),
        closed_close (by omega)]

theorem closed_containers (depth : Nat) (state : BlockState) :
    (state.closed depth).containers = state.containers.take depth := by
  have sized (state : BlockState) : state.containers.length = state.spine.length := by
    simp [containers]
  induction length : state.spine.length generalizing state with
  | zero =>
    rw [closed_of_le (by omega), List.take_of_length_le (by rw [sized]; omega)]
  | succ count ih =>
    by_cases shallow : state.spine.length ≤ depth
    · rw [closed_of_le shallow, List.take_of_length_le (by rw [sized]; omega)]
    · have shorter := close_spine_length state
      rw [← closed_close (Nat.lt_of_not_le shallow), ih state.close (by omega), close_containers,
        List.dropLast_eq_take, List.take_take, sized]
      congr 1
      omega

theorem append_flags (state : BlockState) (block : Block) :
    (state.append block).emptyItem = state.emptyItem ∧
      (state.append block).lastBlank = state.lastBlank := by
  unfold append
  split <;> exact ⟨rfl, rfl⟩

/-- What is left of the flags when a container is closed. -/
theorem close_flags (state : BlockState) (settled : state.emptyItem = false) :
    state.close.emptyItem = false ∧ state.close.lastBlank = state.lastBlank := by
  unfold close
  split
  · exact ⟨settled, rfl⟩
  · refine ⟨(append_flags _ _).1.trans ?_, (append_flags _ _).2⟩
    dsimp only
    split
    · rfl
    · exact settled

theorem closed_flags (depth : Nat) (state : BlockState) (settled : state.emptyItem = false) :
    (state.closed depth).emptyItem = false ∧ (state.closed depth).lastBlank = state.lastBlank := by
  induction length : state.spine.length generalizing state with
  | zero =>
    rw [closed_of_le (by omega)]
    exact ⟨settled, rfl⟩
  | succ count ih =>
    by_cases shallow : state.spine.length ≤ depth
    · rw [closed_of_le shallow]
      exact ⟨settled, rfl⟩
    · obtain ⟨empty, blank⟩ := close_flags state settled
      have shorter := close_spine_length state
      obtain ⟨empty', blank'⟩ := ih state.close empty (by omega)
      rw [← closed_close (Nat.lt_of_not_le shallow)]
      exact ⟨empty', blank'.trans blank⟩

/-- After a blank line, or not. -/
def withBlank (blank : Bool) (state : BlockState) : BlockState :=
  { state with lastBlank := blank }

theorem close_withBlank (blank : Bool) (state : BlockState) :
    (state.withBlank blank).close = state.close.withBlank blank := by
  unfold close withBlank
  dsimp only
  split
  · rfl
  · rename_i inner outer same
    unfold append
    cases outer <;> rfl

theorem closed_withBlank (depth : Nat) (blank : Bool) (state : BlockState) :
    (state.withBlank blank).closed depth = (state.closed depth).withBlank blank := by
  have spine (state : BlockState) : (state.withBlank blank).spine = state.spine := rfl
  induction length : state.spine.length generalizing state with
  | zero => rw [closed_of_le (by rw [spine]; omega), closed_of_le (by omega)]
  | succ count ih =>
    by_cases shallow : state.spine.length ≤ depth
    · rw [closed_of_le (by rwa [spine]), closed_of_le shallow]
    · have shorter := close_spine_length state
      rw [← closed_close (by rw [spine]; omega), ← closed_close (Nat.lt_of_not_le shallow),
        close_withBlank, ih state.close (by omega)]

/-- The list of the innermost item is loose. -/
def loosened (state : BlockState) : BlockState :=
  { state with spine := loosenAt 1 state.spine }

theorem loosened_bare (state : BlockState) :
    state.loosened.containers.map Container.bare = state.containers.map Container.bare := by
  obtain ⟨blocks, spine, definitions, lastBlank, emptyItem⟩ := state
  rcases spine with _ | ⟨inner, _ | ⟨⟨container, children⟩, outer⟩⟩
  · rfl
  · rfl
  · cases container <;> simp [loosened, loosenAt, containers, Container.bare]

theorem finishEmptyItem_eq (state : BlockState) (settled : state.emptyItem = false) :
    state.finishEmptyItem = state := by
  unfold finishEmptyItem
  simp only [settled, Bool.false_and, Bool.false_eq_true, if_false]
  rw [← settled]

theorem finishList_eq (state : BlockState) (settled : state.emptyItem = false) :
    state.finishList =
      let left := match state.spine with
        | ⟨.list .., _⟩ :: _ => state.close
        | _ => state
      if left.lastBlank then left.loosened.withBlank false else left := by
  unfold finishList
  rw [finishEmptyItem_eq state settled]
  rfl

theorem finishList_flags (state : BlockState) (settled : state.emptyItem = false) :
    state.finishList.emptyItem = false ∧ state.finishList.lastBlank = false := by
  have flags (left : BlockState) (settled : left.emptyItem = false) :
      (if left.lastBlank then left.loosened.withBlank false else left).emptyItem = false ∧
        (if left.lastBlank then left.loosened.withBlank false else left).lastBlank = false := by
    split
    · exact ⟨settled, rfl⟩
    · rename_i unseen
      exact ⟨settled, by simpa using unseen⟩
  rw [finishList_eq state settled]
  refine flags _ ?_
  split
  · exact (close_flags state settled).1
  · exact settled

end BlockState

end DocComment.Markup
