import DocComment.Proofs.Comment.ListEnds

/-! Fenced code in list items. A fence may open on the first line of an item, behind the marker. That
line is plain text to a comment, and so the line that closes the code for markup opens a fence for the
comment, unless it closes one that some line of the code has opened. -/
namespace DocComment.Comment

open Markup (CodeFence Cursor ListMark runLength)

/-- A fence behind the marker of a list item, or behind the markers of several. The marker is indented
by `indent`, and the content of the innermost item by `width`, both in the container of the list. -/
inductive OpensCode : Nat → Cursor → CodeFence → Nat → Prop
  | here (starts : Markup.itemStart? indent cursor = some (found, width, content))
      (opens : Markup.codeFence? content.rest = some (fence, info)) :
      OpensCode indent cursor fence width
  | nested (starts : Markup.itemStart? indent cursor = some (found, outer, content))
      (inner : OpensCode 0 content fence width) : OpensCode indent cursor fence (outer + width)

/-- Like a fence that closes code whose lines start at `column`. -/
def Line.closesAt (line : Line) (column : Nat) (fence : CodeFence) : Bool :=
  decide (column ≤ line.indent) && decide (line.indent ≤ column + maxBlockIndent) &&
    decide (fence.length ≤ runLength fence.mark line.content) &&
    (line.content.drop (runLength fence.mark line.content)).all fun c => c == ' ' || c == '\t'

/-- Code that an item holds from its first line on, up to the line that closes its fence. The content of
the container of the list starts at `base`. -/
structure ItemCode (base width : Nat) (fence : CodeFence) (item : Line) (code : List Line)
    (closer : Line) : Prop where
  shallow : base ≤ item.indent ∧ item.indent ≤ base + maxBlockIndent
  opens : OpensCode (item.indent - base) { column := item.indent, rest := item.content } fence width
  inside : ∀ line ∈ code, line.isBlank = true ∨ base + width ≤ line.indent
  unclosed : ∀ line ∈ code, line.closesAt (base + width) fence = false
  closes : closer.closesAt (base + width) fence = true

theorem blank_of_skipExactly {column : Nat} {rest : List Char} {after : Cursor}
    (skipped : Cursor.skipExactly 1 { column, rest } = some after) :
    ∃ c more, rest = c :: more ∧ (c = ' ' ∨ c = '\t') := by
  cases rest with
  | nil => simp [Cursor.skipExactly, Cursor.skipBlanks, Cursor.skipBlanksFrom] at skipped
  | cons c more =>
    refine ⟨c, more, rfl, ?_⟩
    by_contra inked
    rw [not_or] at inked
    simp [Cursor.skipExactly, Cursor.skipBlanks, Cursor.skipBlanksFrom, inked] at skipped

/-- What follows the marker of an item, and how far its content is in. -/
theorem itemStart?_eq_some {indent column : Nat} {rest : List Char} {content : Cursor}
    (starts : Markup.itemStart? indent { column, rest } = some (found, width, content)) :
    ListMark.read? rest = some found ∧ 0 < width ∧
      ∀ c more, rest.drop found.width = c :: more → c = ' ' ∨ c = '\t' := by
  unfold Markup.itemStart? at starts
  cases read : ListMark.read? rest with
  | none => simp [read] at starts
  | some mark =>
    simp only [read] at starts
    split at starts
    · cases starts
    · cases skipped : Cursor.skipExactly 1
          { column := column + mark.width, rest := rest.drop mark.width } with
      | some inner =>
        obtain ⟨d, others, after, blank⟩ := blank_of_skipExactly skipped
        simp only [skipped] at starts
        have same : mark = found ∧ 0 < width := by
          split at starts
          · cases starts
            exact ⟨rfl, by omega⟩
          · split at starts
            · cases starts
              exact ⟨rfl, by omega⟩
            · cases starts
              exact ⟨rfl, by omega⟩
        obtain ⟨rfl, positive⟩ := same
        refine ⟨rfl, positive, fun c more found => ?_⟩
        rw [after] at found
        exact (List.cons.inj found).1 ▸ blank
      | none =>
        simp only [skipped] at starts
        split at starts
        · rename_i empty
          cases starts
          refine ⟨rfl, by omega, fun c more found => ?_⟩
          simp [found] at empty
        · cases starts

/-- Both read the same markers, and for the comment a blank must follow. -/
theorem listMarkerWidth?_of_read? {rest : List Char} (read : ListMark.read? rest = some found)
    (blank : ∀ c more, rest.drop found.width = c :: more → c = ' ' ∨ c = '\t') :
    listMarkerWidth? rest = some found.width := by
  cases rest with
  | nil => cases read
  | cons c more =>
    have order : (c == '-' || c == '+' || c == '*') = (c == '-' || c == '*' || c == '+') :=
      Bool.or_right_comm ..
    simp only [ListMark.read?, order] at read
    simp only [listMarkerWidth?]
    split at read
    · rename_i bullet
      cases read
      rw [if_pos bullet]
      split
      · rfl
      · rename_i d others after
        rcases blank d others after with rfl | rfl <;> rfl
    · rename_i letter
      rw [if_neg letter]
      cases after : (c :: more).drop ((c :: more).takeWhile Char.isDigit).length with
      | nil =>
        rw [after] at read
        cases read
      | cons d others =>
        simp only [after] at read
        split at read
        · rename_i fits
          cases read
          simp only [Bool.and_eq_true, decide_eq_true_eq] at fits
          obtain ⟨⟨nonempty, few⟩, delimiter⟩ := fits
          have counted : ¬ ((List.takeWhile Char.isDigit (c :: more)).length == 0 ||
              decide (9 < (List.takeWhile Char.isDigit (c :: more)).length)) = true := by
            simp only [Bool.or_eq_true, beq_iff_eq, decide_eq_true_eq]
            omega
          rw [if_neg counted]
          refine (if_pos delimiter).trans ?_
          split
          · rfl
          · rename_i e rest ends
            rcases blank e rest ends with rfl | rfl <;> rfl
        · cases read

/-- A marker is no fence. -/
theorem fence_of_listMarker {text : String} (member : line ∈ linesOf text)
    (marked : line.listMarker.isSome = true) : line.fence = none := by
  by_contra found
  obtain ⟨c, sort, long⟩ := (fence_isSome_iff member).mp (Option.isSome_iff_ne_none.mpr found)
  obtain ⟨number, content, same⟩ := exists_classify member
  subst line
  have own : (Line.classify number content).listMarker =
    listMarkerWidth? (Line.classify number content).content := rfl
  cases shown : (Line.classify number content).content with
  | nil => simp [shown, runLength, Fence.minLength] at long
  | cons d rest =>
    rw [shown] at long
    have same : c = d := mark_eq_of_runLength (Nat.lt_of_lt_of_le (by decide) long)
    subst same
    rw [own, shown] at marked
    have letter : c ≠ '-' ∧ c ≠ '*' ∧ c ≠ '+' ∧ c.isDigit = false := by
      rcases List.mem_pair.mp sort with rfl | rfl <;> decide
    simp [listMarkerWidth?, letter] at marked

namespace OpensCode

theorem code (opens : OpensCode indent cursor fence width) :
    (fence.mark = '`' ∨ fence.mark = '~') ∧ Fence.minLength ≤ fence.length := by
  induction opens with
  | @here _ _ _ _ content fence _ starts opens =>
    have code : (Markup.codeFence? content.rest).map (·.1) = some fence := by rw [opens]; rfl
    rw [codeFence?_code, detect?_code] at code
    obtain ⟨⟨sort, long, length⟩, _⟩ := code
    exact ⟨sort, length ▸ long⟩
  | nested _ _ ih => exact ih

theorem starts (opens : OpensCode indent cursor fence width) :
    ∃ found outer content, Markup.itemStart? indent cursor = some (found, outer, content) ∧
      outer ≤ width := by
  cases opens with
  | here starts _ => exact ⟨_, _, _, starts, Nat.le_refl _⟩
  | nested starts _ => exact ⟨_, _, _, starts, Nat.le_add_right _ _⟩

theorem width_pos {column : Nat} {rest : List Char}
    (opens : OpensCode indent { column, rest } fence width) : 0 < width := by
  obtain ⟨found, outer, content, starts, within⟩ := opens.starts
  exact Nat.lt_of_lt_of_le (itemStart?_eq_some starts).2.1 within

theorem listMarker {column : Nat} {rest : List Char}
    (opens : OpensCode indent { column, rest } fence width) :
    (listMarkerWidth? rest).isSome = true := by
  obtain ⟨found, outer, content, starts, _⟩ := opens.starts
  obtain ⟨read, _, blank⟩ := itemStart?_eq_some starts
  simp [listMarkerWidth?_of_read? read blank]

end OpensCode

/-- A line that looks like no fence opens none and closes none. -/
theorem fencedBy_snoc_plain {mark : Mark} (plain : mark.line.fence = none) (fence : Fence)
    (before : List Mark) : FencedBy fence (before ++ [mark]) ↔ FencedBy fence before := by
  have opensNone : mark.opens? = none := by
    unfold Mark.opens?
    split
    · rfl
    · rename_i outside
      simp [Context.fenceAfter, outside, plain]
  have unclosed : ¬ mark.Closes fence := by simp [Mark.Closes, plain, Fence.closedBy]
  rw [fencedBy_snoc, opensNone]
  simp [unclosed]

theorem fencedBy_append_plain {later : List Mark} (plain : ∀ other ∈ later, other.line.fence = none)
    (fence : Fence) (before : List Mark) :
    FencedBy fence (before ++ later) ↔ FencedBy fence before := by
  induction later using List.reverseRecOn with
  | nil => rw [List.append_nil]
  | append_singleton later last ih =>
    rw [← List.append_assoc, fencedBy_snoc_plain (plain last (by simp)),
      ih fun other member => plain other (List.mem_append_left _ member)]

/-- Text is what is neither blank nor a command. -/
theorem role_eq_text (split : marks table text = before ++ mark :: after)
    (shown : mark.line.isBlank = false) (literal : mark.isCommand = false) : mark.role = .text := by
  by_contra other
  have taken := mark.isCommand_eq_true.mpr ⟨other, role_ne_blank (role_of_split split) shown⟩
  rw [literal] at taken
  cases taken

/-- In a list a line with some indentation opens the fence that it looks like. -/
theorem opens?_in_list (split : marks table text = before ++ mark :: after)
    (outside : mark.context.fence = none) (listed : ¬ ListsEnded before)
    (deep : mark.line.indent ≠ 0) (shown : mark.line.isBlank = false) :
    mark.opens? = mark.line.fence := by
  have unended : ¬ ListsEnded (before ++ [mark]) := fun ended =>
    listed (listsEnded_of_indented (by simp [deep]) ended)
  have literal : mark.isCommand = false := by
    rw [← Bool.not_eq_true, isCommand_iff split]
    exact fun start => unended start.1.unlisted
  have tracked : (mark.context.track mark.line).inList = true := by
    rw [← Bool.not_eq_false, track_iff split outside shown (inList_iff split)]
    exact unended
  rw [opens?_eq_next outside, fence_next_text split outside (role_eq_text split shown literal),
    if_pos (.inr tracked)]

/-- In a list a line with some indentation that looks like a fence leaves none open only if it closes
one. -/
theorem unfenced_after_closer (split : marks table text = before ++ closer :: after)
    (listed : ¬ ListsEnded before) (deep : closer.line.indent ≠ 0)
    (found : closer.line.fence.isSome = true) :
    (∀ fence, ¬ FencedBy fence (before ++ [closer])) ↔
      ∃ fence, FencedBy fence before ∧ closer.Closes fence := by
  cases inside : closer.context.fence with
  | none =>
    have shown : closer.line.isBlank = false := by
      cases content : closer.line.content with
      | nil =>
        rw [fence_of_mem (mem_linesOf_of_split split), content] at found
        cases found
      | cons c rest => simp [Line.isBlank, content]
    obtain ⟨opened, own⟩ := Option.isSome_iff_exists.mp found
    have opens := (opens?_in_list split inside listed deep shown).trans own
    constructor
    · intro unfenced
      exact absurd ((fencedBy_snoc opened before closer).mpr (.inl opens)) (unfenced opened)
    · rintro ⟨fence, opened, _⟩
      rw [← fence_iff split, inside] at opened
      cases opened
  | some opened =>
    have here : FencedBy opened before := (fence_iff split opened).mp inside
    constructor
    · intro unfenced
      refine ⟨opened, here, ?_⟩
      by_contra unclosed
      exact unfenced opened ((fencedBy_snoc opened before closer).mpr (.inr ⟨here, unclosed⟩))
    · rintro ⟨fence, same, closes⟩ other later
      have own {fence : Fence} (before_ : FencedBy fence before) : fence = opened := by
        rw [← fence_iff split, inside] at before_
        exact (Option.some.inj before_).symm
      rcases (fencedBy_snoc other before closer).mp later with opens | ⟨kept, unclosed⟩
      · simp [Mark.opens?, inside] at opens
      · exact unclosed (own kept ▸ own same ▸ closes)

theorem Line.le_indent_of_closesAt {line : Line} {code : CodeFence}
    (closes : line.closesAt column code = true) :
    column ≤ line.indent ∧ code.length ≤ runLength code.mark line.content := by
  simp only [Line.closesAt, Bool.and_eq_true, decide_eq_true_eq] at closes
  exact ⟨closes.1.1.1, closes.1.2⟩

theorem ItemCode.listMarker {text : String} {item : Line}
    (fenced : ItemCode base width fence item code closer) (member : item ∈ linesOf text) :
    item.listMarker.isSome = true := by
  obtain ⟨number, content, same⟩ := exists_classify member
  subst item
  exact fenced.opens.listMarker

/-- A line with a marker is in a list if it is indented by at most three columns, or if the lists before
it have not ended. -/
theorem not_listsEnded_of_marker (split : marks table text = before ++ item :: after)
    (unfenced : ∀ fence, ¬ FencedBy fence before) (marked : item.line.listMarker.isSome = true)
    (listed : item.line.indent ≤ maxBlockIndent ∨ ¬ ListsEnded before) :
    ¬ ListsEnded (before ++ [item]) := by
  rw [listsEnded_snoc]
  rintro ⟨closed, ended⟩
  rcases listed with shallow | unended
  · refine closed ⟨(fence_eq_none_iff split).mpr unfenced, fun quoted => ?_, shallow, marked⟩
    obtain ⟨number, content, same⟩ := exists_classify (mem_linesOf_of_split split)
    rw [same] at quoted marked
    simp [listMarker_of_quoted quoted] at marked
  · rcases ended with ended | ⟨_, _, _, _, _, _, unmarked⟩
    · exact unended ended
    · simp [unmarked] at marked

/-- Take a command without indentation that follows a blank line after code in a list item, where no
line between looks like a fence. It is taken exactly if some fence of the comment is open in the code
and closed by the line that closes the code. So it is lost if no line of the code looks like a fence. -/
theorem command_after_item_code
    (split : marks table text = (earlier ++ item :: code) ++ closer :: (gap ++ mark :: after))
    (fenced : ItemCode base width fence item.line (code.map Mark.line) closer.line)
    (unfenced : ∀ other, ¬ FencedBy other earlier)
    (listed : item.line.indent ≤ maxBlockIndent ∨ ¬ ListsEnded earlier)
    (blank : FollowsBlank gap) (plain : ∀ other ∈ gap, other.line.fence = none)
    (flush : mark.line.indent = 0) (unquoted : ¬ mark.line.Quoted)
    (unmarked : mark.line.listMarker = none)
    (held : (commandIn? table mark.line).isSome = true) :
    (mark.isCommand = true ↔
      ∃ other, FencedBy other (earlier ++ item :: code) ∧ closer.Closes other) ∧
    ((∀ other ∈ code, other.line.fence = none) → mark.isCommand = false) := by
  have atItem : marks table text = earlier ++ item :: (code ++ closer :: (gap ++ mark :: after)) := by
    simpa using split
  have atMark : marks table text =
      (((earlier ++ item :: code) ++ [closer]) ++ gap) ++ mark :: after := by simpa using split
  have marked := fenced.listMarker (mem_linesOf_of_split atItem)
  have positive := fenced.opens.width_pos
  obtain ⟨sort, long⟩ := fenced.opens.code
  have inItem : ¬ ListsEnded (earlier ++ item :: code) := by
    have start := not_listsEnded_of_marker atItem unfenced marked listed
    rw [List.append_cons]
    refine fun ended => start (listsEnded_of_indented ?_ ended)
    intro other member
    rcases fenced.inside other.line (List.mem_map_of_mem member) with empty | inside
    · exact .inl empty
    · exact .inr (by omega)
  obtain ⟨reached, enough⟩ := Line.le_indent_of_closesAt fenced.closes
  have found : closer.line.fence.isSome = true :=
    (fence_isSome_iff (mem_linesOf_of_split split)).mpr
      ⟨fence.mark, by simpa using sort, long.trans enough⟩
  have closed : (∀ other, ¬ FencedBy other ((earlier ++ item :: code) ++ [closer])) ↔
      ∃ other, FencedBy other (earlier ++ item :: code) ∧ closer.Closes other :=
    unfenced_after_closer split inItem (by omega) found
  have taken : mark.isCommand = true ↔
      ∃ other, FencedBy other (earlier ++ item :: code) ∧ closer.Closes other := by
    obtain ⟨others, previous, same, empty⟩ := blank
    have follows : FollowsBlank (((earlier ++ item :: code) ++ [closer]) ++ gap) :=
      ⟨((earlier ++ item :: code) ++ [closer]) ++ others, previous, by simp [same], empty⟩
    rw [isCommand_after_blank atMark follows held, ← closed]
    simp only [fencedBy_append_plain plain, flush, Nat.zero_le, unquoted, not_false_eq_true,
      unmarked, and_self, true_or, and_true, true_and]
  refine ⟨taken, fun silent => ?_⟩
  rw [← Bool.not_eq_true, taken]
  rintro ⟨other, opened, _⟩
  refine unfenced other ((fencedBy_append_plain ?_ other earlier).mp opened)
  intro line member
  rcases List.mem_cons.mp member with rfl | inside
  · exact fence_of_listMarker (mem_linesOf_of_split atItem) marked
  · exact silent line inside

set_option maxRecDepth 8000 in
/-- The code is a plain line, and its closing fence opens one for the comment. -/
theorem command_after_fenced_item :
    ∃ item code closer blank mark,
      marks (.ofCommands [.part .effects]) "- ```\n  code\n  ```\n\n\\effects x" =
        [item, code, closer, blank, mark] ∧
      ItemCode 0 2 ⟨'`', 3⟩ item.line [code.line] closer.line ∧ blank.line.isBlank = true ∧
      (commandIn? (.ofCommands [.part .effects]) mark.line).isSome = true ∧ mark.line.indent = 0 ∧
      mark.isCommand = false := by
  let opened : Fence := ⟨.backticks, 3, true⟩
  let item : Mark := ⟨.classify 1 "- ```".toList, {}, .text⟩
  let code : Mark := ⟨.classify 2 "  code".toList, { inList := true }, .text⟩
  let closer : Mark := ⟨.classify 3 "  ```".toList, { inList := true }, .text⟩
  let blank : Mark := ⟨.classify 4 [], { fence := some opened, inList := true }, .text⟩
  let mark : Mark :=
    ⟨.classify 5 "\\effects x".toList, { fence := some opened, inList := true }, .text⟩
  have split : marks (.ofCommands [.part .effects]) "- ```\n  code\n  ```\n\n\\effects x" =
      ([] ++ item :: [code]) ++ closer :: ([blank] ++ mark :: []) := by decide
  have starts : Markup.itemStart? 0 { column := 0, rest := "- ```".toList } =
      some (⟨'-', 0, 1⟩, 2, { column := 2, rest := "```".toList }) := rfl
  have opens : Markup.codeFence? "```".toList = some (⟨'`', 3⟩, []) := rfl
  have fenced : ItemCode 0 2 ⟨'`', 3⟩ item.line ([code].map Mark.line) closer.line :=
    { shallow := by decide
      opens := .here starts opens
      inside := by decide
      unclosed := by decide
      closes := rfl }
  have held : (commandIn? (.ofCommands [.part .effects]) mark.line).isSome = true := by decide +kernel
  have lost := (command_after_item_code split fenced not_fencedBy_nil (.inl (by decide))
    ⟨[], blank, rfl, rfl⟩ (by decide) rfl
    ((quoteDepth_classify 5 _).mp rfl) rfl held).2
  exact ⟨item, code, closer, blank, mark, split, fenced, rfl, held, rfl, lost (by decide)⟩

set_option maxRecDepth 8000 in
/-- For markup the fence closes in the item, and the last line is a paragraph after the list. The command
in it is lost. -/
theorem command_lost_after_item_code :
    segment Markup.read (.ofCommands [.part .effects]) "- ```\n  code\n  ```\n\n\\effects x" =
      [.markup [.node (.list false) [.node .listItem [.leaf (.codeBlock "" "code\n")]],
        .paragraph [.text "\\effects x"]]] := by
  decide +kernel

end DocComment.Comment
