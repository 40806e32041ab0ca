import DocComment.Proofs.Markup.Legible
import DocComment.Proofs.Markup.Skeleton
import DocComment.Proofs.Markup.WrittenLines

namespace DocComment.Markup

/-- Inline content that was found in a row, as a paragraph. -/
def paragraphOf (run : List Entity) : List Entity :=
  if run.isEmpty then [] else [.node .paragraph run]

/-- Entities as blocks. Inline content among them, after what was found already, is in paragraphs. -/
def paragraphs (run : List Entity) : List Entity → List Entity
  | [] => paragraphOf run
  | entity :: rest =>
    if entity.isBlock then paragraphOf run ++ entity :: paragraphs [] rest
    else paragraphs (run ++ [entity]) rest

theorem paragraphs_blocks {entities : List Entity} (blocks : ∀ entity ∈ entities, entity.isBlock = true) :
    paragraphs [] entities = entities := by
  induction entities with
  | nil => rfl
  | cons entity rest ih =>
    obtain ⟨first, others⟩ := List.forall_mem_cons.mp blocks
    rw [paragraphs, if_pos first, ih others]
    rfl

theorem inlineMarkup_concat (written : List Char) (run : List Entity) (entity : Entity) :
    inlineMarkup written (run ++ [entity]) =
      inlineMarkup written run ++ markupOf (atLineStart (inlineMarkup written run)) entity := by
  induction run generalizing written with
  | nil => rfl
  | cons first others ih => rw [List.cons_append, inlineMarkup, ih, inlineMarkup]

namespace Layout

@[simp] theorem endParagraph_endParagraph (layout : Layout) :
    layout.endParagraph.endParagraph = layout.endParagraph := by
  by_cases empty : layout.inline.isEmpty = true
  · simp [endParagraph, empty]
  · simp [endParagraph, empty]

@[simp] theorem finish_endParagraph (layout : Layout) : layout.endParagraph.finish = layout.finish := by
  rw [finish, endParagraph_endParagraph, finish]

@[simp] theorem addBlock_endParagraph (layout : Layout) (block : List Char) :
    layout.endParagraph.addBlock block = layout.addBlock block := by
  rw [addBlock, endParagraph_endParagraph, addBlock]

theorem addBlock_content (blocks : List (List Char)) (written : List Char) :
    addBlock ⟨blocks, []⟩ written = endParagraph ⟨blocks, written⟩ := by
  cases written <;> rfl

theorem addBlock_ended (layout : Layout) (block : List Char) :
    ∃ blocks, layout.addBlock block = ⟨blocks, []⟩ := by
  have ended : ∃ blocks, layout.endParagraph = ⟨blocks, []⟩ := by
    by_cases empty : layout.inline.isEmpty = true
    · exact ⟨layout.blocks, by rw [endParagraph, if_pos empty, ← List.isEmpty_iff.mp empty]⟩
    · exact ⟨_, by rw [endParagraph, if_neg empty]⟩
  obtain ⟨blocks, same⟩ := ended
  rw [addBlock, same]
  cases block with
  | nil => exact ⟨blocks, rfl⟩
  | cons => exact ⟨_, rfl⟩

end Layout

theorem blockMarkup_block {entity : Entity} (block : entity.isBlock = true) (layout : Layout)
    (rest : List Entity) : blockMarkup layout (entity :: rest) =
      blockMarkup (layout.addBlock (markupOf true entity)) rest := by
  rw [blockMarkup, if_pos block]

/-- A paragraph is laid out as its content. -/
theorem blockMarkup_paragraphOf (blocks : List (List Char)) (run rest : List Entity) :
    blockMarkup ⟨blocks, []⟩ (paragraphOf run ++ rest) =
      blockMarkup (Layout.endParagraph ⟨blocks, inlineMarkup [] run⟩) rest := by
  cases run with
  | nil => rfl
  | cons entity others =>
    have single : paragraphOf (entity :: others) = [.node .paragraph (entity :: others)] := rfl
    rw [single, List.singleton_append, blockMarkup_block rfl, markupOf, Layout.addBlock_content]

theorem blockMarkup_paragraphs (blocks : List (List Char)) (run entities : List Entity) :
    blockMarkup ⟨blocks, inlineMarkup [] run⟩ entities =
      blockMarkup ⟨blocks, []⟩ (paragraphs run entities) := by
  induction entities generalizing blocks run with
  | nil =>
    have laid := blockMarkup_paragraphOf blocks run []
    rw [List.append_nil] at laid
    rw [paragraphs, laid, blockMarkup, blockMarkup, Layout.finish_endParagraph]
  | cons entity rest ih =>
    rw [paragraphs]
    split
    · rename_i block
      rw [blockMarkup_paragraphOf, blockMarkup_block block, blockMarkup_block block,
        Layout.addBlock_endParagraph]
      obtain ⟨done, same⟩ := Layout.addBlock_ended ⟨blocks, inlineMarkup [] run⟩ (markupOf true entity)
      rw [same]
      exact ih done []
    · rename_i inline
      rw [blockMarkup, if_neg inline, ← inlineMarkup_concat, ih]

theorem skeletonAll_paragraphs (entities : List Entity) :
    (paragraphs [] entities).map skeleton = skeletonAll false entities ∧
      ∀ run, run ≠ [] → (paragraphs run entities).map skeleton =
        .node .paragraph [] :: skeletonAll true entities := by
  have paragraph (run : List Entity) (nonempty : run ≠ []) (rest : List Entity) :
      (paragraphOf run ++ rest).map skeleton = .node .paragraph [] :: rest.map skeleton := by
    simp [paragraphOf, nonempty, skeleton]
  induction entities with
  | nil =>
    refine ⟨rfl, fun run nonempty => ?_⟩
    have alone := paragraph run nonempty []
    rwa [List.append_nil] at alone
  | cons entity rest ih =>
    obtain ⟨fresh, after⟩ := ih
    by_cases block : entity.isBlock = true
    · refine ⟨?_, fun run nonempty => ?_⟩
      · rw [paragraphs, if_pos block, skeletonAll, if_pos block, ← fresh]
        rfl
      · rw [paragraphs, if_pos block, paragraph run nonempty, skeletonAll, if_pos block, ← fresh]
        rfl
    · refine ⟨?_, fun run nonempty => ?_⟩
      · rw [paragraphs, if_neg block, skeletonAll, if_neg block, if_neg Bool.false_ne_true]
        exact after [entity] (by simp)
      · rw [paragraphs, if_neg block, after _ (by simp), skeletonAll, if_neg block, if_pos rfl]

/-- Blocks are written one after another, with an empty line between. -/
theorem blockMarkup_blocks {entities : List Entity}
    (written : ∀ entity ∈ entities, entity.isBlock = true ∧ markupOf true entity ≠ [])
    (done : List (List Char)) : blockMarkup ⟨done, []⟩ entities =
      List.intercalate ['\n', '\n'] (done.reverse ++ entities.map (markupOf true)) := by
  induction entities generalizing done with
  | nil => simp [blockMarkup, Layout.finish, Layout.endParagraph]
  | cons entity rest ih =>
    obtain ⟨⟨block, nonempty⟩, others⟩ := List.forall_mem_cons.mp written
    have added : Layout.addBlock ⟨done, []⟩ (markupOf true entity) = ⟨markupOf true entity :: done, []⟩ := by
      simp [Layout.addBlock, Layout.endParagraph, nonempty]
    rw [blockMarkup_block block, added, ih others, List.reverse_cons, List.append_assoc]
    rfl

theorem write_single {entity : Entity} (block : entity.isBlock = true) (nonempty : markupOf true entity ≠ []) :
    write [entity] = String.ofList (markupOf true entity) := by
  have written : ∀ other ∈ [entity], other.isBlock = true ∧ markupOf true other ≠ [] :=
    List.forall_mem_singleton.mpr ⟨block, nonempty⟩
  rw [write, blockMarkup_blocks written []]
  simp [List.intercalate]

theorem runLength_le_longestRunFrom (c : Char) (current : Nat) (text : List Char) :
    current + runLength c text ≤ Text.longestRunFrom c current text := by
  induction text generalizing current with
  | nil => exact Nat.le_refl _
  | cons d rest ih =>
    rw [Text.longestRunFrom, runLength, List.takeWhile_cons]
    split
    · rename_i same
      have more := ih (current + 1)
      rw [runLength] at more
      rw [List.length_cons]
      omega
    · exact Nat.le_max_left _ _

theorem longestRunFrom_append (c : Char) (current : Nat) (before text : List Char) :
    ∃ start, Text.longestRunFrom c start text ≤ Text.longestRunFrom c current (before ++ text) := by
  induction before generalizing current with
  | nil => exact ⟨current, Nat.le_refl _⟩
  | cons d rest ih =>
    rw [List.cons_append, Text.longestRunFrom]
    split
    · exact ih (current + 1)
    · obtain ⟨start, less⟩ := ih 0
      exact ⟨start, Nat.le_trans less (Nat.le_max_right _ _)⟩

/-- No run in a text is longer than the longest. -/
theorem runLength_le_longestRun {c : Char} {part text : List Char} (inside : part <:+: text) :
    runLength c part ≤ Text.longestRun c text := by
  obtain ⟨before, after, rfl⟩ := inside
  obtain ⟨start, less⟩ := longestRunFrom_append c 0 before (part ++ after)
  have whole := runLength_le_longestRunFrom c start (part ++ after)
  have longer : runLength c part ≤ runLength c (part ++ after) := by
    rw [runLength, runLength, List.takeWhile_append]
    split
    · rename_i all
      rw [List.length_append, all]
      exact Nat.le_add_right _ _
    · exact Nat.le_refl _
  rw [Text.longestRun, List.append_assoc]
  omega

/-- Code that is empty or ends its last line consists of whole lines. -/
theorem exists_lines {code : List Char} (plain : ∀ c ∈ code, c ≠ '\r')
    (ends : code = [] ∨ code.getLast? = some '\n') :
    ∃ lines : List (List Char), code = lines.flatMap (· ++ ['\n']) ∧
      ∀ line ∈ lines, ∀ c ∈ line, c ≠ '\n' ∧ c ≠ '\r' := by
  induction code with
  | nil => exact ⟨[], rfl, by simp⟩
  | cons c rest ih =>
    obtain ⟨first, later⟩ := List.forall_mem_cons.mp plain
    have last : rest = [] ∨ rest.getLast? = some '\n' := by
      cases rest with
      | nil => exact .inl rfl
      | cons => exact .inr (by simpa using ends)
    obtain ⟨lines, rfl, inLine⟩ := ih later last
    by_cases lineEnd : c = '\n'
    · exact ⟨[] :: lines, by simp [lineEnd], List.forall_mem_cons.mpr ⟨by simp, inLine⟩⟩
    · cases lines with
      | nil =>
        rcases ends with none | own
        · cases none
        · exact absurd (by simpa using own) lineEnd
      | cons line others =>
        obtain ⟨own, more⟩ := List.forall_mem_cons.mp inLine
        refine ⟨(c :: line) :: others, by simp, List.forall_mem_cons.mpr ⟨?_, more⟩⟩
        exact List.forall_mem_cons.mpr ⟨⟨lineEnd, first⟩, own⟩

/-- Code whose language is read back as it is, and that consists of whole lines. -/
structure PlainFence (language code : String) : Prop where
  info : ∀ c ∈ language.toList, c ≠ '\n' ∧ c ≠ '\r' ∧ c ≠ '`'
  same : unescape (Text.dropEndWhile isLineBlank (language.toList.dropWhile isLineBlank)) =
    language.toList
  plain : ∀ c ∈ code.toList, c ≠ '\r'
  ends : code.toList = [] ∨ code.toList.getLast? = some '\n'

theorem joinLines_fenced (first last : List Char) (lines : List (List Char)) :
    Text.joinLines (first :: (lines ++ [last])) = first ++ '\n' :: (lines.flatMap (· ++ ['\n']) ++ last) := by
  rw [joinLines_cons (by simp)]
  induction lines with
  | nil => simp
  | cons line others ih =>
    have rest := List.append_cancel_left ih
    rw [List.cons_append, joinLines_cons (by simp)]
    simp at rest
    simp [rest]

/-- Plain code is written on lines that spell it. -/
theorem PlainFence.lines {language code : String} (plain : PlainFence language code) :
    ∃ lines, LeafLines (.code language.toList code.toList) lines ∧
      OnLines (codeBlockMarkup language code) lines 0 := by
  obtain ⟨lines, same, inLine⟩ := exists_lines plain.plain plain.ends
  generalize count_ : max (Text.longestRun '`' code.toList) 2 + 1 = count
  have short : ∀ line ∈ lines, ∀ before, before <:+ line → runLength '`' before < count := by
    intro line member before suffix
    have inside : before <:+: code.toList := by
      obtain ⟨front, back, rfl⟩ := List.append_of_mem member
      obtain ⟨start, rfl⟩ := suffix
      rw [same]
      exact ⟨front.flatMap (· ++ ['\n']) ++ start, '\n' :: back.flatMap (· ++ ['\n']), by simp⟩
    have bound : runLength '`' before ≤ Text.longestRun '`' code.toList := runLength_le_longestRun inside
    omega
  have enough : 3 ≤ count := by omega
  have spelled := LeafLines.code enough (fun mark => (plain.info _ mark).2.2 rfl) short
  rw [plain.same, ← same] at spelled
  refine ⟨_, spelled, ?_⟩
  have whole : codeBlockMarkup language code = Text.joinLines
      ((List.replicate count '`' ++ language.toList) :: (lines ++ [List.replicate count '`'])) := by
    have noEnd : (code.toList.isEmpty || code.toList.getLast? == some '\n') = true := by
      rcases plain.ends with empty | last
      · simp [empty]
      · simp [last]
    rw [joinLines_fenced, ← same, codeBlockMarkup, count_]
    simp [noEnd]
  have fence : ∀ c ∈ List.replicate count '`', c ≠ '\n' ∧ c ≠ '\r' :=
    List.forall_mem_replicate.mpr (.inr (by decide))
  have opening : ∀ c ∈ List.replicate count '`' ++ language.toList, c ≠ '\n' ∧ c ≠ '\r' :=
    List.forall_mem_append.mpr ⟨fence, fun c member => ⟨(plain.info c member).1, (plain.info c member).2.1⟩⟩
  have closing : ∀ line ∈ [List.replicate count '`'], ∀ c ∈ line, c ≠ '\n' ∧ c ≠ '\r' := by
    intro line member
    rw [List.mem_singleton.mp member]
    exact fence
  have nonempty : List.replicate count '`' ≠ [] := by
    rw [Ne, List.replicate_eq_nil_iff]
    omega
  rw [whole, ← List.cons_append]
  exact .of_lines nonempty (List.forall_mem_append.mpr ⟨List.forall_mem_cons.mpr ⟨opening, inLine⟩, closing⟩)

theorem contents_inLine {text : List Char} (plain : ∀ c ∈ text, c ≠ '\r') :
    ∀ line ∈ contents text, ∀ c ∈ line, c ≠ '\n' ∧ c ≠ '\r' := by
  induction text with
  | nil => simp [contents_nil]
  | cons c rest ih =>
    obtain ⟨first, later⟩ := List.forall_mem_cons.mp plain
    have others := ih later
    by_cases lineEnd : c = '\n'
    · subst lineEnd
      exact List.forall_mem_cons.mpr ⟨by simp, others⟩
    · rw [contents_cons rest ⟨lineEnd, first⟩]
      cases lines : contents rest with
      | nil => simp [lineEnd, first]
      | cons line more =>
        rw [lines] at others
        obtain ⟨own, rest⟩ := List.forall_mem_cons.mp others
        exact List.forall_mem_cons.mpr ⟨List.forall_mem_cons.mpr ⟨⟨lineEnd, first⟩, own⟩, rest⟩

/-- A text whose lines start no block is on these lines, which spell a paragraph. -/
theorem InertText.lines {text : List Char} (inert : InertText text)
    (defines : text.head? = some '[' → definition? text = none) :
    LeafLines (.paragraph text) (Markup.contents text) ∧ OnLines text (Markup.contents text) 0 := by
  have joined := joinLines_contents text inert.plain inert.open_
  have each := inert.contents
  have inLine := contents_inLine inert.plain
  obtain ⟨first, others, apart⟩ :=
    List.exists_cons_of_ne_nil (contents_ne_nil inert.plain inert.ne_nil)
  rw [apart] at each joined inLine ⊢
  refine ⟨?_, ?_⟩
  · rw [← joined]
    refine .paragraph each fun bracket => ?_
    rw [joined]
    obtain ⟨rest, start⟩ := List.head?_eq_some_iff.mp bracket
    refine defines ?_
    rw [← joined, start, joinLines_longer]
    rfl
  · obtain ⟨before, last, same⟩ := (List.eq_nil_or_concat' (first :: others)).resolve_left (by simp)
    rw [same] at each joined inLine ⊢
    obtain ⟨c, rest, nonempty, _⟩ := (each last (by simp)).first
    have on := OnLines.of_lines (show last ≠ [] by simp [nonempty]) inLine
    rwa [joined] at on

/-- A heading stands on one line. -/
theorem headingLines {level : Nat} {children : List Entity} (positive : 1 ≤ level) (atMost : level ≤ 6)
    (plain : ∀ c ∈ inlineMarkup [] children, c ≠ '\r') :
    ∃ line text, LeafLines (.heading level text) [line] ∧
      OnLines (markupOf true (.node (.heading level) children)) [line] 0 := by
  have level_ : max 1 (min level 6) = level := by omega
  refine ⟨_, _, .heading (headingLevel?_marks positive atMost
    ((inlineMarkup [] children).map fun c => if c == '\n' then ' ' else c)), ?_⟩
  rw [markupOf, level_]
  refine .single (by simp) (List.forall_mem_append.mpr ⟨?_, List.forall_mem_cons.mpr ⟨by decide, ?_⟩⟩)
  · exact List.forall_mem_replicate.mpr (.inr (by decide))
  · intro c member
    obtain ⟨d, own, rfl⟩ := List.mem_map.mp member
    by_cases lineEnd : d = '\n'
    · simp [lineEnd]
    · simpa [lineEnd] using plain d own

end DocComment.Markup
