import DocComment.Proofs.Markup.RoundTrip

namespace DocComment.Markup

/-- Whether a list is ordered. -/
def listKind? : Entity → Option Bool
  | .node (.list ordered) _ => some ordered
  | _ => none

/-- A text at the end of which only line ends are trimmed away. -/
def Firm (text : List Char) : Prop :=
  Text.trimEnd text = Text.dropEndWhile (· == '\n') text

instance (text : List Char) : Decidable (Firm text) :=
  inferInstanceAs (Decidable (_ = _))

/-- Blocks, or items of a list from some number on, whose written form keeps them apart. -/
inductive Sturdy : Series → List Entity → Prop where
  /-- A paragraph whose lines start no block, and together no link definition. -/
  | paragraph {children : List Entity} {written : List Char} {ends : Nat}
      (same : inlineMarkup [] children = written ++ List.replicate ends '\n') (inert : InertText written)
      (defines : written.head? = some '[' → definition? written = none) :
      Sturdy .blocks [.node .paragraph children]
  | heading {level : Nat} {children : List Entity} (positive : 1 ≤ level) (atMost : level ≤ 6)
      (plain : ∀ c ∈ inlineMarkup [] children, c ≠ '\r') : Sturdy .blocks [.node (.heading level) children]
  | rule : Sturdy .blocks [.leaf .thematicBreak]
  | code {language code : String} (plain : PlainFence language code) :
      Sturdy .blocks [.leaf (.codeBlock language code)]
  | quote {children : List Entity} (inner : Sturdy .blocks (paragraphs [] children)) :
      Sturdy .blocks [.node .blockQuote children]
  | list {ordered : Bool} {items : List Entity} (inner : Sturdy (.items ordered 1) items) :
      Sturdy .blocks [.node (.list ordered) items]
  /-- No list comes right after a list of its kind. -/
  | next {entity : Entity} {rest : List Entity} (first : Sturdy .blocks [entity])
      (apart : ∀ ordered, listKind? entity = some ordered → rest.head?.bind listKind? ≠ some ordered)
      (others : Sturdy .blocks rest) : Sturdy .blocks (entity :: rest)
  /-- An item of which nothing is trimmed away, and whose first line is no rule together with its
  bullet. -/
  | item {ordered : Bool} {number : Nat} {children : List Entity}
      (short : (toString number).length ≤ 9) (firm : Firm (blockMarkup {} children))
      (noRule : ordered = false →
        isRule (bulletMarker ++ ' ' :: firstLine (blockMarkup {} children)) = false)
      (inner : Sturdy .blocks (paragraphs [] children)) :
      Sturdy (.items ordered number) [.node .listItem children]
  | nextItem {ordered : Bool} {number : Nat} {item : Entity} {items : List Entity}
      (first : Sturdy (.items ordered number) [item]) (others : Sturdy (.items ordered (number + 1)) items) :
      Sturdy (.items ordered number) (item :: items)

/-- Entities written on lines that spell blocks of the same structure. -/
def Series.Spelled : Series → List Entity → Prop
  | .blocks, entities => (∀ entity ∈ entities, entity.isBlock = true ∧ markupOf true entity ≠ []) ∧
      ∃ blocks lines ends, BlockLines .blocks blocks lines ∧
        OnLines (List.intercalate ['\n', '\n'] (entities.map (markupOf true))) lines ends ∧
        blocks.map Block.skeleton = entities.map skeleton ∧
        (0 < ends → ∀ entity ∈ entities.getLast?, listKind? entity = none)
  | .items ordered number, entities => (∀ entity ∈ entities, entity.isBlock = true) ∧
      ∃ blocks lines, BlockLines (.items ordered number) blocks lines ∧
        OnLines (Text.joinLines (itemsMarkup ordered number entities)) lines 0 ∧
        blocks.map Block.skeleton = entities.map skeleton

theorem skeletons_eq_map (blocks : List Block) : Block.skeletons blocks = blocks.map Block.skeleton := by
  induction blocks with
  | nil => rfl
  | cons block rest ih => rw [Block.skeletons, ih, List.map_cons]

/-- Structure tells lists and their kinds. -/
theorem ordered?_of_skeleton {block : Block} {entity : Entity} (same : block.skeleton = skeleton entity) :
    ordered? block = listKind? entity := by
  have left : ordered? block = listKind? block.skeleton := by cases block <;> rfl
  have right : listKind? (skeleton entity) = listKind? entity := by
    cases entity with
    | leaf => simp [skeleton, listKind?]
    | node tag children => cases tag <;> simp [skeleton, listKind?]
  rw [left, same, right]

/-- One block, on its own lines. -/
theorem Series.Spelled.single {entity : Entity} {block : Block} {lines : List (List Char)} {ends : Nat}
    (isBlock : entity.isBlock = true) (spelled : BlockLines .blocks [block] lines)
    (on : OnLines (markupOf true entity) lines ends) (same : block.skeleton = skeleton entity)
    (closes : 0 < ends → listKind? entity = none) : Series.Spelled .blocks [entity] := by
  refine ⟨by simpa [isBlock] using on.text_ne_nil, [block], lines, ends, spelled, ?_, by simp [same], ?_⟩
  · simpa [List.intercalate] using on
  · simpa using closes

theorem Container.lineIn_inLine (container : Container) {line : List Char}
    (inLine : ∀ c ∈ line, c ≠ '\n' ∧ c ≠ '\r') : ∀ c ∈ container.lineIn line, c ≠ '\n' ∧ c ≠ '\r' := by
  have blanks (count : Nat) : ∀ c ∈ List.replicate count ' ', c ≠ '\n' ∧ c ≠ '\r' :=
    List.forall_mem_replicate.mpr (.inr (by decide))
  cases container with
  | quote =>
    rw [lineIn]
    split
    · simp
    · exact List.forall_mem_cons.mpr ⟨by decide, List.forall_mem_cons.mpr ⟨by decide, inLine⟩⟩
  | item indent =>
    rw [lineIn]
    split
    · simp
    · exact List.forall_mem_append.mpr ⟨blanks indent, inLine⟩
  | list => exact inLine

/-- The last line of a firm text ends in something that is not trimmed away. -/
theorem Firm.last {body last : List Char} {before : List (List Char)} {ends : Nat}
    (firm : Firm body) (on : OnLines body (before ++ [last]) ends) :
    ∀ c, last.getLast? = some c → Unicode.isWhite c = false := by
  have joined := joinLines_getLast? before on.last_ne_nil
  have open_ : Text.dropEndWhile (· == '\n') (Text.joinLines (before ++ [last])) =
      Text.joinLines (before ++ [last]) := by
    refine (Text.dropEndWhile_eq_self_iff _).mpr fun c final => beq_false_of_ne ?_
    rw [joined] at final
    exact (on.inLine last (by simp) c (List.mem_of_getLast? final)).1
  have ended := @Text.dropEndWhile_append_replicate (· == '\n') '\n'
    (Text.joinLines (before ++ [last])) ends rfl
  rw [Firm, Text.trimEnd, on.same, Text.dropEndWhile_append_replicate _ _ rfl, ended, open_] at firm
  intro c final
  exact (Text.dropEndWhile_eq_self_iff _).mp firm c (joined.trans final)

/-- An item is written apart from the items after it. -/
theorem itemsMarkup_cons (ordered : Bool) (number : Nat) (item : Entity) :
    ∃ own, ∀ items, itemsMarkup ordered number (item :: items) =
      own :: itemsMarkup ordered (number + 1) items := by
  cases item with
  | leaf => exact ⟨_, fun _ => rfl⟩
  | node tag children => cases tag <;> exact ⟨_, fun _ => rfl⟩

theorem itemMarker_inLine (ordered : Bool) (number : Nat) :
    ∀ c ∈ itemMarker ordered number, c ≠ '\n' ∧ c ≠ '\r' := by
  have digits : ∀ c ∈ Nat.toDigits 10 number, c ≠ '\n' ∧ c ≠ '\r' := by
    intro c member
    have digit := Text.isDigit_of_mem_toDigits member
    constructor <;> (rintro rfl; cases digit)
  cases ordered with
  | false =>
    rw [itemMarker, if_neg Bool.false_ne_true]
    simp [bulletMarker]
  | true =>
    rw [itemMarker, if_pos rfl, Text.toString_digits]
    exact List.forall_mem_append.mpr ⟨digits, by simp⟩

/-- A list item is written on the lines of its content behind a marker. -/
theorem itemMarkup_lines {marker body first : List Char} {others : List (List Char)} {ends : Nat}
    (on : OnLines body (first :: others) ends) (firm : Firm body)
    (inLine : ∀ c ∈ marker, c ≠ '\n' ∧ c ≠ '\r') :
    OnLines (itemMarkup marker body)
      ((marker ++ ' ' :: first) :: others.map (Container.item (marker.length + 1)).lineIn) 0 := by
  generalize written_ : (marker ++ ' ' :: first) ::
    others.map (Container.item (marker.length + 1)).lineIn = written
  have each : ∀ line ∈ written, ∀ c ∈ line, c ≠ '\n' ∧ c ≠ '\r' := by
    obtain ⟨own, later⟩ := List.forall_mem_cons.mp on.inLine
    subst written_
    refine List.forall_mem_cons.mpr ⟨?_, List.forall_mem_map.mpr fun line member => ?_⟩
    · exact List.forall_mem_append.mpr ⟨inLine, List.forall_mem_cons.mpr ⟨by decide, own⟩⟩
    · exact Container.lineIn_inLine _ (later line member)
  obtain ⟨before, last, lines, nonempty, edge⟩ : ∃ before last, written = before ++ [last] ∧ last ≠ [] ∧
      ∀ c, last.getLast? = some c → Unicode.isWhite c = false := by
    subst written_
    rcases List.eq_nil_or_concat' others with rfl | ⟨start, last, rfl⟩
    · obtain ⟨d, rest, rfl⟩ := List.exists_cons_of_ne_nil (@OnLines.last_ne_nil _ _ [] _ on)
      refine ⟨[], marker ++ ' ' :: d :: rest, rfl, by simp, fun c final => ?_⟩
      exact @Firm.last _ _ [] _ firm on c (by simpa [List.getLast?_append] using final)
    · obtain ⟨d, rest, rfl⟩ := List.exists_cons_of_ne_nil (@OnLines.last_ne_nil _ _ (first :: start) _ on)
      refine ⟨(marker ++ ' ' :: first) :: start.map (Container.item (marker.length + 1)).lineIn,
        List.replicate (marker.length + 1) ' ' ++ d :: rest, ?_, by simp, fun c final => ?_⟩
      · rw [List.map_append]
        rfl
      exact @Firm.last _ _ (first :: start) _ firm on c (by simpa [List.getLast?_append] using final)
  have trimmed : itemMarkup marker body = Text.joinLines written := by
    have padded : itemMarkup marker body =
        Text.trimEnd (Text.joinLines (written ++ List.replicate (ends - 1) [])) := by
      rw [itemMarkup, on.lines_eq, ← written_]
      dsimp only [List.cons_append]
      rw [List.map_append, List.map_replicate]
      rfl
    have kept : Text.trimEnd (Text.joinLines written) = Text.joinLines written := by
      refine (Text.dropEndWhile_eq_self_iff _).mpr fun c final => edge c ?_
      rwa [lines, joinLines_getLast? before nonempty] at final
    rw [padded, joinLines_padded (by simp [lines]), Text.trimEnd,
      Text.dropEndWhile_append_replicate _ _ rfl]
    exact kept
  rw [trimmed]
  rw [lines] at each ⊢
  exact .of_lines nonempty each

namespace Series.Spelled

variable {children : List Entity}

/-- The blocks of a container, on the lines of its content. -/
theorem body (spelled : Series.Spelled .blocks (paragraphs [] children)) :
    ∃ blocks lines ends, BlockLines .blocks blocks lines ∧ OnLines (blockMarkup {} children) lines ends ∧
      Block.skeletons blocks = skeletonAll false children ∧
      (0 < ends → ∀ block ∈ blocks.getLast?, ordered? block = none) := by
  obtain ⟨written, blocks, lines, ends, lined, on, same, closes⟩ := spelled
  have markup : blockMarkup {} children =
      List.intercalate ['\n', '\n'] ((paragraphs [] children).map (markupOf true)) := by
    rw [← List.nil_append ((paragraphs [] children).map _), ← List.reverse_nil, ← blockMarkup_blocks written]
    exact blockMarkup_paragraphs [] [] children
  refine ⟨blocks, lines, ends, lined, markup ▸ on, ?_, fun nonempty block last => ?_⟩
  · rw [skeletons_eq_map, same, (skeletonAll_paragraphs children).1]
  · have ends_ := congrArg List.getLast? same
    rw [List.getLast?_map, List.getLast?_map, last] at ends_
    obtain ⟨entity, final, kind⟩ := Option.map_eq_some_iff.mp ends_.symm
    rw [ordered?_of_skeleton kind.symm]
    exact closes nonempty entity final

theorem quote (spelled : Series.Spelled .blocks (paragraphs [] children)) :
    Series.Spelled .blocks [.node .blockQuote children] := by
  obtain ⟨blocks, lines, ends, lined, on, same, closes⟩ := spelled.body
  have marked := BlockLines.quote lined (ends - 1) fun nonempty => closes (by omega)
  have written : markupOf true (.node .blockQuote children) =
      Text.joinLines ((lines ++ List.replicate (ends - 1) []).map Container.quote.lineIn) := by
    rw [markupOf, markLines, on.lines_eq]
    rfl
  have quoted : OnLines (markupOf true (.node .blockQuote children))
      ((lines ++ List.replicate (ends - 1) []).map Container.quote.lineIn) 0 := by
    rw [written]
    refine .of_shown (by simp [on.ne_nil]) ?_ ?_
    · intro line member
      obtain ⟨inner, _, rfl⟩ := List.mem_map.mp member
      cases inner <;> simp [Container.lineIn]
    · intro line member
      obtain ⟨inner, among, rfl⟩ := List.mem_map.mp member
      exact Container.lineIn_inLine _ (on.padded_inLine _ inner among)
  exact .single rfl marked quoted (by simp [Block.skeleton, skeleton, same]) (by simp)

theorem list {ordered : Bool} {items : List Entity}
    (spelled : Series.Spelled (.items ordered 1) items) :
    Series.Spelled .blocks [.node (.list ordered) items] := by
  obtain ⟨isBlock, blocks, lines, lined, on, same⟩ := spelled
  have written : OnLines (markupOf true (.node (.list ordered) items)) lines 0 := by
    rw [markupOf]
    exact on
  refine .single rfl (.list lined) written ?_ (by simp)
  rw [Block.skeleton, skeletons_eq_map, same, skeleton, skeletonAll_blocks isBlock] <;> simp

theorem next {entity : Entity} {rest : List Entity} (first : Series.Spelled .blocks [entity])
    (apart : ∀ ordered, listKind? entity = some ordered → rest.head?.bind listKind? ≠ some ordered)
    (others : Series.Spelled .blocks rest) : Series.Spelled .blocks (entity :: rest) := by
  obtain ⟨own, blocks, lines, ends, lined, on, same, closes⟩ := first
  obtain ⟨written, more, after, last, linedMore, onMore, sameMore, closesMore⟩ := others
  obtain ⟨block, rfl, sameFirst⟩ := List.map_eq_singleton_iff.mp same
  obtain ⟨following, more, rfl⟩ := List.exists_cons_of_ne_nil linedMore.ne_nil
  obtain ⟨next, others, rfl, sameNext, _⟩ := List.map_eq_cons_iff.mp sameMore.symm
  have linedAll : BlockLines .blocks (block :: following :: more)
      (lines ++ (List.replicate (ends + 1) [] ++ after)) := by
    refine .next lined ends (fun ordered kind => ?_) linedMore
    rw [ordered?_of_skeleton sameFirst] at kind
    simpa [ordered?_of_skeleton sameNext.symm] using apart ordered kind
  have whole := (on.ended 1).append onMore
  refine ⟨List.forall_mem_append.mpr ⟨own, written⟩, _, _, last, linedAll, ?_, ?_, ?_⟩
  · simpa [List.intercalate] using whole
  · simpa [sameFirst] using sameMore
  · simpa using closesMore

theorem item {ordered : Bool} {number : Nat} (short : (toString number).length ≤ 9)
    (firm : Firm (blockMarkup {} children))
    (noRule : ordered = false →
      isRule (bulletMarker ++ ' ' :: firstLine (blockMarkup {} children)) = false)
    (spelled : Series.Spelled .blocks (paragraphs [] children)) :
    Series.Spelled (.items ordered number) [.node .listItem children] := by
  obtain ⟨blocks, lines, ends, lined, on, same, _⟩ := spelled.body
  obtain ⟨first, others, rfl⟩ := List.exists_cons_of_ne_nil on.ne_nil
  have ownLine : firstLine (blockMarkup {} children) = first := by
    rw [← contents_head _ on.plain, on.contents]
    rfl
  refine ⟨by simp [Entity.isBlock], [.item blocks], _, .item short (fun bullet => ?_) lined, ?_, ?_⟩
  · rw [itemMarker, if_neg (by simp [bullet]), ← ownLine]
    exact noRule bullet
  · have written := itemMarkup_lines on firm (itemMarker_inLine ordered number)
    simpa [itemsMarkup] using written
  · simp [Block.skeleton, skeleton, same]

theorem nextItem {ordered : Bool} {number : Nat} {item : Entity} {items : List Entity}
    (first : Series.Spelled (.items ordered number) [item])
    (others : Series.Spelled (.items ordered (number + 1)) items) :
    Series.Spelled (.items ordered number) (item :: items) := by
  obtain ⟨own, blocks, lines, lined, on, same⟩ := first
  obtain ⟨ownMore, more, after, linedMore, onMore, sameMore⟩ := others
  obtain ⟨block, rfl, sameFirst⟩ := List.map_eq_singleton_iff.mp same
  obtain ⟨following, more, rfl⟩ := List.exists_cons_of_ne_nil linedMore.ne_nil
  obtain ⟨next, others, rfl, _⟩ := List.map_eq_cons_iff.mp sameMore.symm
  refine ⟨List.forall_mem_append.mpr ⟨own, ownMore⟩, _, _, .nextItem lined linedMore, ?_, ?_⟩
  · obtain ⟨own, written⟩ := itemsMarkup_cons ordered number item
    obtain ⟨_, writtenNext⟩ := itemsMarkup_cons ordered (number + 1) next
    have whole := on.append onMore
    have alone : Text.joinLines (itemsMarkup ordered number [item]) = own := by
      rw [written, itemsMarkup, joinLines_single]
    rw [alone] at whole
    rwa [written, joinLines_cons (by simp [writtenNext])]
  · simpa [sameFirst] using sameMore

end Series.Spelled

/-- Sturdy blocks are written on lines that spell blocks of their structure. -/
theorem Sturdy.spelled {kind : Series} {entities : List Entity} (sturdy : Sturdy kind entities) :
    kind.Spelled entities := by
  induction sturdy with
  | @paragraph children written ends same inert defines =>
    obtain ⟨leaf, on⟩ := inert.lines defines
    have ended := on.ended ends
    rw [← same] at ended
    exact .single rfl (.leaf leaf) (by rwa [markupOf]) (by simp [Block.skeleton, skeleton])
      fun _ => rfl
  | heading positive atMost plain =>
    obtain ⟨line, text, leaf, on⟩ := headingLines positive atMost plain
    exact .single rfl (.leaf leaf) on (by simp [Block.skeleton, skeleton]) fun _ => rfl
  | rule =>
    have dashes : markupOf true (.leaf .thematicBreak) = ['-', '-', '-'] := by rw [markupOf, leafMarkup]
    have on : OnLines (markupOf true (.leaf .thematicBreak)) [['-', '-', '-']] 0 := by
      rw [dashes]
      exact .single (by simp) (by simp)
    exact .single rfl (.leaf .rule) on (by simp [Block.skeleton, skeleton]) fun _ => rfl
  | code plain =>
    obtain ⟨lines, leaf, on⟩ := plain.lines
    refine .single rfl (.leaf leaf) on ?_ fun _ => rfl
    simp [Block.skeleton, skeleton]
  | quote inner ih => exact ih.quote
  | list inner ih => exact ih.list
  | next first apart others ihFirst ihOthers => exact ihFirst.next apart ihOthers
  | item short firm noRule inner ih => exact ih.item short firm noRule
  | nextItem first others ihFirst ihOthers => exact ihFirst.nextItem ihOthers

/-- Sturdy blocks are read back with their structure. -/
theorem Sturdy.skeleton_read {entities : List Entity} (sturdy : Sturdy .blocks (paragraphs [] entities)) :
    skeletonAll false (read (write entities)) = skeletonAll false entities := by
  obtain ⟨blocks, lines, ends, lined, on, same, _⟩ := sturdy.spelled.body
  rw [write, lined.skeleton_read (ends - 1) on.contents on.plain, same]

/-- Legible content is a sturdy paragraph. -/
theorem Legible.sturdy {entities : List Entity} (legible : Legible {} entities)
    (nonempty : spell true entities ≠ []) (defines : definition? (spell true entities) = none) :
    Sturdy .blocks [.node .paragraph entities] := by
  refine @Sturdy.paragraph entities (spell true entities) 0 ?_ (legible.inertText nonempty) fun _ => defines
  rw [inlineMarkup_nil, List.replicate_zero, List.append_nil]

/-- A line of text is a sturdy paragraph. -/
theorem Sturdy.text {written : String} (nonempty : written ≠ "")
    (known : ∀ c ∈ written.toList, c ≠ '\n' ∧ c ≠ '\r' ∧ c ≠ '\x0b' ∧ c ≠ '\x0c') :
    Sturdy .blocks [.node .paragraph [.leaf (.text written)]] := by
  have markup : inlineMarkup [] [.leaf (.text written)] = escapeFrom true written.toList := by
    simp [inlineMarkup, markupOf, leafMarkup, atLineStart]
  have shown : written.toList ≠ [] := by simpa using nonempty
  refine @Sturdy.paragraph _ _ 0 ?_ (inertText_escapeFrom shown known) fun bracket => ?_
  · simpa using markup
  · exact absurd bracket (escapeFrom_head?_ne (by decide) (by decide))

/-- The blocks of a text keep their structure when they are written and read again, if there are none
or they are sturdy. -/
theorem structure_kept (text : String)
    (sturdy : read text = [] ∨ Sturdy .blocks (paragraphs [] (read text))) :
    skeletonAll false (read (write (read text))) = skeletonAll false (read text) := by
  rcases sturdy with none | blocks
  · rw [none]
    decide
  · exact blocks.skeleton_read

/-- A heading, a paragraph, lists with a quote and code inside, and a rule. -/
def notes : String :=
  "# Guide\n\nSwaps *a **b** c*\n``x`y``, see [it](<> \"*swap\")\n\n" ++
    "- a\n- > b\n  >\n  > 1. c\n\n1. d\n\n   ```x\n   e\n   ```\n\n***\n"

def quoted : Entity :=
  .node .blockQuote [.node .paragraph [.leaf (.text "b")],
    .node (.list true) [.node .listItem [.leaf (.text "c")]]]

def coded : List Entity :=
  [.node .paragraph [.leaf (.text "d")], .leaf (.codeBlock "x" "e\n")]

theorem read_notes : read notes = [.node (.heading 1) [.leaf (.text "Guide")], .node .paragraph guide,
    .node (.list false) [.node .listItem [.leaf (.text "a")], .node .listItem [quoted]],
    .node (.list true) [.node .listItem coded], .leaf .thematicBreak] := by
  decide +kernel

theorem notes_sturdy : Sturdy .blocks (paragraphs [] (read notes)) := by
  have word (text : String) (nonempty : text ≠ "")
      (known : text.toList.all (fun c => c ∉ ['\n', '\r', '\x0b', '\x0c']) = true) :
      Sturdy .blocks [.node .paragraph [.leaf (.text text)]] :=
    .text nonempty (by simpa using known)
  have bullet : Sturdy (.items false 1) [.node .listItem [.leaf (.text "a")]] :=
    .item (by decide) (by decide) (by decide) (word "a" (by decide) (by decide))
  have inner : Sturdy (.items true 1) [.node .listItem [.leaf (.text "c")]] :=
    .item (by decide) (by decide) (by simp) (word "c" (by decide) (by decide))
  have quote : Sturdy .blocks [quoted] :=
    .quote (.next (word "b" (by decide) (by decide)) (by simp [listKind?]) (.list inner))
  have quoting : Sturdy (.items false 2) [.node .listItem [quoted]] :=
    .item (by decide) (by decide) (by decide) quote
  have fence : Sturdy .blocks [.leaf (.codeBlock "x" "e\n")] :=
    .code ⟨by simp, by decide, by simp, .inr (by simp)⟩
  have coding : Sturdy (.items true 1) [.node .listItem coded] :=
    .item (by decide) (by decide) (by simp)
      (.next (word "d" (by decide) (by decide)) (by simp [listKind?]) fence)
  have legible : Sturdy .blocks [.node .paragraph guide] :=
    guide_legible.sturdy (by decide) (by decide)
  have plain : ∀ c ∈ inlineMarkup [] [.leaf (.text "Guide")], c ≠ '\r' :=
    List.all_iff_forall_prop.mp (by decide)
  rw [read_notes, paragraphs_blocks (by simp [Entity.isBlock])]
  refine .next (.heading (by decide) (by decide) plain) (by simp [listKind?]) ?_
  refine .next legible (by simp [listKind?]) ?_
  refine .next (.list (.nextItem bullet quoting)) (by simp [listKind?]) ?_
  exact .next (.list coding) (by simp [listKind?]) .rule

theorem structure_kept_notes :
    skeletonAll false (read (write (read notes))) = skeletonAll false (read notes) :=
  structure_kept notes (.inr notes_sturdy)

/-- Two lists in a row are read back as one. -/
theorem neighbour_lists_read_as_one :
    skeletonAll false (read "- a\n+ b") =
        [.node (.list false) [.node .listItem [.node .paragraph []]],
          .node (.list false) [.node .listItem [.node .paragraph []]]] ∧
      skeletonAll false (read (write (read "- a\n+ b"))) =
        [.node (.list false)
          [.node .listItem [.node .paragraph []], .node .listItem [.node .paragraph []]]] := by
  decide +kernel

end DocComment.Markup
