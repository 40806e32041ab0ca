import DocComment.Proofs.Markup.Decoding
import DocComment.Proofs.Markup.Scanning
import Mathlib.Data.Bool.AllAny
import Mathlib.Tactic.Tauto

/-! Links and images: a bracket, what it encloses, and the tail after the closing bracket. The destination
and title of a link are read back as they were written, unless they hold what looks like a character
reference. -/
namespace DocComment.Markup

open Unicode (isAsciiPunctuation)

theorem escapable_destination : Escapable ['\\', '<', '>'] :=
  ⟨by decide, List.all_iff_forall_prop.mp (by decide), List.all_iff_forall_prop.mp (by decide),
    by decide⟩

theorem escapable_title : Escapable ['\\', '"'] :=
  ⟨by decide, List.all_iff_forall_prop.mp (by decide), List.all_iff_forall_prop.mp (by decide),
    by decide⟩

/-- A destination in angle brackets ends at the bracket that closes it. -/
theorem bracketedDestination?_escaped (text rest : List Char) (oneLine : '\n' ∉ text) :
    bracketedDestination? (escapeOnly ['\\', '<', '>'] text ++ '>' :: rest) =
      some (escapeOnly ['\\', '<', '>'] text, rest) := by
  have marks : ∀ c ∈ ['\\', '<', '>'], isAsciiPunctuation c = true :=
    List.all_iff_forall_prop.mp (by decide)
  induction text with
  | nil => simp [escapeOnly, bracketedDestination?]
  | cons c others ih =>
    rw [List.mem_cons, not_or] at oneLine
    by_cases mark : c ∈ ['\\', '<', '>']
    · have punctuation := marks c mark
      simp [escapeOnly_mark others mark, bracketedDestination?, punctuation, ih oneLine.2]
    · rw [escapeOnly_bare others mark, List.cons_append, bracketedDestination?, ih oneLine.2]
      · simp only [List.mem_cons, List.not_mem_nil, or_false, not_or] at mark
        simp [mark, Ne.symm oneLine.1]
      · exact fun _ _ same => absurd (same ▸ List.mem_cons_self) mark

/-- A title ends at the quote that closes it. -/
theorem titleUntil?_escaped (text rest : List Char) :
    titleUntil? '"' (escapeOnly ['\\', '"'] text ++ '"' :: rest) =
      some (escapeOnly ['\\', '"'] text, rest) := by
  have marks : ∀ c ∈ ['\\', '"'], isAsciiPunctuation c = true :=
    List.all_iff_forall_prop.mp (by decide)
  induction text with
  | nil => simp [escapeOnly, titleUntil?]
  | cons c others ih =>
    by_cases mark : c ∈ ['\\', '"']
    · have punctuation := marks c mark
      simp [escapeOnly_mark others mark, titleUntil?, punctuation, ih]
    · rw [escapeOnly_bare others mark, List.cons_append, titleUntil?, ih]
      · simp only [List.mem_cons, List.not_mem_nil, or_false, not_or] at mark
        simp [mark]
      · exact fun _ _ same => absurd (same ▸ List.mem_cons_self) mark

theorem dropLineIndents_oneLine (text : List Char) (oneLine : '\n' ∉ text) :
    dropLineIndents text = text := by
  have whole : Text.splitBy (· == '\n') text = [text] := by
    induction text with
    | nil => rfl
    | cons c rest ih =>
      rw [List.mem_cons, not_or] at oneLine
      simp [Text.splitBy, ih oneLine.2, Ne.symm oneLine.1]
  simp [dropLineIndents, whole, Text.joinLines, List.intercalate]

/-- A destination or title that is read back as it is: on one line, without character references. -/
structure Kept (escaped : List Char) (text : String) : Prop where
  oneLine : ∀ c ∈ text.toList, c ≠ '\n' ∧ c ≠ '\r'
  literal : holdsReference escaped = false

theorem mem_escapeOnly {marked text : List Char} {c : Char} (member : c ∈ escapeOnly marked text) :
    c = '\\' ∨ c ∈ text := by
  simp only [escapeOnly, List.mem_flatMap] at member
  obtain ⟨d, inText, piece⟩ := member
  split at piece
  · simp only [List.mem_cons, List.not_mem_nil, or_false] at piece
    rcases piece with rfl | rfl
    · exact .inl rfl
    · exact .inr inText
  · simp only [List.mem_cons, List.not_mem_nil, or_false] at piece
    exact .inr (piece ▸ inText)

theorem escapeTitle_eq_nil_iff (title : String) : escapeTitle title = [] ↔ title.toList = [] := by
  rw [escapeTitle]
  cases title.toList with
  | nil => simp [escapeOnly]
  | cons c others =>
    by_cases mark : c ∈ ['\\', '"']
    · simp [escapeOnly_mark others mark]
    · simp [escapeOnly_bare others mark]

/-- The tail of a link is read back with the character references in it replaced. -/
theorem inlineTail?_escaped {destination title : String} (rest : List Char)
    (address : ∀ c ∈ destination.toList, c ≠ '\n' ∧ c ≠ '\r')
    (name : ∀ c ∈ title.toList, c ≠ '\n' ∧ c ≠ '\r') :
    inlineTail? (tailMarkup (escapeDestination destination) (escapeTitle title) ++ rest) =
      some (((decoded destination).toList, (decoded title).toList), rest) := by
  have target : ∀ after, destination? ('<' :: (escapeDestination destination ++ '>' :: after)) =
      some ((decoded destination).toList, after) := by
    intro after
    have raw := bracketedDestination?_escaped destination.toList after
      fun member => (address _ member).1 rfl
    have plain := escapable_destination.unescape destination.toList fun member => (address _ member).2 rfl
    rw [escapeDestination, decoded, String.toList_ofList]
    simp [destination?, raw, plain]
  have parts : tailMarkup (escapeDestination destination) (escapeTitle title) ++ rest =
      '(' :: '<' :: (escapeDestination destination ++ '>' ::
        ((if (escapeTitle title).isEmpty then [')'] else " \"".toList ++ escapeTitle title ++ "\")".toList)
          ++ rest)) := by
    simp [tailMarkup]
  rw [parts]
  have start : ∀ text, skipSpacing ('<' :: text) = '<' :: text := fun text => by
    simp [skipSpacing, isLineBlank]
  simp only [inlineTail?, start, target, Option.bind_some]
  by_cases empty : (escapeTitle title).isEmpty = true
  · have untitled := (escapeTitle_eq_nil_iff title).mp (List.isEmpty_iff.mp empty)
    have shown : (decoded title).toList = [] := by
      rw [decoded, untitled]
      rfl
    simp [empty, shown, skipSpacing, isLineBlank, rawTitle?]
  · have raw : titleUntil? '"' (escapeTitle title ++ '"' :: ')' :: rest) =
        some (escapeTitle title, ')' :: rest) := titleUntil?_escaped title.toList (')' :: rest)
    have indents : dropLineIndents (escapeTitle title) = escapeTitle title := by
      apply dropLineIndents_oneLine
      intro member
      rcases mem_escapeOnly member with same | own
      · simp at same
      · exact (name _ own).1 rfl
    have plain : unescape (escapeTitle title) = (decoded title).toList := by
      rw [decoded, String.toList_ofList]
      exact escapable_title.unescape title.toList fun member => (name _ member).2 rfl
    have spelled : " \"".toList ++ escapeTitle title ++ "\")".toList ++ rest =
        ' ' :: '"' :: (escapeTitle title ++ '"' :: ')' :: rest) := by simp
    rw [if_neg empty, spelled]
    simp [skipSpacing, isLineBlank, rawTitle?, raw, indents, plain]

/-- Text without references stays as it is. -/
theorem Kept.decoded_eq {marked : List Char} (escapable : Escapable marked) {text : String}
    (kept : Kept (escapeOnly marked text.toList) text) : decoded text = text := by
  have literal := kept.literal
  rw [escapable.holdsReference] at literal
  exact (decoded_eq_self_iff text).mpr literal

theorem inlineTail?_tailMarkup (destination title : String) (rest : List Char)
    (address : Kept (escapeDestination destination) destination)
    (name : Kept (escapeTitle title) title) :
    inlineTail? (tailMarkup (escapeDestination destination) (escapeTitle title) ++ rest) =
      some ((destination.toList, title.toList), rest) := by
  rw [inlineTail?_escaped rest address.oneLine name.oneLine, address.decoded_eq escapable_destination,
    name.decoded_eq escapable_title]

theorem tailMarkup_getLast? (destination title : List Char) :
    (tailMarkup destination title).getLast? = some ')' := by
  unfold tailMarkup
  split
  · rw [List.getLast?_append, List.getLast?_cons]
    rfl
  · rw [List.getLast?_append, List.getLast?_cons, List.getLast?_append]
    rfl

theorem escapeOnly_oneLine {marked text : List Char} (oneLine : ∀ c ∈ text, c ≠ '\n' ∧ c ≠ '\r') :
    ∀ c ∈ escapeOnly marked text, c ≠ '\n' ∧ c ≠ '\r' := by
  intro c member
  rcases mem_escapeOnly member with rfl | own
  · decide
  · exact oneLine c own

theorem mem_tailMarkup {destination title : List Char} {c : Char}
    (member : c ∈ tailMarkup destination title) :
    c ∈ destination ∨ c ∈ title ∨ c ∈ ['(', '<', '>', ' ', '"', ')'] := by
  unfold tailMarkup at member
  split at member <;> simp at member <;> simp only [List.mem_cons, List.not_mem_nil, or_false] <;> tauto

theorem tailMarkup_oneLine {destination title : String}
    (address : ∀ c ∈ destination.toList, c ≠ '\n' ∧ c ≠ '\r')
    (name : ∀ c ∈ title.toList, c ≠ '\n' ∧ c ≠ '\r') :
    ∀ c ∈ tailMarkup (escapeDestination destination) (escapeTitle title), c ≠ '\n' ∧ c ≠ '\r' := by
  intro c member
  rcases mem_tailMarkup member with target | shown | mark
  · exact escapeOnly_oneLine address c target
  · exact escapeOnly_oneLine name c shown
  · exact (List.all_iff_forall_prop.mp (by decide) :
      ∀ c ∈ ['(', '<', '>', ' ', '"', ')'], c ≠ '\n' ∧ c ≠ '\r') c mark

theorem InlineState.pushAll_inside (earlier : List Piece) (bracket : Bracket) (outer : List Bracket)
    (before : Option Char) (pieces : List Piece) :
    pushAll ⟨earlier, bracket :: outer, before⟩ pieces =
      ⟨earlier, { bracket with pieces := pieces.reverse ++ bracket.pieces } :: outer, before⟩ := by
  induction pieces generalizing bracket with
  | nil => rfl
  | cons piece rest ih =>
    rw [List.reverse_cons, List.append_assoc]
    exact ih { bracket with pieces := piece :: bracket.pieces }

/-- Whether an open bracket may start an image does not change. -/
theorem InlineState.past_images (state : InlineState) (pieces : List Piece) (before : Option Char) :
    (state.past pieces before).brackets.map (·.image) = state.brackets.map (·.image) := by
  obtain ⟨earlier, brackets, last⟩ := state
  cases brackets with
  | nil => simp [past, pushAll_outside]
  | cons bracket outer => simp [past, pushAll_inside]

/-- What a closed bracket starts. -/
def Bracket.opening (bracket : Bracket) (destination title : String) : Opening :=
  if bracket.image then .image destination title else .link destination title

/-- A closing bracket before a tail closes the innermost bracket. A link leaves the brackets around
it active if they are all of images; an image always does. -/
theorem closeBracket_inside (definitions : List Definition) (earlier : List Piece) (bracket : Bracket)
    (outer : List Bracket) (before : Option Char) (labelEnd tail rest : List Char)
    (destination title : String) (active : bracket.active = true)
    (kept : bracket.image = false → ∀ other ∈ outer, other.image = true)
    (target : inlineTail? (tail ++ rest) = some ((destination.toList, title.toList), rest))
    (last : tail.getLast? = some ')') :
    closeBracket definitions ⟨earlier, bracket :: outer, before⟩ labelEnd (tail ++ rest) =
      (InlineState.past ⟨earlier, outer, before⟩ [.events (.enter (bracket.opening destination title) ::
        resolveEmphasis bracket.pieces.reverse ++ [.leave])] (some ')'), rest) := by
  have found : linkTail? definitions bracket labelEnd (tail ++ rest) =
      some ((destination.toList, title.toList), rest) := by
    simp [linkTail?, target]
  have unchanged : bracket.image = false → outer.map (fun other =>
      if other.image then other else { other with active := false }) = outer := by
    intro link
    rw [List.map_congr_left fun other member => if_pos (kept link other member), List.map_id']
  have ended : (tail ++ rest)[(tail ++ rest).length - rest.length - 1]? = some ')' := by
    obtain ⟨start, rfl⟩ := List.getLast?_eq_some_iff.mp last
    have index : (start ++ [')'] ++ rest).length - rest.length - 1 = start.length := by
      simp only [List.length_append, List.length_singleton]
      omega
    rw [index]
    simp
  simp only [closeBracket, active, if_true, found, ended, String.ofList_toList]
  cases image : bracket.image with
  | true => simp [Bracket.opening, image, InlineState.add, InlineState.past, InlineState.pushAll]
  | false =>
    simp [Bracket.opening, image, unchanged image, InlineState.add, InlineState.past,
      InlineState.pushAll]

namespace ReadAs

variable {definitions : List Definition} {state : InlineState} {content tail rest : List Char}
  {pieces : List Piece} {destination title : String}

/-- Content that was read inside an open bracket, and the tail after it, are a link or an image. -/
theorem bracketed (bracket : Bracket) (active : bracket.active = true) (fresh : bracket.pieces = [])
    (kept : bracket.image = false → ∀ other ∈ state.brackets, other.image = true)
    (target : inlineTail? (tail ++ rest) = some ((destination.toList, title.toList), rest))
    (last : tail.getLast? = some ')')
    (inner : ReadAs definitions content (']' :: (tail ++ rest))
      { state with brackets := bracket :: state.brackets, before := some '[' } pieces) :
    Reads definitions { state with brackets := bracket :: state.brackets, before := some '[' }
      (content ++ (']' :: (tail ++ rest)))
      (state.past [.events (.enter (bracket.opening destination title) :: resolveEmphasis pieces ++
        [.leave])] (some ')')) rest := by
  obtain ⟨before, reads, _⟩ := inner
  refine reads.trans (.one ?_ (by simp))
  have closes : ∀ state : InlineState, inlineStep definitions state ']' (tail ++ rest) =
      closeBracket definitions state (']' :: (tail ++ rest)) (tail ++ rest) := fun _ => rfl
  rw [closes, InlineState.past, InlineState.pushAll_inside]
  refine (closeBracket_inside definitions state.pieces
    { bracket with pieces := pieces.reverse ++ bracket.pieces } state.brackets before _ tail rest
    destination title active kept target last).trans ?_
  have earlier : ∀ more, InlineState.past ⟨state.pieces, state.brackets, before⟩ more (some ')') =
      state.past more (some ')') := fun more => by
    rw [InlineState.past, InlineState.pushAll_before state more before]
    rfl
  rw [earlier, fresh, List.append_nil, List.reverse_reverse]
  rfl

theorem link (images : ∀ other ∈ state.brackets, other.image = true)
    (target : inlineTail? (tail ++ rest) = some ((destination.toList, title.toList), rest))
    (last : tail.getLast? = some ')')
    (inner : ∀ opened, ReadAs definitions content (']' :: (tail ++ rest))
      { state with brackets := { image := false, opened } :: state.brackets, before := some '[' } pieces) :
    ReadAs definitions ('[' :: content ++ ']' :: tail) rest state
      [.events (.enter (.link destination title) :: resolveEmphasis pieces ++ [.leave])] := by
  have reads := bracketed { image := false, opened := content ++ ']' :: (tail ++ rest) } rfl rfl
    (fun _ => images) target last (inner _)
  refine ⟨some ')', .step rfl (Nat.le_refl _) ?_, ?_⟩
  · simpa [Bracket.opening] using reads
  · rw [List.getLast?_append, List.getLast?_cons, last]
    exact .refl _

theorem image (target : inlineTail? (tail ++ rest) = some ((destination.toList, title.toList), rest))
    (last : tail.getLast? = some ')')
    (inner : ∀ opened, ReadAs definitions content (']' :: (tail ++ rest))
      { state with brackets := { image := true, opened } :: state.brackets, before := some '[' } pieces) :
    ReadAs definitions ('!' :: '[' :: content ++ ']' :: tail) rest state
      [.events (.enter (.image destination title) :: resolveEmphasis pieces ++ [.leave])] := by
  have reads := bracketed { image := true, opened := content ++ ']' :: (tail ++ rest) } rfl rfl
    (by simp) target last (inner _)
  refine ⟨some ')', .step rfl (Nat.le_succ _) ?_, ?_⟩
  · simpa [Bracket.opening] using reads
  · rw [List.getLast?_append, List.getLast?_cons, last]
    exact .refl _

end ReadAs

end DocComment.Markup
