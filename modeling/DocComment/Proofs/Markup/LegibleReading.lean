import DocComment.Proofs.Markup.LinkTails
import DocComment.Proofs.Markup.Legible

namespace DocComment.Markup

section

variable {lineEnd : Char}

theorem ofRun_writtenEnd (kind : lineEnd = '\n' ∨ lineEnd = ' ') (mark : Char) (run : Nat)
    (before next : Option Char) :
    Delimiters.ofRun mark run before (next.map (writtenEnd lineEnd)) =
      Delimiters.ofRun mark run before next := by
  cases next with
  | none => rfl
  | some c =>
    by_cases ends : c = '\n'
    · subst ends
      rcases kind with rfl | rfl <;> rfl
    · simp [writtenEnd, ends]

theorem map_writtenEnd_ne (kind : lineEnd = '\n' ∨ lineEnd = ' ') {next : Option Char} {c : Char}
    (ink : c ≠ '\n' ∧ c ≠ ' ') (apart : next ≠ some c) :
    next.map (writtenEnd lineEnd) ≠ some c := by
  cases next with
  | none => simp
  | some d =>
    intro same
    have written : writtenEnd lineEnd d = c := by simpa using same
    by_cases ends : d = '\n'
    · subst ends
      rcases kind with rfl | rfl
      · exact ink.1 written.symm
      · exact ink.2 written.symm
    · rw [writtenEnd, beq_false_of_ne ends] at written
      exact apart (congrArg some written)

theorem Beside.writtenEnd (kind : lineEnd = '\n' ∨ lineEnd = ' ') (before : Option Char) :
    Beside (before.map (writtenEnd lineEnd)) before := by
  cases before with
  | none => exact .refl _
  | some c =>
    by_cases ends : c = '\n'
    · subst ends
      rcases kind with rfl | rfl <;> exact fun _ _ _ => rfl
    · have same : Markup.writtenEnd lineEnd c = c := by simp [Markup.writtenEnd, ends]
      rw [Option.map_some, same]
      exact .refl _

end

/-- A reader that is where the place says. -/
structure Place.Fits (place : Place) (state : InlineState) : Prop where
  beside : Beside state.before place.before
  brackets : place.linked = false → ∀ bracket ∈ state.brackets, bracket.image = true

/-- What is written in this place before `rest` is read as content that says the same. -/
def SaysSame (definitions : List Definition) (place : Place) (written rest : List Char)
    (entities : List Entity) : Prop :=
  ∃ pieces events built, Resolves place.outer pieces events ∧ Builds events built ∧
    wordsAll built = wordsAll entities ∧
    ∀ state, place.Fits state → ReadAs definitions written rest state pieces

theorem Place.Fits.past {place : Place} {state : InlineState} (fits : place.Fits state)
    {lineEnd : Char} (kind : lineEnd = '\n' ∨ lineEnd = ' ') {written : List Char} {before : Option Char}
    (beside : Beside before ((written.map (writtenEnd lineEnd)).getLast?.or state.before))
    (pieces : List Piece) : (place.past written).Fits (state.past pieces before) := by
  refine ⟨?_, fun outside bracket member => ?_⟩
  · refine beside.trans ?_
    rw [List.getLast?_map, Place.past]
    cases written.getLast? with
    | none => exact fits.beside
    | some c => exact .writtenEnd kind (some c)
  · have images := InlineState.past_images state pieces before
    have flag : bracket.image ∈ (state.past pieces before).brackets.map (·.image) :=
      List.mem_map_of_mem member
    rw [images] at flag
    obtain ⟨other, earlier, same⟩ := List.mem_map.mp flag
    exact same ▸ fits.brackets outside other earlier

namespace SaysSame

variable {definitions : List Definition} {place : Place} {lineEnd : Char} {rest : List Char}

theorem nil : SaysSame definitions place [] rest [] :=
  ⟨[], [], [], .nil, .nil, rfl, fun _ _ => .nil⟩

/-- What is written after something else is read after it. -/
theorem append (kind : lineEnd = '\n' ∨ lineEnd = ' ') {written more : List Char}
    {entities later : List Entity}
    (first : SaysSame definitions place (written.map (writtenEnd lineEnd))
      (more.map (writtenEnd lineEnd) ++ rest) entities)
    (second : SaysSame definitions (place.past written) (more.map (writtenEnd lineEnd)) rest later) :
    SaysSame definitions place ((written ++ more).map (writtenEnd lineEnd)) rest (entities ++ later) := by
  obtain ⟨pieces, events, built, resolves, builds, saying, reads⟩ := first
  obtain ⟨morePieces, moreEvents, moreBuilt, moreResolves, moreBuilds, moreSaying, moreReads⟩ := second
  refine ⟨pieces ++ morePieces, events ++ moreEvents, built ++ moreBuilt,
    resolves.append moreResolves, builds.append moreBuilds, ?_, fun state fits => ?_⟩
  · rw [wordsAll_append, wordsAll_append, saying, moreSaying]
  · rw [List.map_append]
    exact (reads state fits).append fun before beside => moreReads _ (fits.past kind beside pieces)

end SaysSame

/-- The marks before emphasised content are read as its opening. -/
theorem Place.Fits.reads_opener {place : Place} {state : InlineState} (fits : place.Fits state)
    {definitions : List Definition} {lineEnd : Char} (kind : lineEnd = '\n' ∨ lineEnd = ' ') {count : Nat}
    {content : List Entity} {after : List Char} (positive : 0 < count)
    (opens : (place.opener count content).canOpen = true) (within : (spell true content).head? ≠ some '*') :
    ReadAs definitions (List.replicate count '*') ((spell true content).map (writtenEnd lineEnd) ++ after)
      state [.delimiters (place.opener count content)] := by
  have head : ((spell true content).map (writtenEnd lineEnd) ++ after).head? =
      (spell true content).head?.map (writtenEnd lineEnd) := by
    obtain ⟨first, starts, _⟩ := Delimiters.opens_before opens
    rw [List.head?_append, List.head?_map, starts]
    rfl
  have opener : Delimiters.ofRun '*' count state.before
      ((spell true content).map (writtenEnd lineEnd) ++ after).head? = place.opener count content := by
    rw [head, ofRun_writtenEnd kind, fits.beside]
    rfl
  have apart := head ▸ map_writtenEnd_ne kind (by decide) within
  have marks := ReadAs.marks definitions state positive apart (.inl (opener ▸ opens))
  rwa [opener] at marks

/-- The marks after emphasised content are read as its closing. -/
theorem Place.reads_closer (place : Place) {state : InlineState} {definitions : List Definition}
    {lineEnd : Char} (kind : lineEnd = '\n' ∨ lineEnd = ' ') {count : Nat} {content later : List Entity}
    {rest : List Char} (positive : 0 < count)
    (beside : Beside state.before ((spell true content).getLast?.map (writtenEnd lineEnd)))
    (closes : (place.closer count content later).canClose = true)
    (apart : (place.past ['*']).next later ≠ some '*')
    (follows : rest.head? = ((place.past ['*']).next later).map (writtenEnd lineEnd)) :
    ReadAs definitions (List.replicate count '*') rest state
      [.delimiters (place.closer count content later)] := by
  have closer : Delimiters.ofRun '*' count state.before rest.head? = place.closer count content later := by
    rw [follows, ofRun_writtenEnd kind, beside, Beside.writtenEnd kind]
    rfl
  have ahead := follows ▸ map_writtenEnd_ne kind (by decide) apart
  have marks := ReadAs.marks definitions state positive ahead (.inr (closer ▸ closes))
  rwa [closer] at marks

/-- The character that comes next in the text is the one that was written next. -/
theorem Place.follows_head? {lineEnd : Char} (place : Place) {rest : List Char}
    (follows : Follows lineEnd place.after rest) (entities : List Entity) :
    ((spell place.lineStart entities).map (writtenEnd lineEnd) ++ rest).head? =
      (place.next entities).map (writtenEnd lineEnd) := by
  rw [List.head?_append, List.head?_map, follows.first, Place.next]
  cases (spell place.lineStart entities).head? <;> rfl

/-- Markup that follows a text ends it. -/
theorem Legible.follows {lineEnd : Char} {place : Place} {entities : List Entity}
    (legible : Legible place entities) (alone : startsWithText entities = false) {rest : List Char}
    (follows : Follows lineEnd place.after rest) :
    Follows lineEnd (place.next entities)
      ((spell place.lineStart entities).map (writtenEnd lineEnd) ++ rest) := by
  refine ⟨follows.kind, place.follows_head? follows entities, fun c first => ?_⟩
  rw [Place.next] at first
  cases head : (spell place.lineStart entities).head? with
  | none =>
    rw [head, Option.none_or] at first
    exact follows.stops c first
  | some d =>
    rw [head, Option.some_or] at first
    obtain rfl := Option.some.inj first
    exact special_of_markStarts d (legible.head_mem alone d head)

theorem Spells.builds {events : List Event} {text : List Char} (spells : Spells events text) :
    ∃ built, Builds events built ∧ wordsAll built = text.map Word.ofChar := by
  induction spells with
  | nil => exact ⟨[], .nil, rfl⟩
  | text chunk more ih =>
    obtain ⟨built, builds, same⟩ := ih
    exact ⟨_, Builds.append (.text _) builds, by simp [words, same]⟩
  | softBreak more ih =>
    obtain ⟨built, builds, same⟩ := ih
    exact ⟨_, Builds.append .softBreak builds, by simp [words, same]; rfl⟩
  | blank more ih =>
    obtain ⟨built, builds, same⟩ := ih
    exact ⟨_, Builds.append (.text _) builds, by simp [words, same]; rfl⟩

theorem map_bracketMarkup {lineEnd : Char} (content : List Entity) {tail : List Char}
    (oneLine : ∀ c ∈ tail, c ≠ '\n' ∧ c ≠ '\r') :
    (bracketMarkup content tail).map (writtenEnd lineEnd) =
      '[' :: (spell true content).map (writtenEnd lineEnd) ++ ']' :: tail := by
  rw [bracketMarkup, List.map_append, List.map_cons, List.map_cons,
    map_writtenEnd fun c member => beq_false_of_ne (oneLine c member).1]
  rfl

/-- Emphasised content is built as nested emphasis. -/
theorem Builds.emphasis {content : List Entity} (count : Nat) {events : List Event}
    {built : List Entity} (builds : Builds events built) (same : wordsAll built = wordsAll content) :
    ∃ outside, Builds (wrapEmphasis count events) outside ∧
      wordsAll outside = wordsAll (marked count content) := by
  induction count using Nat.twoStepInduction generalizing events built content with
  | zero => exact ⟨built, builds, same⟩
  | one =>
    refine ⟨_, builds.enclosed .emphasis, ?_⟩
    simp [closeOpening, marked, words, wordsAll_gather, same]
  | more count ih _ =>
    apply ih (builds.enclosed .strong)
    simp [closeOpening, words, wordsAll_gather, same]

namespace SaysSame

variable {definitions : List Definition} {place : Place} {lineEnd : Char} {rest : List Char}

theorem text {next : Option Char} (follows : Follows lineEnd next rest) {written : String}
    (known : ∀ c ∈ written.toList, c ≠ '\r' ∧ c ≠ '\x0b' ∧ c ≠ '\x0c')
    (settled : goesOn next written.toList = true) :
    SaysSame definitions place
      ((escapeFrom place.lineStart written.toList).map (writtenEnd lineEnd)) rest
      [.leaf (.text written)] := by
  obtain ⟨events, spells, reads⟩ := (elements place.lineStart written.toList fun c member =>
    (known c member).2).reads follows definitions settled
  obtain ⟨built, builds, same⟩ := spells.builds
  exact ⟨_, events, built, .single events, builds, by simp [same, words], fun state _ => reads state⟩

/-- A line end is a soft break, or a blank where everything stands on one line. -/
theorem softBreak (kind : lineEnd = '\n' ∨ lineEnd = ' ') {c : Char}
    (first : rest.head? = some c) (inked : isLineBlank c = false) (inLine : c ≠ '\n') :
    SaysSame definitions place (['\n'].map (writtenEnd lineEnd)) rest [.leaf .softBreak] := by
  obtain ⟨others, rfl⟩ := List.head?_eq_some_iff.mp first
  rcases kind with rfl | rfl
  · refine ⟨_, _, _, .events _, .softBreak, rfl, fun state _ =>
      .one (inlineStep_lineEnd definitions state ?_) .lineStart⟩
    rintro d ⟨⟩
    exact inked
  · refine ⟨_, _, _, .events _, .text " ", rfl, fun state _ => .one ?_ (.refl _)⟩
    exact inlineStep_blank definitions state inked inLine

theorem hardBreak {c : Char} (first : rest.head? = some c) (inked : isLineBlank c = false) :
    SaysSame definitions place (['\\', '\n'].map (writtenEnd '\n')) rest [.leaf .hardBreak] := by
  refine ⟨_, _, _, .events _, .hardBreak, rfl, fun state _ =>
    .one (inlineStep_hardBreak definitions state ?_) .lineStart⟩
  intro d same
  exact Option.some.inj (first.symm.trans same) ▸ inked

theorem code {written : String} (plain : PlainCode written) (apart : rest.head? ≠ some '`') :
    SaysSame definitions place ((codeSpanMarkup written).map (writtenEnd lineEnd)) rest
      [.leaf (.code written)] := by
  rw [map_writtenEnd fun c member => beq_false_of_ne (plain.oneLine_written c member).1]
  exact ⟨_, _, _, .events _, .code written, rfl, fun state _ => plain.reads definitions state rest apart⟩

theorem emphasis (kind : lineEnd = '\n' ∨ lineEnd = ' ') {count : Nat} {content later : List Entity}
    (positive : 0 < count) (opens : (place.opener count content).canOpen = true)
    (closes : (place.closer count content later).canClose = true)
    (alone : (place.opener count content).canClose = true →
      ∀ run ∈ place.outer, run.matches (place.opener count content) = false)
    (within : (spell true content).head? ≠ some '*')
    (apart : (place.past ['*']).next later ≠ some '*')
    (follows : rest.head? = ((place.past ['*']).next later).map (writtenEnd lineEnd))
    (inner : SaysSame definitions (place.emphasised count content)
      ((spell true content).map (writtenEnd lineEnd)) (List.replicate count '*' ++ rest) content) :
    SaysSame definitions place ((List.replicate count '*' ++ spell true content ++
      List.replicate count '*').map (writtenEnd lineEnd)) rest (marked count content) := by
  obtain ⟨pieces, events, built, resolves, builds, saying, reads⟩ := inner
  obtain ⟨outside, outsideBuilds, outsideSaying⟩ := builds.emphasis count saying
  refine ⟨_, _, outside, resolves.emphasis (place.opener count content) (place.closer count content later)
    positive rfl rfl opens closes alone, outsideBuilds, outsideSaying, fun state fits => ?_⟩
  have stars : (List.replicate count '*').map (writtenEnd lineEnd) = List.replicate count '*' := by
    simp [writtenEnd]
  have starsLast : (List.replicate count '*').getLast? = some '*' := getLast?_stars positive []
  have last : (List.replicate count '*' ++ (spell true content).map (writtenEnd lineEnd)).getLast?.or
      state.before = (spell true content).getLast?.map (writtenEnd lineEnd) := by
    obtain ⟨first, starts, _⟩ := Delimiters.opens_before opens
    obtain ⟨others, same⟩ := List.head?_eq_some_iff.mp starts
    rw [List.getLast?_append, List.getLast?_map, same, List.getLast?_cons]
    rfl
  have filled : ReadAs definitions
      (List.replicate count '*' ++ (spell true content).map (writtenEnd lineEnd))
      (List.replicate count '*' ++ rest) state
      ([.delimiters (place.opener count content)] ++ pieces) := by
    refine (fits.reads_opener kind positive opens within).append fun before beside => ?_
    rw [starsLast, Option.some_or] at beside
    have inside : (place.past ['*']).Fits (state.past [.delimiters (place.opener count content)] before) :=
      fits.past kind beside _
    exact reads _ ⟨inside.beside, inside.brackets⟩
  rw [List.map_append, List.map_append, stars]
  exact filled.append fun before beside =>
    place.reads_closer kind positive (last ▸ beside) closes apart follows

theorem link {target : LinkTarget} {title destination shown : String} {content : List Entity}
    (outside : place.linked = false) (written : WrittenAs target title destination shown)
    (address : Kept (escapeDestination destination) destination) (name : Kept (escapeTitle shown) shown)
    (inner : SaysSame definitions (place.bracketed true) ((spell true content).map (writtenEnd lineEnd))
      (']' :: (targetMarkup target title ++ rest)) content) :
    SaysSame definitions place
      ((bracketMarkup content (targetMarkup target title)).map (writtenEnd lineEnd)) rest
      [.node (.link target title) content] := by
  obtain ⟨pieces, events, built, resolves, builds, saying, reads⟩ := inner
  have enclosed := builds.enclosed (.link destination shown)
  rw [closeOpening, written.entity] at enclosed
  refine ⟨_, _, _, .events _, enclosed, by simp [words, wordsAll_gather, saying], fun state fits => ?_⟩
  have oneLine := tailMarkup_oneLine address.oneLine name.oneLine
  have tail := inlineTail?_tailMarkup destination shown rest address name
  rw [← written.markup] at oneLine tail
  rw [map_bracketMarkup content oneLine, ← resolves.resolveEmphasis]
  refine ReadAs.link (fits.brackets outside) tail (targetMarkup_getLast? target title)
    fun opened => reads _ ⟨.refl _, ?_⟩
  simp [Place.bracketed]

theorem image {source title : String} {content : List Entity}
    (address : Kept (escapeDestination source) source) (name : Kept (escapeTitle title) title)
    (inner : SaysSame definitions (place.bracketed false) ((spell true content).map (writtenEnd lineEnd))
      (']' :: (tailMarkup (escapeDestination source) (escapeTitle title) ++ rest)) content) :
    SaysSame definitions place (('!' :: bracketMarkup content
      (tailMarkup (escapeDestination source) (escapeTitle title))).map (writtenEnd lineEnd)) rest
      [.node (.image source title) content] := by
  obtain ⟨pieces, events, built, resolves, builds, saying, reads⟩ := inner
  refine ⟨_, _, _, .events _, builds.enclosed (.image source title),
    by simp [closeOpening, words, wordsAll_gather, saying], fun state fits => ?_⟩
  have tail := inlineTail?_tailMarkup source title rest address name
  have oneLine := tailMarkup_oneLine address.oneLine name.oneLine
  rw [List.map_cons, map_bracketMarkup content oneLine, ← resolves.resolveEmphasis]
  refine ReadAs.image tail (tailMarkup_getLast? _ _) fun opened => reads _ ⟨.refl _, ?_⟩
  intro outside bracket member
  rcases List.mem_cons.mp member with rfl | earlier
  · rfl
  · exact fits.brackets (by simpa [Place.bracketed] using outside) bracket earlier

end SaysSame

/-- Legible content is read as content that means the same, by induction on what makes it legible. -/
theorem Legible.reads {place : Place} {entities : List Entity} (legible : Legible place entities)
    (definitions : List Definition) {lineEnd : Char} (lines : place.oneLine = false → lineEnd = '\n')
    {rest : List Char} (follows : Follows lineEnd place.after rest) :
    SaysSame definitions place ((spell place.lineStart entities).map (writtenEnd lineEnd)) rest
      entities := by
  have kind := follows.kind
  have ahead : ∀ (rest : List Char) {place : Place} {entities : List Entity},
      Legible place entities → place.lineStart = true →
      (spell true entities).head?.any (· != '\n') = true →
      ∃ c, ((spell true entities).map (writtenEnd lineEnd) ++ rest).head? = some c ∧
        isLineBlank c = false ∧ c ≠ '\n' := by
    intro rest place entities legible start ends
    obtain ⟨c, first, notEnd⟩ := (Option.any_eq_true _ _).mp ends
    have inLine : c ≠ '\n' := by simpa using notEnd
    have inked := legible.head_inked start c (start ▸ first)
    refine ⟨c, ?_, inked, inLine⟩
    rw [List.head?_append, List.head?_map, first]
    simp [writtenEnd, inLine]
  induction legible generalizing rest with
  | nil => exact .nil
  | @text place written later known begins settled ends alone more ih =>
    exact SaysSame.append kind (.text (more.follows alone follows) known settled) (ih lines follows)
  | softBreak inside ends more ih =>
    obtain ⟨c, first, inked, inLine⟩ := ahead rest more rfl ends
    exact SaysSame.append kind (.softBreak kind first inked inLine) (ih lines follows)
  | hardBreak onLines ends more ih =>
    obtain rfl := lines onLines
    obtain ⟨c, first, inked, _⟩ := ahead rest more rfl ends
    exact SaysSame.append kind (.hardBreak first inked) (ih lines follows)
  | @code place written later plain apart more ih =>
    refine SaysSame.append kind (.code plain ?_) (ih lines follows)
    have next := (place.past (codeSpanMarkup written)).follows_head? follows later
    exact next ▸ map_writtenEnd_ne kind (by decide) apart
  | @emphasis place count content later positive opens closes alone within apart inner more ihInner ih =>
    have after : SaysSame definitions (place.past ['*'])
        ((spell false later).map (writtenEnd lineEnd)) rest later := ih lines follows
    rw [← place.past_last (getLast?_stars positive (List.replicate count '*' ++ spell true content))] at after
    rw [spell_marked positive]
    refine SaysSame.append kind (.emphasis kind positive opens closes alone within apart ?_ ?_) after
    · exact (place.past ['*']).follows_head? follows later
    · refine ihInner lines ⟨kind, ?_, ?_⟩
      · obtain ⟨marks, rfl⟩ := Nat.exists_eq_add_one.mpr positive
        simp [List.replicate_succ, Place.emphasised, writtenEnd]
      · rintro c ⟨⟩
        decide
  | @link place target title destination shown content later outside written address name inner more
      ihInner ih =>
    have after : SaysSame definitions (place.past [')'])
        ((spell false later).map (writtenEnd lineEnd)) rest later := ih lines follows
    rw [← place.past_last (bracketMarkup_getLast? content (targetMarkup_getLast? target title))] at after
    rw [spell_link]
    refine SaysSame.append kind (.link outside written address name ?_) after
    refine ihInner lines ⟨kind, by simp [Place.bracketed, writtenEnd], ?_⟩
    rintro c ⟨⟩
    decide
  | @image place source title content later address name inner more ihInner ih =>
    have after : SaysSame definitions (place.past [')'])
        ((spell false later).map (writtenEnd lineEnd)) rest later := ih lines follows
    rw [← place.past_last (imageMarkup_getLast? content (tailMarkup_getLast? _ _))] at after
    rw [spell_image]
    refine SaysSame.append kind (.image address name ?_) after
    refine ihInner lines ⟨kind, by simp [Place.bracketed, writtenEnd], ?_⟩
    rintro c ⟨⟩
    decide

end DocComment.Markup
