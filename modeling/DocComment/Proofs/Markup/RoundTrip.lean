import DocComment.Proofs.Markup.LegibleLines
import DocComment.Proofs.Markup.LegibleReading
import DocComment.Proofs.Markup.WrittenBlocks
import Mathlib.Data.List.DropRight

/-! Paragraphs and headings of legible content are read back as blocks that mean the same. The code that a
paragraph gives back is all but white space between two blanks. -/
namespace DocComment.Markup

theorem Legible.plain {place : Place} {entities : List Entity} (legible : Legible place entities) :
    ∀ c ∈ spell place.lineStart entities, c ≠ '\r' := by
  have bracketed : ∀ {content : List Entity} {tail : List Char},
      (∀ c ∈ spell true content, c ≠ '\r') → (∀ c ∈ tail, c ≠ '\n' ∧ c ≠ '\r') →
      ∀ c ∈ bracketMarkup content tail, c ≠ '\r' := by
    intro content tail inner oneLine c member
    simp only [bracketMarkup, List.cons_append, List.mem_cons, List.mem_append] at member
    rcases member with rfl | own | rfl | own
    · decide
    · exact inner c own
    · decide
    · exact (oneLine c own).2
  induction legible with
  | nil => simp [spell]
  | @text place written later known begins settled ends alone more ih =>
    rw [spell_text]
    intro c member
    rcases List.mem_append.mp member with own | after
    · rcases mem_escapeFrom own with inText | mark
      · exact (known c inText).1
      · rintro rfl
        simp at mark
    · exact ih c after
  | softBreak inside ends more ih =>
    exact List.forall_mem_cons.mpr ⟨by decide, ih⟩
  | hardBreak lines ends more ih =>
    exact List.forall_mem_cons.mpr ⟨by decide, List.forall_mem_cons.mpr ⟨by decide, ih⟩⟩
  | code plain apart more ih =>
    exact List.forall_mem_append.mpr ⟨fun c member => (plain.oneLine_written c member).2, ih⟩
  | @emphasis place count content later positive opens closes alone within apart inner more ihInner ih =>
    have marks : ∀ c ∈ List.replicate count '*', c ≠ '\r' :=
      List.forall_mem_replicate.mpr (.inr (by decide))
    rw [spell_marked positive]
    simp only [List.forall_mem_append]
    exact ⟨⟨⟨marks, ihInner⟩, marks⟩, ih⟩
  | link outside written address name inner more ihInner ih =>
    have oneLine := tailMarkup_oneLine address.oneLine name.oneLine
    rw [← written.markup] at oneLine
    rw [spell_link]
    exact List.forall_mem_append.mpr ⟨bracketed ihInner oneLine, ih⟩
  | image address name inner more ihInner ih =>
    have oneLine := tailMarkup_oneLine address.oneLine name.oneLine
    rw [spell_image]
    exact List.forall_mem_append.mpr
      ⟨List.forall_mem_cons.mpr ⟨by decide, bracketed ihInner oneLine⟩, ih⟩

/-- What can end a heading: no blank, and a number sign only if it is escaped. -/
structure Closes (written : List Char) : Prop where
  last : ∀ c, written.getLast? = some c → isEdge c = false
  escaped : ∀ before, written = before ++ ['#'] → before.getLast? = some '\\'

namespace Closes

theorem nil : Closes [] := ⟨by simp, fun before same => by simp at same⟩

theorem of_last {written : List Char} {c : Char} (last : written.getLast? = some c)
    (edge : isEdge c = false) (other : c ≠ '#') : Closes written := by
  refine ⟨fun d same => Option.some.inj (last.symm.trans same) ▸ edge, fun before same => ?_⟩
  rw [same, List.getLast?_concat] at last
  exact absurd (Option.some.inj last).symm other

/-- What comes last decides. -/
theorem append {written more : List Char} (nonempty : more ≠ []) (closes : Closes more) :
    Closes (written ++ more) := by
  rcases List.eq_nil_or_concat' more with empty | ⟨start, c, rfl⟩
  · exact absurd empty nonempty
  · rw [← List.append_assoc]
    refine ⟨fun d same => closes.last d (by simpa using same), fun before same => ?_⟩
    obtain ⟨rfl, mark⟩ := List.append_inj' same rfl
    rw [List.getLast?_append, closes.escaped start (by rw [mark])]
    rfl

theorem escapeFrom {lineStart : Bool} {text : List Char} (settled : goesOn none text = true) :
    Closes (escapeFrom lineStart text) := by
  rcases List.eq_nil_or_concat' text with rfl | ⟨before, c, rfl⟩
  · exact nil
  · have edge : isEdge c = false := by
      by_contra blank
      have next := goesOn_last settled List.getLast?_concat (by simpa using blank)
      simp at next
    obtain ⟨start, same⟩ := escapeFrom_append lineStart before
    rw [same]
    by_cases mark : Unicode.isAsciiPunctuation c = true
    · rw [escapeFrom_mark start [] mark]
      refine append (by simp) ⟨?_, ?_⟩
      · rintro d ⟨⟩
        exact edge
      · intro before same
        obtain ⟨rfl, _⟩ := List.append_inj' (show ['\\'] ++ [c] = before ++ ['#'] from same) rfl
        rfl
    · have single : Markup.escapeFrom start [c] = [c] := by
        simp only [isEdge, Bool.or_eq_false_iff] at edge
        simp [Markup.escapeFrom, mark, edge]
      rw [single]
      refine append (by simp) (of_last rfl edge ?_)
      rintro rfl
      exact mark rfl

end Closes

theorem Legible.closes {place : Place} {entities : List Entity} (legible : Legible place entities)
    (ends : place.after = none) : Closes (spell place.lineStart entities) := by
  -- What an element ends with counts only where nothing is written after it.
  have last : ∀ {written more : List Char} {c : Char}, written.getLast? = some c → isEdge c = false →
      c ≠ '#' → Closes more → Closes (written ++ more) := by
    intro written more c final edge other later
    by_cases empty : more = []
    · rw [empty, List.append_nil]
      exact .of_last final edge other
    · exact .append empty later
  induction legible with
  | nil => exact .nil
  | @text place written later known begins settled final alone more ih =>
    rw [spell_text]
    by_cases empty : spell (place.past (escapeFrom place.lineStart written.toList)).lineStart later = []
    · rw [empty, List.append_nil]
      apply Closes.escapeFrom
      rwa [Place.next, empty, List.head?_nil, Option.none_or, show (place.past _).after = none from ends]
        at settled
    · exact .append empty (ih ends)
  | @softBreak place later inside follows more ih =>
    have nonempty : spell true later ≠ [] := fun empty => by simp [empty] at follows
    show Closes (['\n'] ++ spell true later)
    exact .append nonempty (ih ends)
  | @hardBreak place later lines follows more ih =>
    have nonempty : spell true later ≠ [] := fun empty => by simp [empty] at follows
    show Closes (['\\', '\n'] ++ spell true later)
    exact .append nonempty (ih ends)
  | @code place written later plain apart more ih =>
    exact last plain.getLast? rfl (by decide) (ih ends)
  | @emphasis place count content later nonempty opens closes alone within apart inner more _ ih =>
    rw [spell_marked nonempty]
    exact last (getLast?_stars nonempty _) rfl (by decide) (ih ends)
  | @link place target title destination shown content later outside written address name inner more _ ih =>
    rw [spell_link]
    exact last (bracketMarkup_getLast? content (targetMarkup_getLast? target title)) rfl (by decide)
      (ih ends)
  | @image place source title content later address name inner more _ ih =>
    rw [spell_image]
    exact last (imageMarkup_getLast? content (tailMarkup_getLast? _ _)) rfl (by decide) (ih ends)

theorem spell_append (lineStart : Bool) (entities : List Entity) :
    ∃ start, ∀ more, spell lineStart (entities ++ more) = spell lineStart entities ++ spell start more := by
  induction entities generalizing lineStart with
  | nil => exact ⟨lineStart, fun _ => rfl⟩
  | cons entity rest ih =>
    obtain ⟨start, same⟩ := ih (startsAfter lineStart (markupOf lineStart entity))
    exact ⟨start, fun more => by rw [List.cons_append, spell, same, spell, List.append_assoc]⟩

/-- A line end at the end of the last text is written last. -/
theorem spell_lastEnd (lineStart : Bool) (entities : List Entity) (written : String) :
    spell lineStart (entities ++ [.leaf (.text (written ++ "\n"))]) =
      spell lineStart (entities ++ [.leaf (.text written)]) ++ ['\n'] := by
  obtain ⟨start, after⟩ := spell_append lineStart entities
  obtain ⟨last, same⟩ := escapeFrom_append start written.toList
  have ends : escapeFrom start (written.toList ++ ['\n']) = escapeFrom start written.toList ++ ['\n'] := by
    rw [same, escapeFrom_lineEnd]
    rfl
  rw [after, after]
  simp [spell, markupOf, leafMarkup, ends]

/-- Blocks that are read back: paragraphs, also with a line end after their last text, and headings. -/
inductive LegibleBlock : Tag → List Entity → Prop where
  | paragraph {entities : List Entity} (legible : Legible {} entities)
      (nonempty : spell true entities ≠ [])
      (defines : definition? (spell true entities) = none) : LegibleBlock .paragraph entities
  /-- Raw markup ends with the line end of its last line. -/
  | raw {start : List Entity} {written : String}
      (legible : Legible {} (start ++ [.leaf (.text written)]))
      (nonempty : spell true (start ++ [.leaf (.text written)]) ≠ [])
      (defines : definition? (spell true (start ++ [.leaf (.text written)])) = none) :
      LegibleBlock .paragraph (start ++ [.leaf (.text (written ++ "\n"))])
  | heading {level : Nat} {entities : List Entity} (positive : 1 ≤ level) (atMost : level ≤ 6)
      (legible : Legible { oneLine := true } entities) : LegibleBlock (.heading level) entities

/-- What inline content means, without blanks at its end. -/
def said (entities : List Entity) : List Word :=
  (wordsAll entities).rdropWhile (· == .gap)

/-- In a place of its own, legible content is read as content that means the same. -/
theorem Legible.reads_alone {oneLine : Bool} {entities : List Entity}
    (legible : Legible { oneLine } entities) (lineEnd : Char) (kind : lineEnd = '\n' ∨ lineEnd = ' ')
    (lines : oneLine = false → lineEnd = '\n') :
    ∃ pieces events built, ReadAs [] ((spell true entities).map (writtenEnd lineEnd)) [] {} pieces ∧
      Resolves [] pieces events ∧ Builds events built ∧ wordsAll built = wordsAll entities := by
  obtain ⟨pieces, events, built, resolves, builds, saying, reads⟩ :=
    legible.reads [] lines (⟨kind, rfl, by simp⟩ : Follows lineEnd none [])
  exact ⟨pieces, events, built, reads {} ⟨.refl none, by simp⟩, resolves, builds, saying⟩

/-- Legible content starts no block. -/
theorem Legible.inertText {entities : List Entity} (legible : Legible {} entities)
    (nonempty : spell true entities ≠ []) : InertText (spell true entities) := by
  obtain ⟨breaks, start⟩ := legible.inert (by simp) .nil
  rw [List.append_nil] at breaks start
  exact ⟨legible.plain, start rfl nonempty, breaks⟩

/-- A paragraph of legible content is read back, also with a line end after it. -/
theorem read_written_paragraph {entities : List Entity} (legible : Legible {} entities)
    (nonempty : spell true entities ≠ []) (defines : definition? (spell true entities) = none)
    (written : List Char)
    (same : written = spell true entities ∨ written = spell true entities ++ ['\n']) :
    ∃ children, read (String.ofList written) = [.node .paragraph children] ∧
      wordsAll children = wordsAll entities := by
  obtain ⟨pieces, events, built, reads, resolves, builds, saying⟩ :=
    legible.reads_alone '\n' (.inl rfl) fun _ => rfl
  rw [map_writtenEnd_self] at reads
  refine ⟨gather built, ?_, by rw [wordsAll_gather, saying]⟩
  exact read_paragraph (legible.inertText nonempty) same (fun _ => defines) reads resolves builds

/-- Legible content on one line is the content of one heading. -/
theorem Legible.blocksOf_heading {level : Nat} {entities : List Entity} (positive : 1 ≤ level)
    (atMost : level ≤ 6) (legible : Legible { oneLine := true } entities) :
    blocksOf (List.replicate level '#' ++ ' ' :: (spell true entities).map (writtenEnd ' ')) =
      ([.heading level ((spell true entities).map (writtenEnd ' '))], []) := by
  have closes := legible.closes rfl
  have unchanged : ∀ c, c ≠ '\n' → writtenEnd ' ' c = c := fun c inLine => by
    simp [writtenEnd, inLine]
  refine Markup.blocksOf_heading level _ positive atMost ?_ ?_ ?_ ?_
  · intro c member
    obtain ⟨d, own, rfl⟩ := List.mem_map.mp member
    by_cases ends : d = '\n'
    · subst ends
      decide
    · rw [unchanged d ends]
      exact ⟨ends, legible.plain d own⟩
  · intro c first
    rw [List.head?_map] at first
    obtain ⟨d, starts, rfl⟩ := Option.map_eq_some_iff.mp first
    obtain ⟨others, same⟩ := List.head?_eq_some_iff.mp starts
    have inLine : d ≠ '\n' := by
      rintro rfl
      obtain ⟨_, start⟩ := legible.inert (by simp) .nil
      obtain ⟨_, _, line, _⟩ := (start rfl (by simp [same])).first
      simp [same, firstLine] at line
    rw [unchanged d inLine]
    exact legible.head_inked rfl d starts
  · intro last
    rw [List.getLast?_map] at last
    obtain ⟨d, ends, blank⟩ := Option.map_eq_some_iff.mp last
    have edge := closes.last d ends
    rw [unchanged d (by rintro rfl; simp [isEdge] at edge)] at blank
    simp [blank, isEdge] at edge
  · intro before same
    obtain ⟨start, final, apart, rfl, mark⟩ := List.map_eq_append_iff.mp same
    obtain ⟨d, rfl, sign⟩ := List.map_eq_singleton_iff.mp mark
    have inLine : d ≠ '\n' := by
      rintro rfl
      simp [writtenEnd] at sign
    rw [unchanged d inLine] at sign
    rw [List.getLast?_map, closes.escaped start (sign ▸ apart)]
    rfl

theorem read_written_heading {level : Nat} {entities : List Entity} (positive : 1 ≤ level)
    (atMost : level ≤ 6) (legible : Legible { oneLine := true } entities) :
    ∃ children, read (String.ofList (List.replicate level '#' ++ ' ' ::
        (spell true entities).map (writtenEnd ' '))) = [.node (.heading level) children] ∧
      wordsAll children = wordsAll entities := by
  obtain ⟨pieces, events, built, reads, resolves, builds, saying⟩ :=
    legible.reads_alone ' ' (.inr rfl) (by simp)
  refine ⟨gather built, ?_, by rw [wordsAll_gather, saying]⟩
  exact read_block (legible.blocksOf_heading positive atMost) rfl reads resolves builds

/-- A legible block is read back as one block of its kind, with inline content that means the same
up to white space. -/
theorem read_write {tag : Tag} {entities : List Entity} (legible : LegibleBlock tag entities) :
    ∃ children, read (write [.node tag entities]) = [.node tag children] ∧
      said children = said entities := by
  cases legible with
  | paragraph legible positive defines =>
    obtain ⟨children, same, saying⟩ := read_written_paragraph legible positive defines _ (.inl rfl)
    refine ⟨children, ?_, by rw [said, said, saying]⟩
    rw [write_single rfl (by rwa [markupOf, inlineMarkup_nil]), markupOf, inlineMarkup_nil, same]
  | @raw start written legible positive defines =>
    obtain ⟨children, same, saying⟩ := read_written_paragraph legible positive defines _ (.inr rfl)
    have markup := spell_lastEnd true start written
    refine ⟨children, ?_, ?_⟩
    · rw [write_single rfl (by rw [markupOf, inlineMarkup_nil, markup]; simp), markupOf,
        inlineMarkup_nil, markup, same]
    · have gap : wordsAll (start ++ [.leaf (.text (written ++ "\n"))]) =
          wordsAll (start ++ [.leaf (.text written)]) ++ [.gap] := by
        simp [wordsAll_append, words]
        rfl
      rw [said, said, saying, gap, List.rdropWhile_concat_pos _ _ _ rfl]
  | @heading level _ positive atMost legible =>
    obtain ⟨children, same, saying⟩ := read_written_heading positive atMost legible
    have marks : max 1 (min level 6) = level := by omega
    refine ⟨children, ?_, by rw [said, said, saying]⟩
    rw [write_single rfl (by simp [markupOf]), markupOf, inlineMarkup_nil, marks]
    exact same

/-- Text, nested emphasis, a break, code and a link in one paragraph. -/
def guide : List Entity :=
  [.leaf (.text "Swaps "),
    .node .emphasis [.leaf (.text "a "), .node .strong [.leaf (.text "b")], .leaf (.text " c")],
    .leaf .softBreak, .leaf (.code "x`y"), .leaf (.text ", see "),
    .node (.link (.unresolved "*swap") "") [.leaf (.text "it")]]

theorem guide_legible : Legible {} guide := by
  refine .text ?_ ?_ ?_ ?_ ?_ (.emphasis 1 ?_ ?_ ?_ ?_ ?_ ?_
    (.text ?_ ?_ ?_ ?_ ?_ (.emphasis 2 ?_ ?_ ?_ ?_ ?_ ?_
      (.text ?_ ?_ ?_ ?_ ?_ (.nil _)) (.text ?_ ?_ ?_ ?_ ?_ (.nil _))))
    (.softBreak ?_ ?_ (.code ⟨?_, ?_, ?_⟩ ?_ (.text ?_ ?_ ?_ ?_ ?_
      (.link ?_ (.unresolved _ ?_) ⟨?_, ?_⟩ ⟨?_, ?_⟩ (.text ?_ ?_ ?_ ?_ ?_ (.nil _)) (.nil _))))))
  all_goals first | exact List.all_iff_forall_prop.mp (by decide) | decide

theorem read_write_guide : ∃ children,
    read (write [.node .paragraph guide]) = [.node .paragraph children] ∧ said children = said guide :=
  read_write (.paragraph guide_legible (by decide) (by decide))

/-- Marks that touch are one run: emphasis inside emphasis is read back as strong emphasis. -/
theorem nested_emphasis_read_as_strong :
    read "*_a_*" = [.node .paragraph [.node .emphasis [.node .emphasis [.leaf (.text "a")]]]] ∧
      read (write (read "*_a_*")) = [.node .paragraph [.node .strong [.leaf (.text "a")]]] := by
  decide +kernel

/-- Code between two blanks that is white space, but not only blanks. It is written without padding,
and reading takes the two blanks for padding. -/
structure Unpadded (code : String) (inner : List Char) : Prop where
  between : code.toList = ' ' :: inner ++ [' ']
  white : ∀ c ∈ inner, Unicode.isWhite c = true
  other : ∃ c ∈ inner, c ≠ ' '

namespace Unpadded

variable {code : String} {inner : List Char}

theorem all_white (unpadded : Unpadded code inner) : ∀ c ∈ code.toList, Unicode.isWhite c = true := by
  have blank : ∀ c ∈ [' '], Unicode.isWhite c = true := List.forall_mem_singleton.mpr rfl
  rw [unpadded.between, List.forall_mem_append, List.forall_mem_cons]
  exact ⟨⟨rfl, unpadded.white⟩, blank⟩

theorem codeSpanText (unpadded : Unpadded code inner) (oneLine : ∀ c ∈ code.toList, c ≠ '\n' ∧ c ≠ '\r') :
    codeSpanText code.toList = inner := by
  obtain ⟨c, member, other⟩ := unpadded.other
  have last : (' ' :: inner ++ [' ']).getLast? = some ' ' := List.getLast?_concat
  have shown : (' ' :: inner ++ [' ']).any (· != ' ') = true := by
    rw [List.any_eq_true]
    exact ⟨c, List.mem_append_left _ (List.mem_cons_of_mem _ member), bne_iff_ne.mpr other⟩
  rw [unpadded.between] at oneLine ⊢
  rw [codeSpanText_oneLine oneLine, last, shown]
  simp

theorem ne_code (unpadded : Unpadded code inner) : String.ofList inner ≠ code := by
  intro same
  have length := congrArg (List.length ∘ String.toList) same
  simp only [Function.comp_apply, String.toList_ofList, unpadded.between, List.length_append,
    List.length_cons, List.length_nil] at length
  omega

end Unpadded

/-- Code written as it is loses its blanks only if it is unpadded. -/
theorem codeSpanText_bare {code : String} (oneLine : ∀ c ∈ code.toList, c ≠ '\n' ∧ c ≠ '\r')
    (ends : code.toList.head? = some ' ' → code.toList.getLast? = some ' ' →
      ∀ c ∈ code.toList, Unicode.isWhite c = true) (padded : ∀ inner, ¬ Unpadded code inner) :
    codeSpanText code.toList = code.toList := by
  rw [codeSpanText_oneLine oneLine, if_neg]
  intro stripped
  simp only [Bool.and_eq_true, beq_iff_eq, List.any_eq_true, bne_iff_ne] at stripped
  obtain ⟨⟨starts, stops⟩, c, member, other⟩ := stripped
  have white := ends starts stops
  obtain ⟨rest, first⟩ := List.head?_eq_some_iff.mp starts
  rcases List.eq_nil_or_concat' rest with rfl | ⟨inner, last, rfl⟩
  · rw [first] at member
    exact other (List.mem_singleton.mp member)
  · rw [first, ← List.cons_append, List.getLast?_concat] at stops
    rw [Option.some.inj stops] at first
    rw [first] at member white
    refine padded inner ⟨first, fun d inside => ?_, c, ?_, other⟩
    · exact white d (List.mem_cons_of_mem _ (List.mem_append_left _ inside))
    · simpa [other] using member

/-- A code span alone is read as one paragraph of its text. -/
theorem Fenced.read_alone {body : List Char} {count : Nat} (fenced : Fenced body count) :
    read (String.ofList (fencedMarkup body count)) =
      [.node .paragraph [.leaf (.code (String.ofList (codeSpanText body)))]] := by
  have start := fenced.inert []
  rw [List.append_nil] at start
  have first : (fencedMarkup body count).head? = some '`' := by
    rw [fencedMarkup, List.replicate_succ]
    rfl
  refine read_paragraph (.of_oneLine fenced.oneLine_written start) (.inl rfl) (fun bracket => ?_)
    (fenced.reads [] {} [] (by simp))
    (.single [.code (String.ofList (codeSpanText body))]) (.code _)
  rw [first] at bracket
  cases bracket

/-- A paragraph of code alone is read back as it was, unless the code is white space between two
blanks: that loses the blanks. -/
theorem code_span_kept_iff (code : String) (nonempty : code ≠ "")
    (oneLine : ∀ c ∈ code.toList, c ≠ '\n' ∧ c ≠ '\r') :
    (read (write [.node .paragraph [.leaf (.code code)]]) = [.node .paragraph [.leaf (.code code)]] ↔
        ∀ inner, ¬ Unpadded code inner) ∧
      ∀ inner, Unpadded code inner → read (write [.node .paragraph [.leaf (.code code)]]) =
        [.node .paragraph [.leaf (.code (String.ofList inner))]] := by
  have chars : code.toList ≠ [] := mt String.toList_eq_nil_iff.mp nonempty
  obtain ⟨body, fenced, written, text⟩ := exists_fenced chars oneLine
  have markup : markupOf true (.node .paragraph [.leaf (.code code)]) =
      fencedMarkup body (Text.longestRun '`' code.toList) := by
    rw [← written, markupOf, inlineMarkup_nil]
    simp [spell, markupOf, leafMarkup]
  have shown : read (write [.node .paragraph [.leaf (.code code)]]) =
      [.node .paragraph [.leaf (.code (String.ofList (codeSpanText body)))]] := by
    rw [write_single rfl (by rw [markup]; simp [fencedMarkup]), markup, fenced.read_alone]
  have lost : ∀ inner, Unpadded code inner → codeSpanText body = inner := by
    intro inner unpadded
    rcases text with ⟨_, c, member, ink⟩ | ⟨rfl, _⟩
    · rw [unpadded.all_white c member] at ink
      cases ink
    · exact unpadded.codeSpanText oneLine
  have kept : (∀ inner, ¬ Unpadded code inner) → codeSpanText body = code.toList := by
    intro padded
    rcases text with ⟨same, _⟩ | ⟨rfl, ends⟩
    · exact same
    · exact codeSpanText_bare oneLine ends padded
  refine ⟨⟨fun same inner unpadded => ?_, fun padded => ?_⟩, fun inner unpadded => ?_⟩
  · rw [shown, lost inner unpadded] at same
    exact unpadded.ne_code (by simpa using same)
  · rw [shown, kept padded, String.ofList_toList]
  · rw [shown, lost inner unpadded]

theorem code_span_kept_backticks :
    read (write [.node .paragraph [.leaf (.code "` a``")]]) = [.node .paragraph [.leaf (.code "` a``")]] := by
  refine (code_span_kept_iff "` a``" (by decide) (by simp)).1.mpr fun inner unpadded => ?_
  have blank := unpadded.between
  cases blank

/-- A tab between blanks is written without padding, and comes back as the tab alone. -/
theorem code_span_loses_blanks :
    read "``  \t  ``" = [.node .paragraph [.leaf (.code " \t ")]] ∧
      read (write [.node .paragraph [.leaf (.code " \t ")]]) = [.node .paragraph [.leaf (.code "\t")]] := by
  decide +kernel

end DocComment.Markup
