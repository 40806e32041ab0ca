import DocComment.Proofs.Markup.RoundTrip

namespace DocComment.Markup

open Unicode (isAsciiPunctuation)

/-- What is written is read as texts that make up the text, in any state. -/
def ReadsText (written rest text : List Char) : Prop :=
  ∃ chunks : List String, (chunks.map String.toList).flatten = text ∧
    ∀ state, ReadAs [] written rest state (chunks.map fun chunk => .events [.text chunk])

namespace ReadsText

theorem append {first second rest one two : List Char} (reads : ReadsText first (second ++ rest) one)
    (next : ReadsText second rest two) : ReadsText (first ++ second) rest (one ++ two) := by
  obtain ⟨chunks, same, read⟩ := reads
  obtain ⟨more, others, after⟩ := next
  refine ⟨chunks ++ more, by simp [same, others], fun state => ?_⟩
  rw [List.map_append]
  exact (read state).append fun _ _ => after _

theorem escaped (lineStart : Bool) {next : Option Char} {text rest : List Char}
    (known : ∀ c ∈ text, c ≠ '\n' ∧ c ≠ '\x0b' ∧ c ≠ '\x0c') (follows : Follows '\n' next rest)
    (settled : goesOn next text = true) : ReadsText (escapeFrom lineStart text) rest text := by
  obtain ⟨events, spells, reads⟩ :=
    (elements lineStart text fun c member => (known c member).2).reads follows [] settled
  obtain ⟨chunks, same, spelled⟩ := spells.texts fun member => (known _ member).1 rfl
  refine ⟨chunks, spelled.symm, fun state => ?_⟩
  have read := reads state
  rw [map_writtenEnd_self, same, List.map_map] at read
  exact read

/-- Spaces at the start of a line are written as references. -/
theorem spaces (count : Nat) (rest : List Char) :
    ReadsText (escapeFrom true (List.replicate count ' ')) rest (List.replicate count ' ') := by
  induction count with
  | zero => exact ⟨[], rfl, fun state => .nil⟩
  | succ count ih =>
    have first : ReadsText ['&', '#', '3', '2', ';'] (escapeFrom true (List.replicate count ' ') ++ rest)
        [' '] :=
      ⟨[String.ofList [' ']], by simp, fun state =>
        .one (inlineStep_blankReference [] state _) (.refl _)⟩
    exact first.append ih

/-- The texts that make up the text are one text in the tree. -/
theorem resolved {written text : List Char} (reads : ReadsText written [] text) (nonempty : text ≠ []) :
    ∃ pieces events entities, ReadAs [] written [] {} pieces ∧ Resolves [] pieces events ∧
      Builds events entities ∧ gather entities = [.leaf (.text (String.ofList text))] := by
  obtain ⟨chunks, same, read⟩ := reads
  have pieces : chunks ≠ [] := by
    rintro rfl
    exact nonempty same.symm
  have resolves : Resolves [] (chunks.map fun chunk => .events [.text chunk]) (chunks.map Event.text) := by
    have single : Resolves [] _ (chunks.map Event.text) := .single _
    rwa [List.map_map] at single
  refine ⟨_, _, _, read {}, resolves, builds_texts chunks, ?_⟩
  rw [gather_texts chunks pieces, same]

/-- Inline content that is read as text, in a heading of its own. -/
theorem heading {level : Nat} {written text : List Char} (reads : ReadsText written [] text)
    (count : Nat) (positive : 1 ≤ level) (atMost : level ≤ 6)
    (oneLine : ∀ c ∈ written, c ≠ '\n' ∧ c ≠ '\r')
    (first : ∀ c, written.head? = some c → isLineBlank c = false) (closes : Closes written)
    (nonempty : text ≠ []) :
    read (String.ofList (List.replicate level '#' ++ ' ' :: (written ++ List.replicate count ' '))) =
      [.node (.heading level) [.leaf (.text (String.ofList text))]] := by
  obtain ⟨pieces, events, entities, read, resolves, builds, gathered⟩ := reads.resolved nonempty
  have last : written.getLast? ≠ some ' ' := fun blank => by
    have edge := closes.last ' ' blank
    simp [isEdge] at edge
  rw [read_block (blocksOf_heading_spaced level written count positive atMost oneLine first last
    closes.escaped) rfl read resolves builds, gathered]
  rfl

/-- Inline content that is read as text, in a paragraph of its own. -/
theorem paragraph {written text : List Char} (reads : ReadsText written [] text) (inert : InertText written)
    (unbracketed : written.head? ≠ some '[') (nonempty : text ≠ []) :
    read (String.ofList written) = [.node .paragraph [.leaf (.text (String.ofList text))]] := by
  obtain ⟨pieces, events, entities, read, resolves, builds, gathered⟩ := reads.resolved nonempty
  rw [read_paragraph inert (.inl rfl) (fun bracket => absurd bracket unbracketed) read resolves builds,
    gathered]

end ReadsText

theorem not_edge_of_inked {c : Char} (inked : isInked c = true) : isEdge c = false := by
  obtain ⟨notBlank, notEnd, _⟩ := inked_parts inked
  simp only [isLineBlank, Bool.or_eq_false_iff] at notBlank
  simp [isEdge, notBlank, notEnd]

/-- Letters and spaces on one line; no space at either end. -/
def isCaption (text : List Char) : Bool :=
  text.all (fun c => c != '\r' && (isInked c || c == ' ')) && text.head?.any isInked &&
    text.getLast?.any isInked

structure Caption (text : List Char) : Prop where
  letters : ∀ c ∈ text, c ≠ '\r' ∧ (isInked c = true ∨ c = ' ')
  first : ∃ c rest, text = c :: rest ∧ isInked c = true
  last : ∃ start c, text = start ++ [c] ∧ isInked c = true

theorem caption_of_isCaption {text : List Char} (caption : isCaption text = true) : Caption text := by
  simp only [isCaption, Bool.and_eq_true, List.all_eq_true, Bool.or_eq_true, beq_iff_eq, bne_iff_ne,
    Option.any_eq_true] at caption
  obtain ⟨⟨letters, c, first, inked⟩, d, last, ends⟩ := caption
  obtain ⟨rest, same⟩ := List.head?_eq_some_iff.mp first
  obtain ⟨start, final⟩ := List.getLast?_eq_some_iff.mp last
  exact ⟨letters, ⟨c, rest, same, inked⟩, ⟨start, d, final, ends⟩⟩

namespace Caption

variable {caption : List Char}

theorem unmarked (letters : Caption caption) :
    ∀ c ∈ caption, isAsciiPunctuation c = false ∧ (c == '\n') = false := by
  intro c member
  rcases (letters.letters c member).2 with inked | rfl
  · exact ⟨(inked_parts inked).2.2, (inked_parts inked).2.1⟩
  · decide

theorem known (letters : Caption caption) : ∀ c ∈ caption, c ≠ '\n' ∧ c ≠ '\x0b' ∧ c ≠ '\x0c' := by
  intro c member
  rcases (letters.letters c member).2 with inked | rfl
  · refine ⟨?_, ?_, ?_⟩ <;> (rintro rfl; exact absurd inked (by decide))
  · decide

/-- A caption needs no escapes, and nothing after it is at the start of a line. -/
theorem escapeFrom (letters : Caption caption) (lineStart : Bool) (rest : List Char) :
    escapeFrom lineStart (caption ++ rest) = caption ++ Markup.escapeFrom false rest := by
  obtain ⟨c, others, rfl, inked⟩ := letters.first
  have start := escapeFrom_letters lineStart [] (others ++ rest) (List.forall_mem_singleton.mpr inked)
  have more := escapeFrom_run others rest fun d member =>
    letters.unmarked d (List.mem_cons_of_mem c member)
  rw [List.singleton_append, more] at start
  exact start

end Caption

theorem escapeFrom_false_spaces (count : Nat) :
    escapeFrom false (List.replicate count ' ') = List.replicate count ' ' := by
  have run := escapeFrom_run (List.replicate count ' ') []
    (List.forall_mem_replicate.mpr (.inr (by decide)))
  rwa [List.append_nil, escapeFrom, List.append_nil] at run

/-- Spaces after a character that is no space are not escaped. -/
theorem escapeFrom_spaced {c : Char} (start : List Char) (edge : isEdge c = false)
    (known : c ≠ '\x0b' ∧ c ≠ '\x0c') (lineStart : Bool) (count : Nat) :
    escapeFrom lineStart (start ++ [c] ++ List.replicate count ' ') =
      escapeFrom lineStart (start ++ [c]) ++ List.replicate count ' ' := by
  obtain ⟨next, after⟩ := escapeFrom_append lineStart start
  rw [List.append_assoc, after, after, List.append_assoc]
  congr 1
  by_cases mark : isAsciiPunctuation c = true
  · rw [List.singleton_append, escapeFrom_mark next _ mark, escapeFrom_mark next [] mark,
      escapeFrom_false_spaces]
    rfl
  · have inked : isInked c = true := by
      simp only [isEdge, Bool.or_eq_false_iff] at edge
      simp [isInked, isLineBlank, mark, edge, known]
    have letters := fun rest => escapeFrom_letters next [] rest (List.forall_mem_singleton.mpr inked)
    have alone := letters []
    rw [List.append_nil] at alone
    rw [letters, alone, escapeFrom_false_spaces]
    rfl

theorem escapeFrom_lineStart {c : Char} (rest : List Char) (other : c ≠ ' ' ∧ c ≠ '\t') :
    escapeFrom true (c :: rest) = escapeFrom false (c :: rest) := by
  simp [escapeFrom, other]

theorem escapeFrom_spaces_last (count : Nat) :
    (escapeFrom true (List.replicate (count + 1) ' ')).getLast? = some ';' := by
  induction count with
  | zero => rfl
  | succ count ih =>
    have written : escapeFrom true (List.replicate (count + 1 + 1) ' ') =
        ['&', '#', '3', '2', ';'] ++ escapeFrom true (List.replicate (count + 1) ' ') := rfl
    rw [written, List.getLast?_append, ih]
    rfl

theorem goesOn_of_next {text : List Char} {c : Char} (oneLine : '\n' ∉ text) (inLine : c ≠ '\n') :
    goesOn (some c) text = true := by
  induction text with
  | nil => rfl
  | cons d rest ih =>
    rw [List.mem_cons, not_or] at oneLine
    rw [goesOn, ih oneLine.2]
    cases rest with
    | nil => simp [inLine]
    | cons e others =>
      have next : e ≠ '\n' := fun same => oneLine.2 (same ▸ List.mem_cons_self)
      simp [next]

variable {caption name : List Char}

/-- A caption and a space, before what is not read together with them. -/
theorem Caption.reads_spaced (letters : Caption caption) {rest : List Char}
    (reference : rest.head? = some '&') : ReadsText (caption ++ [' ']) rest (caption ++ [' ']) := by
  have known : ∀ c ∈ caption ++ [' '], c ≠ '\n' ∧ c ≠ '\x0b' ∧ c ≠ '\x0c' :=
    List.forall_mem_append.mpr ⟨letters.known, by simp⟩
  have written : Markup.escapeFrom false (caption ++ [' ']) = caption ++ [' '] :=
    letters.escapeFrom false [' ']
  have follows : Follows '\n' (some '&') rest :=
    ⟨.inl rfl, reference, by rintro c ⟨⟩; decide⟩
  have reads := ReadsText.escaped false known follows
    (goesOn_of_next (fun member => (known _ member).1 rfl) (by decide))
  rwa [written] at reads

/-- What is written for a caption and a name: inline content that is read as a text, and spaces. -/
structure TitleOf (caption name written text : List Char) (spaces : Nat) : Prop where
  markup : caption ++ ' ' :: escapeFrom true name = written ++ List.replicate spaces ' '
  shown : caption ++ ' ' :: name = text ++ List.replicate spaces ' '
  reads : ReadsText written [] text
  closes : Closes written
  captioned : caption <+: written

/-- Nothing follows a heading. -/
theorem follows_heading : Follows '\n' none [] := ⟨.inl rfl, rfl, nofun⟩

theorem title_blank (letters : Caption caption) (count : Nat) :
    TitleOf caption (List.replicate (count + 1) ' ')
      (caption ++ ' ' :: escapeFrom true (List.replicate (count + 1) ' '))
      (caption ++ ' ' :: List.replicate (count + 1) ' ') 0 where
  markup := by simp
  shown := by simp
  reads := by
    have first : ReadsText (caption ++ [' ']) (escapeFrom true (List.replicate (count + 1) ' ') ++ [])
        (caption ++ [' ']) := letters.reads_spaced rfl
    have reads := first.append (.spaces (count + 1) [])
    rwa [List.append_assoc, List.append_assoc] at reads
  closes := by
    have last : Closes (escapeFrom true (List.replicate (count + 1) ' ')) :=
      .of_last (escapeFrom_spaces_last count) rfl (by decide)
    rw [List.append_cons]
    exact .append (List.cons_ne_nil _ _) last
  captioned := List.prefix_append _ _

theorem title_nameless (letters : Caption caption) : TitleOf caption [] caption caption 1 where
  markup := rfl
  shown := rfl
  reads := by
    obtain ⟨start, c, rfl, inked⟩ := letters.last
    have settled : goesOn none (start ++ [c]) = true :=
      goesOn_of_oneLine (fun member => (letters.known _ member).1 rfl) (by
        simp only [List.getLast?_concat, ne_eq, Option.some.injEq]
        constructor <;> (rintro rfl; exact absurd inked (by decide)))
    have reads := ReadsText.escaped false letters.known follows_heading settled
    have written := letters.escapeFrom false []
    rw [List.append_nil] at written
    rw [written] at reads
    simpa [escapeFrom] using reads
  closes := by
    obtain ⟨start, c, rfl, inked⟩ := letters.last
    exact .of_last List.getLast?_concat (not_edge_of_inked inked) (by
      rintro rfl
      exact absurd inked (by decide))
  captioned := List.prefix_rfl

theorem title_named (letters : Caption caption) {start : List Char} {c : Char} (count : Nat)
    (other : c ≠ ' ')
    (known : ∀ d ∈ start ++ [c], d ≠ '\n' ∧ d ≠ '\t' ∧ d ≠ '\x0b' ∧ d ≠ '\x0c') :
    TitleOf caption (start ++ [c] ++ List.replicate count ' ')
      (caption ++ ' ' :: escapeFrom true (start ++ [c])) (caption ++ ' ' :: (start ++ [c])) count := by
  obtain ⟨notEnd, notTab, notOther⟩ := known c (List.mem_append_right start List.mem_cons_self)
  have edge : isEdge c = false := by simp [isEdge, other, notTab, notEnd]
  have settled : goesOn none (start ++ [c]) = true :=
    goesOn_of_oneLine (fun member => (known _ member).1 rfl) (by simp [other, notTab])
  have inLine : ∀ d ∈ start ++ [c], d ≠ '\n' ∧ d ≠ '\x0b' ∧ d ≠ '\x0c' := fun d member =>
    ⟨(known d member).1, (known d member).2.2⟩
  refine ⟨?_, by simp, ?_, ?_, List.prefix_append _ _⟩
  · rw [escapeFrom_spaced start edge notOther, List.append_assoc]
    rfl
  · obtain ⟨d, rest, first⟩ := List.exists_cons_of_ne_nil (show start ++ [c] ≠ [] by simp)
    by_cases blank : d = ' '
    · have head : (escapeFrom true (start ++ [c]) ++ []).head? = some '&' := by
        rw [first, blank]
        rfl
      have reads := (letters.reads_spaced head).append
        (ReadsText.escaped true inLine follows_heading settled)
      rwa [List.append_assoc, List.append_assoc] at reads
    · have notTab : d ≠ '\t' := (known d (first ▸ List.mem_cons_self)).2.1
      have whole : escapeFrom false (caption ++ ' ' :: (start ++ [c])) =
          caption ++ ' ' :: escapeFrom true (start ++ [c]) := by
        rw [letters.escapeFrom, first, escapeFrom_lineStart rest ⟨blank, notTab⟩]
        rfl
      rw [← whole]
      refine ReadsText.escaped false ?_ follows_heading ?_
      · exact List.forall_mem_append.mpr ⟨letters.known, List.forall_mem_cons.mpr ⟨by decide, inLine⟩⟩
      · have next : d ≠ '\n' := (known d (first ▸ List.mem_cons_self)).1
        have before : goesOn (some ' ') caption = true :=
          goesOn_of_next (fun member => (letters.known _ member).1 rfl) (by decide)
        rw [goesOn_append, List.head?_cons, Option.some_or, goesOn, settled, before, first]
        simp [next]
  · have written : escapeFrom true (start ++ [c]) ≠ [] := fun empty => by
      obtain ⟨d, rest, first⟩ := List.exists_cons_of_ne_nil (show start ++ [c] ≠ [] by simp)
      have head := escapeFrom_head? true d rest
      rw [← first, empty] at head
      cases head
    rw [List.append_cons]
    exact .append written (.escapeFrom settled)

theorem exists_title (letters : Caption caption)
    (known : ∀ c ∈ name, c ≠ '\n' ∧ c ≠ '\t' ∧ c ≠ '\x0b' ∧ c ≠ '\x0c') :
    ∃ written text spaces, TitleOf caption name written text spaces := by
  obtain ⟨kept, count, rfl, last⟩ := Text.exists_lastRun ' ' name
  rcases List.eq_nil_or_concat' kept with rfl | ⟨start, c, rfl⟩
  · cases count with
    | zero => exact ⟨_, _, _, title_nameless letters⟩
    | succ count => exact ⟨_, _, _, title_blank letters count⟩
  · exact ⟨_, _, _, title_named letters count (by simpa using last) fun d member =>
      known d (List.mem_append_left _ member)⟩

/-- A heading of a caption and an escaped name is one text. At its end spaces may be missing. -/
theorem read_title (letters : Caption caption)
    (known : ∀ c ∈ name, c ≠ '\n' ∧ c ≠ '\r' ∧ c ≠ '\t' ∧ c ≠ '\x0b' ∧ c ≠ '\x0c') :
    ∃ text spaces, caption ++ ' ' :: name = text ++ List.replicate spaces ' ' ∧
      read (String.ofList ('#' :: ' ' :: (caption ++ ' ' :: escapeFrom true name))) =
        [.node (.heading 1) [.leaf (.text (String.ofList text))]] := by
  obtain ⟨written, text, spaces, title⟩ := exists_title letters fun c member =>
    have ⟨lineFeed, _, others⟩ := known c member
    ⟨lineFeed, others⟩
  obtain ⟨c, rest, head, inked⟩ := letters.first
  obtain ⟨more, after⟩ := title.captioned
  have oneLine : ∀ c ∈ written, c ≠ '\n' ∧ c ≠ '\r' := by
    have all : ∀ c ∈ caption ++ ' ' :: escapeFrom true name, c ≠ '\n' ∧ c ≠ '\r' := by
      refine List.forall_mem_append.mpr ⟨fun c member => ?_, List.forall_mem_cons.mpr ⟨by decide, ?_⟩⟩
      · exact ⟨(letters.known c member).1, (letters.letters c member).1⟩
      · intro c member
        rcases mem_escapeFrom member with own | mark
        · exact ⟨(known c own).1, (known c own).2.1⟩
        · constructor <;> (rintro rfl; simp at mark)
    rw [title.markup] at all
    exact fun c member => all c (List.mem_append_left _ member)
  have first : ∀ d, written.head? = some d → isLineBlank d = false := by
    rw [← after, head]
    rintro d ⟨⟩
    exact (inked_parts inked).1
  have nonempty : text ≠ [] := by
    rintro rfl
    have member : c ∈ [] ++ List.replicate spaces ' ' := by
      rw [← title.shown, head]
      exact List.mem_cons_self
    obtain rfl := List.eq_of_mem_replicate member
    exact absurd inked (by decide)
  refine ⟨text, spaces, title.shown, ?_⟩
  rw [title.markup]
  have atMost : 1 ≤ 6 := by decide
  have reads := title.reads.heading spaces (Nat.le_refl 1) atMost oneLine first title.closes nonempty
  rwa [List.replicate_one, List.singleton_append] at reads

end DocComment.Markup
