import DocComment.Proofs.Markup.LinkTails
import DocComment.Proofs.Markup.RoundTrip

/-! Links and images of plain text are read back, with the character references in their addresses
and titles replaced: nothing escapes an ampersand there. -/
namespace DocComment.Markup

/-- Text on one line, each of its characters written in an escaped form. Texts side by side are
inscribed one after the other. -/
inductive Inscribed : List Char → List Char → Prop where
  | nil : Inscribed [] []
  | cons {c : Char} {text written more : List Char} {start next : Bool} (inLine : c ≠ '\n' ∧ c ≠ '\r')
      (escape : Escape start c written next) (rest : Inscribed text more) :
      Inscribed (c :: text) (written ++ more)

theorem inscribed_escapeFrom (lineStart : Bool) {text : List Char}
    (oneLine : ∀ c ∈ text, c ≠ '\n' ∧ c ≠ '\r') : Inscribed text (escapeFrom lineStart text) := by
  induction text generalizing lineStart with
  | nil => exact .nil
  | cons c rest ih =>
    obtain ⟨first, later⟩ := List.forall_mem_cons.mp oneLine
    obtain ⟨written, next, escape, same⟩ := escapeFrom_cons lineStart c
    rw [same]
    exact .cons first escape (ih next later)

namespace Inscribed

variable {text written : List Char}

theorem append {later more : List Char} (first : Inscribed text written) (second : Inscribed later more) :
    Inscribed (text ++ later) (written ++ more) := by
  induction first with
  | nil => exact second
  | cons inLine escape _ ih =>
    rw [List.append_assoc]
    exact .cons inLine escape ih

theorem spell (lineStart : Bool) {texts : List String}
    (oneLine : ∀ text ∈ texts, ∀ c ∈ text.toList, c ≠ '\n' ∧ c ≠ '\r') :
    Inscribed (texts.map String.toList).flatten
      (spell lineStart (texts.map fun text => .leaf (.text text))) := by
  induction texts generalizing lineStart with
  | nil => exact .nil
  | cons text rest ih =>
    obtain ⟨first, later⟩ := List.forall_mem_cons.mp oneLine
    exact (inscribed_escapeFrom lineStart first).append (ih _ later)

theorem oneLine (inscribed : Inscribed text written) : ∀ c ∈ written, c ≠ '\n' ∧ c ≠ '\r' := by
  have marks : ∀ c ∈ "\\&#329;".toList, c ≠ '\n' ∧ c ≠ '\r' :=
    List.all_iff_forall_prop.mp (by decide)
  induction inscribed with
  | nil => exact List.forall_mem_nil _
  | cons inLine escape _ ih =>
    refine List.forall_mem_append.mpr ⟨fun d member => ?_, ih⟩
    rcases escape.mem member with rfl | mark
    · exact inLine
    · exact marks d mark

/-- Splits off a run of characters that are written as they are. -/
theorem split_run (keep : Char → Bool) (escapes : keep '\\' = false ∧ keep '&' = false)
    (inscribed : Inscribed text written) :
    ∃ run rest more, text = run ++ rest ∧ written = run ++ more ∧ Inscribed rest more ∧
      (∀ c ∈ run, keep c = true) ∧ ∀ c, more.head? = some c → keep c = false := by
  induction inscribed with
  | nil => exact ⟨[], [], [], rfl, rfl, .nil, by simp, by simp⟩
  | @cons c text written more start next inLine escape rest ih =>
    have escaped (first : written.head? = some '\\' ∨ written.head? = some '&') :
        ∀ d, (written ++ more).head? = some d → keep d = false := by
      intro d starts
      rw [List.head?_append] at starts
      rcases first with mark | mark <;> rw [mark, Option.some_or] at starts
      · exact Option.some.inj starts ▸ escapes.1
      · exact Option.some.inj starts ▸ escapes.2
    have whole := Inscribed.cons inLine escape rest
    cases escape with
    | blank => exact ⟨[], _, _, rfl, rfl, whole, by simp, escaped (.inr rfl)⟩
    | tab => exact ⟨[], _, _, rfl, rfl, whole, by simp, escaped (.inr rfl)⟩
    | mark => exact ⟨[], _, _, rfl, rfl, whole, by simp, escaped (.inl rfl)⟩
    | bare letter =>
      by_cases kept : keep c = true
      · obtain ⟨run, left, after, rfl, rfl, later, all, ends⟩ := ih
        exact ⟨c :: run, left, after, rfl, rfl, later, List.forall_mem_cons.mpr ⟨kept, all⟩, ends⟩
      · refine ⟨[], _, _, rfl, rfl, whole, by simp, ?_⟩
        rintro d ⟨⟩
        simpa using kept

/-- What is read first: an escaped character, or a run of blanks or of plain characters. -/
theorem first_chunk (inscribed : Inscribed text written) (nonempty : text ≠ []) :
    ∃ chunk rest first more, chunk ≠ [] ∧ text = chunk ++ rest ∧ written = first ++ more ∧
      Inscribed rest more ∧ ∀ definitions state after,
        ReadAs definitions first (more ++ ']' :: after) state [.events [.text (String.ofList chunk)]] := by
  cases inscribed with
  | nil => exact absurd rfl nonempty
  | @cons c text written more start next inLine escape rest =>
    cases escape with
    | blank =>
      refine ⟨[' '], text, ['&', '#', '3', '2', ';'], more, by simp, rfl, rfl, rest,
        fun definitions state after => ?_⟩
      exact .one (inlineStep_blankReference definitions state _) (.refl _)
    | tab =>
      refine ⟨['\t'], text, ['&', '#', '9', ';'], more, by simp, rfl, rfl, rest,
        fun definitions state after => ?_⟩
      exact .one (inlineStep_tabReference definitions state _) (.refl _)
    | mark mark =>
      refine ⟨[c], text, ['\\', c], more, by simp, rfl, rfl, rest, fun definitions state after => ?_⟩
      exact .one (inlineStep_escape definitions state _ mark) (.refl _)
    | bare letter =>
      by_cases blank : isLineBlank c = true
      · obtain ⟨run, left, later, rfl, rfl, ends, all, stops⟩ := rest.split_run isLineBlank (by decide)
        refine ⟨c :: run, left, c :: run, later, by simp, rfl, rfl, ends, fun definitions state after => ?_⟩
        have blanks : ∀ d ∈ c :: run, isLineBlank d = true := List.forall_mem_cons.mpr ⟨blank, all⟩
        refine .one ?_ (.refl _)
        cases later with
        | nil => exact inlineStep_blanks definitions state blanks rfl (by decide)
        | cons d others =>
          exact inlineStep_blanks definitions state blanks (stops d rfl)
            (ends.oneLine d List.mem_cons_self).1
      · obtain ⟨run, left, later, rfl, rfl, ends, all, stops⟩ := rest.split_run isPlain (by decide)
        refine ⟨c :: run, left, c :: run, later, by simp, rfl, rfl, ends, fun definitions state after => ?_⟩
        have inked : isInked c = true := by simp [isInked, letter, blank, inLine]
        have plain : ∀ d ∈ c :: run, isPlain d = true :=
          List.forall_mem_cons.mpr ⟨isPlain_of_isInked inked, all⟩
        refine .one (inlineStep_plain definitions state plain fun d first => ?_) (.refl _)
        cases later with
        | nil => exact Option.some.inj first ▸ rfl
        | cons e others => exact stops d first

/-- Inscribed text before a closing bracket is read as texts. -/
theorem reads (inscribed : Inscribed text written) (definitions : List Definition) (after : List Char) :
    ∃ chunks : List String, text = (chunks.map String.toList).flatten ∧ (text = [] → chunks = []) ∧
      ∀ state, ReadAs definitions written (']' :: after) state
        (chunks.map fun chunk => .events [.text chunk]) := by
  induction size : text.length using Nat.strong_induction_on generalizing text written with
  | _ length ih =>
    by_cases empty : text = []
    · subst empty
      cases inscribed
      exact ⟨[], rfl, fun _ => rfl, fun _ => .nil⟩
    · obtain ⟨chunk, rest, first, more, nonempty, rfl, rfl, ends, read⟩ := inscribed.first_chunk empty
      have shorter := List.length_pos_iff.mpr nonempty
      obtain ⟨chunks, rfl, _, reads⟩ := ih rest.length (by simp at size; omega) ends rfl
      refine ⟨String.ofList chunk :: chunks, by simp, fun silent => absurd silent empty, fun state => ?_⟩
      exact .cons (read definitions state after) reads

/-- A label of inscribed text ends at the bracket after it. -/
theorem labelUntil? (inscribed : Inscribed text written) (after : List Char) :
    labelUntil? (written ++ ']' :: after) = some (written, after) := by
  induction inscribed with
  | nil => rfl
  | @cons c text written more start next inLine escape rest ih =>
    cases escape with
    | blank | tab | mark => simp [Markup.labelUntil?, ih]
    | bare letter =>
      have apart : c ≠ '\\' ∧ c ≠ ']' ∧ c ≠ '[' := by
        refine ⟨?_, ?_, ?_⟩ <;> (rintro rfl; cases letter)
      rw [List.append_assoc, List.singleton_append, Markup.labelUntil?, ih]
      · simp [apart]
      · exact fun _ _ same => absurd same apart.1

end Inscribed

/-- A label that no colon follows defines nothing. -/
theorem definition?_of_label {text label after : List Char} (labelled : labelUntil? text = some (label, after))
    (colon : after.head? ≠ some ':') : definition? ('[' :: text) = none := by
  rw [definition?, Option.bind_eq_none_iff]
  rintro ⟨found, rest⟩ read
  rw [label?, labelled, Option.filter_eq_some_iff] at read
  obtain ⟨rfl, rfl⟩ := Prod.ext_iff.mp (Option.some.inj read.1)
  dsimp only
  split
  case h_1 => exact absurd rfl colon
  case h_2 => rfl

/-- The texts as they are read back: as one, if there is anything in them. -/
def joinedTexts (texts : List String) : List Entity :=
  match (texts.map String.toList).flatten with
  | [] => []
  | chars => [.leaf (.text (String.ofList chars))]

theorem gather_chunks {texts chunks : List String}
    (same : (texts.map String.toList).flatten = (chunks.map String.toList).flatten)
    (silent : (texts.map String.toList).flatten = [] → chunks = []) :
    gather (chunks.map fun chunk => .leaf (.text chunk)) = joinedTexts texts := by
  unfold joinedTexts
  split
  case h_1 empty =>
    rw [silent empty]
    rfl
  case h_2 chars nonempty =>
    have spoken : chunks ≠ [] := by
      rintro rfl
      exact nonempty same
    rw [gather_texts chunks spoken, ← same]

/-- A link or an image with the destination and the title that are written for it. The title of a link
without an address names its target. -/
inductive Addressed : Tag → (destination title : String) → Prop where
  | uri (address title : String) (nonempty : address ≠ "") :
      Addressed (.link (.uri address) title) address title
  | unresolved (raw title : String) (nonempty : raw ≠ "") : Addressed (.link (.unresolved raw) title) "" raw
  | image (source title : String) : Addressed (.image source title) source title

/-- A link or an image as it is read back. A link without an address keeps no title of its own. -/
def reread : Tag → Tag
  | .link (.uri address) title => .link (.uri (decoded address)) (decoded title)
  | .link (.unresolved raw) _ => .link (.unresolved (decoded raw)) ""
  | .image source title => .image (decoded source) (decoded title)
  | other => other

section

variable {destination title : String} {texts : List String}

/-- A paragraph of one link or image whose text is read in these chunks. -/
theorem read_enclosed {written : List Char} {opening : Opening} {entity : Entity} {chunks : List String}
    (becomes : closeOpening opening (joinedTexts texts) = [entity])
    (same : (texts.map String.toList).flatten = (chunks.map String.toList).flatten)
    (silent : (texts.map String.toList).flatten = [] → chunks = []) (start : Inert (firstLine written))
    (oneLine : ∀ c ∈ written, c ≠ '\n' ∧ c ≠ '\r')
    (defines : written.head? = some '[' → definition? written = none)
    (reads : ReadAs [] written [] {} [.events (.enter opening ::
      resolveEmphasis (chunks.map fun chunk => .events [.text chunk]) ++ [.leave])]) :
    read (String.ofList written) = [.node .paragraph [entity]] := by
  have events : resolveEmphasis (chunks.map fun chunk => .events [.text chunk]) = chunks.map Event.text := by
    have pieces : (chunks.map fun chunk => Piece.events [.text chunk]) =
        (chunks.map Event.text).map fun event => .events [event] := by
      rw [List.map_map]
      rfl
    rw [pieces, (Resolves.single _).resolveEmphasis]
  rw [events] at reads
  rw [read_paragraph (.of_oneLine oneLine start) (.inl rfl) defines reads (.events _)
    ((builds_texts chunks).enclosed opening), gather_chunks same silent, becomes, gather_single]

variable (address : ∀ c ∈ destination.toList, c ≠ '\n' ∧ c ≠ '\r')
  (name : ∀ c ∈ title.toList, c ≠ '\n' ∧ c ≠ '\r')
  (oneLine : ∀ text ∈ texts, ∀ c ∈ text.toList, c ≠ '\n' ∧ c ≠ '\r')

include address name oneLine

theorem bracketMarkup_oneLine : ∀ c ∈ bracketMarkup (texts.map fun text => .leaf (.text text))
    (tailMarkup (escapeDestination destination) (escapeTitle title)), c ≠ '\n' ∧ c ≠ '\r' := by
  have inner := (Inscribed.spell true oneLine).oneLine
  rw [bracketMarkup, List.cons_append, List.forall_mem_cons, List.forall_mem_append, List.forall_mem_cons]
  exact ⟨by decide, inner, by decide, tailMarkup_oneLine address name⟩

theorem read_link : read (String.ofList (bracketMarkup (texts.map fun text => .leaf (.text text))
      (tailMarkup (escapeDestination destination) (escapeTitle title)))) =
    [.node .paragraph [linkEntity (decoded destination) (decoded title) (joinedTexts texts)]] := by
  have inscribed := Inscribed.spell true oneLine
  obtain ⟨chunks, same, silent, reads⟩ := inscribed.reads []
    (tailMarkup (escapeDestination destination) (escapeTitle title) ++ [])
  refine read_enclosed rfl same silent (inert_of_mark _ (by decide))
    (bracketMarkup_oneLine address name oneLine) (fun _ => ?_)
    (.link (by simp) (inlineTail?_escaped [] address name) (tailMarkup_getLast? _ _) fun _ => reads _)
  have label := inscribed.labelUntil? (tailMarkup (escapeDestination destination) (escapeTitle title))
  exact definition?_of_label label (by simp [tailMarkup])

theorem read_image : read (String.ofList ('!' :: bracketMarkup (texts.map fun text => .leaf (.text text))
      (tailMarkup (escapeDestination destination) (escapeTitle title)))) =
    [.node .paragraph [.node (.image (decoded destination) (decoded title)) (joinedTexts texts)]] := by
  obtain ⟨chunks, same, silent, reads⟩ := (Inscribed.spell true oneLine).reads []
    (tailMarkup (escapeDestination destination) (escapeTitle title) ++ [])
  have written := bracketMarkup_oneLine address name oneLine
  refine read_enclosed rfl same silent (inert_of_mark _ (by decide))
    (List.forall_mem_cons.mpr ⟨by decide, written⟩) (fun bracket => ?_)
    (.image (inlineTail?_escaped [] address name) (tailMarkup_getLast? _ _) fun _ => reads _)
  cases bracket

end

/-- A link or an image of text on one line is read back, with the character references in its address
and title replaced; what holds no reference stays as it is. -/
theorem link_read_back {tag : Tag} {destination title : String} (addressed : Addressed tag destination title)
    (texts : List String) (address : ∀ c ∈ destination.toList, c ≠ '\n' ∧ c ≠ '\r')
    (name : ∀ c ∈ title.toList, c ≠ '\n' ∧ c ≠ '\r')
    (oneLine : ∀ text ∈ texts, ∀ c ∈ text.toList, c ≠ '\n' ∧ c ≠ '\r') :
    read (write [.node tag (texts.map fun text => .leaf (.text text))]) =
        [.node .paragraph [.node (reread tag) (joinedTexts texts)]] ∧
      (decoded destination = destination ↔ holdsReference destination.toList = false) ∧
      (decoded title = title ↔ holdsReference title.toList = false) := by
  refine ⟨?_, decoded_eq_self_iff destination, decoded_eq_self_iff title⟩
  have alone : write [.node tag (texts.map fun text => .leaf (.text text))] =
      String.ofList (markupOf true (.node tag (texts.map fun text => .leaf (.text text)))) := by
    have nonempty : markupOf true (.node tag (texts.map fun text => .leaf (.text text))) ≠ [] := by
      cases addressed <;> simp [markupOf]
    have inline : (Entity.node tag (texts.map fun text => .leaf (.text text))).isBlock = false := by
      cases addressed <;> rfl
    simp [write, blockMarkup, inline, atLineStart, Layout.finish, Layout.endParagraph, nonempty]
  rw [alone]
  cases addressed with
  | uri _ _ nonempty =>
    have shown := decoded_ne_empty nonempty
    rw [markupOf, inlineMarkup_nil]
    refine (read_link address name oneLine).trans ?_
    simp [linkEntity, shown, reread]
  | unresolved _ own nonempty =>
    have nowhere : decoded "" = "" := rfl
    have shown := decoded_ne_empty nonempty
    rw [markupOf, inlineMarkup_nil]
    refine (read_link address name oneLine).trans ?_
    simp [linkEntity, nowhere, shown, reread]
  | image =>
    rw [markupOf, inlineMarkup_nil]
    exact read_image address name oneLine

theorem link_read_back_query :
    read (write [.node (.link (.uri "a?b=<c>&d=\\") "\"e\"")
      (["f", " [g]"].map fun text => .leaf (.text text))]) =
        [.node .paragraph [.node (reread (.link (.uri "a?b=<c>&d=\\") "\"e\"")) (joinedTexts ["f", " [g]"])]] ∧
      (decoded "a?b=<c>&d=\\" = "a?b=<c>&d=\\" ↔ holdsReference "a?b=<c>&d=\\".toList = false) ∧
      (decoded "\"e\"" = "\"e\"" ↔ holdsReference "\"e\"".toList = false) := by
  exact link_read_back (.uri _ _ (by decide)) ["f", " [g]"] (by simp) (by simp) (by simp)

/-- An address that spells a character reference loses it when it is written and read back. -/
theorem address_reference_replaced :
    read "[x](<a\\&#38;b>)" = [.node .paragraph [.node (.link (.uri "a&#38;b") "") [.leaf (.text "x")]]] ∧
      read (write [.node (.link (.uri "a&#38;b") "") [.leaf (.text "x")]]) =
        [.node .paragraph [.node (.link (.uri "a&b") "") [.leaf (.text "x")]]] := by
  decide +kernel

end DocComment.Markup
