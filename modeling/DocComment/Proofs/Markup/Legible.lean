import DocComment.Proofs.Markup.Building
import DocComment.Proofs.Markup.CodeSpans
import DocComment.Proofs.Markup.Escaping
import DocComment.Proofs.Markup.LinkTails

/-! Inline content that is written so that it can be told apart from what is next to it. Markup is
written node by node; whether a run of marks, a code span or a break is read as what it was depends
on the characters around it. -/
namespace DocComment.Markup

/-- Whether text starts a line after something was written. -/
def startsAfter (lineStart : Bool) (written : List Char) : Bool :=
  if written.isEmpty then lineStart else written.getLast? == some '\n'

/-- Inline content as it is written, at the start of a line or inside one. -/
def spell (lineStart : Bool) : List Entity → List Char
  | [] => []
  | entity :: rest =>
    markupOf lineStart entity ++ spell (startsAfter lineStart (markupOf lineStart entity)) rest

theorem startsAfter_of_getLast? {written : List Char} {c : Char} (lineStart : Bool)
    (last : written.getLast? = some c) : startsAfter lineStart written = (c == '\n') := by
  obtain ⟨start, rfl⟩ := List.getLast?_eq_some_iff.mp last
  simp [startsAfter]

theorem atLineStart_append (written more : List Char) :
    atLineStart (written ++ more) = startsAfter (atLineStart written) more := by
  cases more with
  | nil => simp [startsAfter]
  | cons c others => simp [atLineStart, startsAfter, List.getLast?_append, List.getLast?_cons]

theorem inlineMarkup_eq_spell (written : List Char) (entities : List Entity) :
    inlineMarkup written entities = written ++ spell (atLineStart written) entities := by
  induction entities generalizing written with
  | nil => simp [inlineMarkup, spell]
  | cons entity rest ih => rw [inlineMarkup, ih, atLineStart_append, spell, List.append_assoc]

theorem inlineMarkup_nil (entities : List Entity) : inlineMarkup [] entities = spell true entities :=
  inlineMarkup_eq_spell [] entities

/-- Content in emphasis that is written with this many marks on both sides: strong emphasis has two,
and plain emphasis, with one, can only be outermost. -/
def marked : Nat → List Entity → List Entity
  | 0, content => content
  | 1, content => [.node .emphasis content]
  | count + 2, content => marked count [.node .strong content]

theorem marked_single {count : Nat} (positive : 0 < count) (content : List Entity) :
    ∃ tag children, marked count content = [.node tag children] ∧
      ∀ lineStart, markupOf lineStart (.node tag children) =
        List.replicate count '*' ++ spell true content ++ List.replicate count '*' := by
  induction count using Nat.twoStepInduction generalizing content with
  | zero => contradiction
  | one =>
    refine ⟨_, _, rfl, fun lineStart => ?_⟩
    simp [markupOf, inlineMarkup_nil]
  | more count ih _ =>
    rcases Nat.eq_zero_or_pos count with rfl | positive
    · refine ⟨_, _, rfl, fun lineStart => ?_⟩
      simp [markupOf, inlineMarkup_nil]
    · obtain ⟨tag, children, single, written⟩ := ih positive [.node .strong content]
      refine ⟨tag, children, single, fun lineStart => ?_⟩
      have inner : spell true [.node .strong content] = '*' :: '*' :: (spell true content ++ ['*', '*']) := by
        simp [spell, markupOf, inlineMarkup_nil]
      have opening : List.replicate (count + 2) '*' = List.replicate count '*' ++ ['*', '*'] := by
        rw [List.replicate_add]
        rfl
      have closing : List.replicate (count + 2) '*' = '*' :: '*' :: List.replicate count '*' := rfl
      calc markupOf lineStart (.node tag children)
          = (List.replicate count '*' ++ ['*', '*']) ++ spell true content ++
              ('*' :: '*' :: List.replicate count '*') := by rw [written, inner]; simp
        _ = _ := by rw [← opening, ← closing]

theorem getLast?_stars {count : Nat} (positive : 0 < count) (written : List Char) :
    (written ++ List.replicate count '*').getLast? = some '*' := by
  obtain ⟨more, rfl⟩ := Nat.exists_eq_add_one.mpr positive
  rw [List.getLast?_append, List.replicate_succ', List.getLast?_concat]
  rfl

theorem spell_marked {count : Nat} (positive : 0 < count) (lineStart : Bool) (content rest : List Entity) :
    spell lineStart (marked count content ++ rest) =
      List.replicate count '*' ++ spell true content ++ List.replicate count '*' ++ spell false rest := by
  obtain ⟨tag, children, single, written⟩ := marked_single positive content
  rw [single, List.cons_append, List.nil_append, spell, written,
    startsAfter_of_getLast? _ (getLast?_stars positive _)]
  rfl

/-- What surrounds content where it is written. -/
structure Place where
  /-- The runs of marks that are open around it, innermost first. -/
  outer : List Delimiters := []
  /-- It is part of the text of a link. -/
  linked : Bool := false
  /-- It stays on one line, with blanks in place of line ends. -/
  oneLine : Bool := false
  /-- The character just before it. -/
  before : Option Char := none
  /-- Blanks at its start are written as at the start of a line. -/
  lineStart : Bool := true
  /-- The character just after it. -/
  after : Option Char := none

namespace Place

/-- The place after what was written here. -/
def past (place : Place) (written : List Char) : Place :=
  { place with
    before := written.getLast?.or place.before
    lineStart := startsAfter place.lineStart written }

theorem past_last (place : Place) {written : List Char} {c : Char} (last : written.getLast? = some c) :
    place.past written = place.past [c] := by
  rw [past, past, last, startsAfter_of_getLast? place.lineStart last]
  rfl

/-- The character after what was written here, before the rest of the content. -/
def next (place : Place) (rest : List Entity) : Option Char :=
  (spell place.lineStart rest).head?.or place.after

/-- The marks before content that is emphasised here. -/
def opener (place : Place) (count : Nat) (content : List Entity) : Delimiters :=
  .ofRun '*' count place.before (spell true content).head?

/-- The marks after content that is emphasised here. -/
def closer (place : Place) (count : Nat) (content rest : List Entity) : Delimiters :=
  .ofRun '*' count (spell true content).getLast? ((place.past ['*']).next rest)

/-- The place between the marks of emphasis. -/
def emphasised (place : Place) (count : Nat) (content : List Entity) : Place :=
  { place with
    outer := place.opener count content :: place.outer
    before := some '*'
    lineStart := true
    after := some '*' }

/-- The place between the brackets of a link or an image. -/
def bracketed (place : Place) (link : Bool) : Place :=
  { place with
    outer := []
    linked := place.linked || link
    before := some '['
    lineStart := true
    after := some ']' }

end Place

theorem spell_text (place : Place) (written : String) (later : List Entity) :
    spell place.lineStart (.leaf (.text written) :: later) =
      escapeFrom place.lineStart written.toList ++
        spell (place.past (escapeFrom place.lineStart written.toList)).lineStart later := rfl

/-- What is written for a link or an image, its exclamation mark apart. -/
def bracketMarkup (content : List Entity) (tail : List Char) : List Char :=
  '[' :: spell true content ++ ']' :: tail

theorem bracketMarkup_getLast? (content : List Entity) {tail : List Char}
    (last : tail.getLast? = some ')') : (bracketMarkup content tail).getLast? = some ')' := by
  rw [bracketMarkup, List.getLast?_append, List.getLast?_cons, last]
  rfl

theorem imageMarkup_getLast? (content : List Entity) {tail : List Char}
    (last : tail.getLast? = some ')') : ('!' :: bracketMarkup content tail).getLast? = some ')' := by
  rw [List.getLast?_cons, bracketMarkup_getLast? content last]
  rfl

theorem targetMarkup_getLast? (target : LinkTarget) (title : String) :
    (targetMarkup target title).getLast? = some ')' := by
  cases target <;> exact tailMarkup_getLast? _ _

theorem spell_link (lineStart : Bool) (target : LinkTarget) (title : String)
    (content later : List Entity) :
    spell lineStart (.node (.link target title) content :: later) =
      bracketMarkup content (targetMarkup target title) ++ spell false later := by
  have last := bracketMarkup_getLast? content (targetMarkup_getLast? target title)
  rw [spell, markupOf, inlineMarkup_nil]
  exact congrArg (bracketMarkup content (targetMarkup target title) ++ spell · later)
    (startsAfter_of_getLast? lineStart last)

theorem spell_image (lineStart : Bool) (source title : String) (content later : List Entity) :
    spell lineStart (.node (.image source title) content :: later) =
      '!' :: bracketMarkup content (tailMarkup (escapeDestination source) (escapeTitle title)) ++
        spell false later := by
  have last := imageMarkup_getLast? content
    (tailMarkup_getLast? (escapeDestination source) (escapeTitle title))
  rw [spell, markupOf, inlineMarkup_nil]
  exact congrArg ('!' :: bracketMarkup content
    (tailMarkup (escapeDestination source) (escapeTitle title)) ++ spell · later)
    (startsAfter_of_getLast? lineStart last)

/-- A target as the destination and the title that are written for it. A link to nowhere without a
title would take its target from its text. -/
inductive WrittenAs : LinkTarget → String → String → String → Prop where
  | uri (address title : String) (nonempty : address ≠ "") : WrittenAs (.uri address) title address title
  | unresolved (raw : String) (nonempty : raw ≠ "") : WrittenAs (.unresolved raw) "" "" raw

namespace WrittenAs

variable {target : LinkTarget} {title destination shown : String}

theorem markup (written : WrittenAs target title destination shown) :
    targetMarkup target title = tailMarkup (escapeDestination destination) (escapeTitle shown) := by
  cases written <;> rfl

/-- The link for what was written is the link it was written from. -/
theorem entity (written : WrittenAs target title destination shown) (children : List Entity) :
    linkEntity destination shown children = .node (.link target title) children := by
  cases written with
  | uri _ _ nonempty => simp [linkEntity, nonempty]
  | unresolved _ nonempty => simp [linkEntity, nonempty]

end WrittenAs

def startsWithText : List Entity → Bool
  | .leaf (.text _) :: _ => true
  | _ => false

theorem startsWithText_marked {count : Nat} (positive : 0 < count) (content rest : List Entity) :
    startsWithText (marked count content ++ rest) = false := by
  obtain ⟨tag, children, single, _⟩ := marked_single positive content
  rw [single]
  rfl

/-- Content that is read in its place as what it was written from. -/
inductive Legible : Place → List Entity → Prop where
  | nil (place : Place) : Legible place []
  /-- Text on lines that neither begin nor end with a line end, or end with a blank. -/
  | text {place : Place} {written : String} {rest : List Entity}
      (known : ∀ c ∈ written.toList, c ≠ '\r' ∧ c ≠ '\x0b' ∧ c ≠ '\x0c')
      (begins : place.lineStart = true → written.toList.head? ≠ some '\n')
      (settled : goesOn ((place.past (escapeFrom place.lineStart written.toList)).next rest)
        written.toList = true)
      (ends : written.toList.getLast? = some '\n' → spell true rest ≠ [])
      (alone : startsWithText rest = false)
      (more : Legible (place.past (escapeFrom place.lineStart written.toList)) rest) :
      Legible place (.leaf (.text written) :: rest)
  /-- A break inside a line that something follows. -/
  | softBreak {place : Place} {rest : List Entity} (inside : place.lineStart = false)
      (ends : (spell true rest).head?.any (· != '\n') = true)
      (more : Legible (place.past ['\n']) rest) : Legible place (.leaf .softBreak :: rest)
  | hardBreak {place : Place} {rest : List Entity} (lines : place.oneLine = false)
      (ends : (spell true rest).head?.any (· != '\n') = true)
      (more : Legible (place.past ['\\', '\n']) rest) : Legible place (.leaf .hardBreak :: rest)
  /-- Code that no other code follows. -/
  | code {place : Place} {written : String} {rest : List Entity} (plain : PlainCode written)
      (apart : (place.past (codeSpanMarkup written)).next rest ≠ some '`')
      (more : Legible (place.past (codeSpanMarkup written)) rest) :
      Legible place (.leaf (.code written) :: rest)
  /-- Emphasis whose marks touch no other marks, open and close where they stand, and close no run
  that is open around them. -/
  | emphasis {place : Place} (count : Nat) {content rest : List Entity} (positive : 0 < count)
      (opens : (place.opener count content).canOpen = true)
      (closes : (place.closer count content rest).canClose = true)
      (alone : (place.opener count content).canClose = true →
        ∀ run ∈ place.outer, run.matches (place.opener count content) = false)
      (within : (spell true content).head? ≠ some '*')
      (apart : (place.past ['*']).next rest ≠ some '*')
      (inner : Legible (place.emphasised count content) content)
      (more : Legible (place.past ['*']) rest) : Legible place (marked count content ++ rest)
  /-- A link outside of other links. -/
  | link {place : Place} {target : LinkTarget} {title destination shown : String}
      {content rest : List Entity} (outside : place.linked = false)
      (written : WrittenAs target title destination shown)
      (address : Kept (escapeDestination destination) destination)
      (name : Kept (escapeTitle shown) shown)
      (inner : Legible (place.bracketed true) content)
      (more : Legible (place.past [')']) rest) :
      Legible place (.node (.link target title) content :: rest)
  | image {place : Place} {source title : String} {content rest : List Entity}
      (address : Kept (escapeDestination source) source) (name : Kept (escapeTitle title) title)
      (inner : Legible (place.bracketed false) content)
      (more : Legible (place.past [')']) rest) :
      Legible place (.node (.image source title) content :: rest)

/-- What markup begins with, text apart. -/
def markStarts : List Char := ['\n', '\\', '`', '*', '[', '!']

theorem special_of_markStarts : ∀ c ∈ markStarts, isPlain c = false ∧ isLineBlank c = false :=
  List.all_iff_forall_prop.mp (by decide)

theorem Legible.head_mem {place : Place} {entities : List Entity} (legible : Legible place entities)
    (alone : startsWithText entities = false) (c : Char)
    (first : (spell place.lineStart entities).head? = some c) : c ∈ markStarts := by
  cases legible with
  | nil => simp [spell] at first
  | text => simp [startsWithText] at alone
  | softBreak =>
    have same : c = '\n' := by simpa [spell, markupOf, leafMarkup, eq_comm] using first
    exact same ▸ by decide
  | hardBreak =>
    have same : c = '\\' := by simpa [spell, markupOf, leafMarkup, eq_comm] using first
    exact same ▸ by decide
  | code plain =>
    have same : c = '`' := by simpa [spell, markupOf, leafMarkup, plain.head?, eq_comm] using first
    exact same ▸ by decide
  | emphasis count positive =>
    obtain ⟨more, rfl⟩ := Nat.exists_eq_add_one.mpr positive
    rw [spell_marked positive, List.replicate_succ] at first
    have same : c = '*' := by simpa [eq_comm] using first
    exact same ▸ by decide
  | link =>
    have same : c = '[' := by simpa [spell, markupOf, eq_comm] using first
    exact same ▸ by decide
  | image =>
    have same : c = '!' := by simpa [spell, markupOf, eq_comm] using first
    exact same ▸ by decide

/-- Content at the start of a line does not begin with a blank. -/
theorem Legible.head_inked {place : Place} {entities : List Entity} (legible : Legible place entities)
    (start : place.lineStart = true) (c : Char)
    (first : (spell place.lineStart entities).head? = some c) : isLineBlank c = false := by
  cases alone : startsWithText entities with
  | false =>
    exact (special_of_markStarts c (legible.head_mem alone c first)).2
  | true =>
    cases legible with
    | nil | softBreak | hardBreak | code | link | image => simp [startsWithText] at alone
    | emphasis count positive => simp [startsWithText_marked positive] at alone
    | @text _ written rest known begins settled ends apart more =>
      rw [spell, markupOf, leafMarkup] at first
      cases chars : written.toList with
      | nil =>
        rw [chars] at more first
        exact (special_of_markStarts c (more.head_mem apart c first)).2
      | cons d others =>
        rw [chars, List.head?_append, escapeFrom_head?, start, Option.some_or, Option.some.injEq] at first
        subst first
        split
        case isTrue => rfl
        split
        case isTrue => rfl
        case isFalse unreferenced letter =>
          have kind := known d (by rw [chars]; exact List.mem_cons_self)
          simp only [Bool.true_and, Bool.or_eq_true, beq_iff_eq, not_or] at unreferenced
          simp [isLineBlank, unreferenced, kind]

end DocComment.Markup
