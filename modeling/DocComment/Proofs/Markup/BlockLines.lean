import DocComment.Markup.Write
import DocComment.Proofs.Markup.Nesting
import DocComment.Proofs.Text.Digits

namespace DocComment.Markup

/-- Whether all items of a list hold at most one block. -/
def isTight (items : List Block) : Bool :=
  items.all fun
    | .item children => children.length ≤ 1
    | _ => true

/-- Whether a list is ordered. -/
def ordered? : Block → Option Bool
  | .list ordered .. => some ordered
  | _ => none

def markOf (ordered : Bool) : Char := if ordered then '.' else '-'

/-- What lines spell: blocks, or items of a list from some number on. -/
inductive Series where
  | blocks
  | items (ordered : Bool) (number : Nat)

/-- Lines that spell blocks. Between blocks there are empty lines, and no list comes after a list of its
kind. -/
inductive BlockLines : Series → List Block → List (List Char) → Prop where
  | leaf {block : Block} {lines : List (List Char)} (leaf : LeafLines block lines) :
      BlockLines .blocks [block] lines
  /-- A quote may go on after its blocks, unless the last one is a list. -/
  | quote {children : List Block} {lines : List (List Char)} (inner : BlockLines .blocks children lines)
      (gap : Nat) (closes : 0 < gap → ∀ block ∈ children.getLast?, ordered? block = none) :
      BlockLines .blocks [.quote children]
        ((lines ++ List.replicate gap []).map Container.quote.lineIn)
  | list {ordered : Bool} {items : List Block} {lines : List (List Char)}
      (inner : BlockLines (.items ordered 1) items lines) :
      BlockLines .blocks [.list ordered (isTight items) items] lines
  | next {block : Block} {blocks : List Block} {lines more : List (List Char)}
      (first : BlockLines .blocks [block] lines) (gap : Nat)
      (apart : ∀ ordered, ordered? block = some ordered →
        blocks.head?.bind ordered? ≠ some ordered)
      (others : BlockLines .blocks blocks more) :
      BlockLines .blocks (block :: blocks) (lines ++ (List.replicate (gap + 1) [] ++ more))
  /-- An item whose first line does not make a rule of it. -/
  | item {ordered : Bool} {number : Nat} {children : List Block} {first : List Char}
      {others : List (List Char)} (short : (toString number).length ≤ 9)
      (noRule : ordered = false → isRule (itemMarker ordered number ++ ' ' :: first) = false)
      (inner : BlockLines .blocks children (first :: others)) :
      BlockLines (.items ordered number) [.item children]
        ((itemMarker ordered number ++ ' ' :: first) ::
          others.map (Container.item ((itemMarker ordered number).length + 1)).lineIn)
  | nextItem {ordered : Bool} {number : Nat} {item : Block} {items : List Block}
      {lines more : List (List Char)} (first : BlockLines (.items ordered number) [item] lines)
      (others : BlockLines (.items ordered (number + 1)) items more) :
      BlockLines (.items ordered number) (item :: items) (lines ++ more)

theorem itemMarker_isMarker {ordered : Bool} {number : Nat} (short : (toString number).length ≤ 9) :
    IsMarker (itemMarker ordered number) (markOf ordered) := by
  cases ordered with
  | false =>
    refine ⟨⟨'-', [], rfl, rfl, by decide⟩, fun rest => ⟨0, ?_⟩⟩
    simp [itemMarker, bulletMarker, markOf, ListMark.read?]
  | true =>
    have marker : itemMarker true number = Nat.toDigits 10 number ++ ['.'] := by
      rw [itemMarker, if_pos rfl, Text.toString_digits]
    have few : (Nat.toDigits 10 number).length ≤ 9 := by
      rwa [← Text.toString_digits, String.length_toList]
    have digits := fun c => Text.isDigit_of_mem_toDigits (n := number) (c := c)
    obtain ⟨c, others, written⟩ : ∃ c others, Nat.toDigits 10 number = c :: others := by
      rcases Text.toDigits_cases number with zero | ⟨c, others, written, _⟩
      · exact ⟨_, _, zero⟩
      · exact ⟨c, others, written⟩
    rw [marker, markOf, if_pos rfl]
    generalize Nat.toDigits 10 number = own at written few digits
    subst written
    have digit := digits c List.mem_cons_self
    have other : ∀ d, d.isDigit = false → c ≠ d := by
      rintro d letter rfl
      rw [digit] at letter
      cases letter
    refine ⟨⟨c, others ++ ['.'], rfl, ?_, other '>' (by decide)⟩, fun rest => ?_⟩
    · simp [isLineBlank, other]
    · have run : (c :: (others ++ '.' :: ' ' :: rest)).takeWhile Char.isDigit = c :: others := by
        rw [← List.cons_append, List.takeWhile_append_of_pos digits]
        simp
      have left : (c :: (others ++ '.' :: ' ' :: rest)).drop (others.length + 1) = '.' :: ' ' :: rest := by
        simp
      refine ⟨Text.decimalValue (c :: others), ?_⟩
      rw [List.append_assoc, List.cons_append, List.singleton_append]
      have short : others.length + 1 ≤ 9 := by simpa using few
      simp [ListMark.read?, run, left, other '-' (by decide), other '+' (by decide),
        other '*' (by decide), short]

/-- An item begins at its marker, and its content one blank later. -/
theorem IsMarker.itemStart? {marker : List Char} {mark c : Char} (marks : IsMarker marker mark)
    (text : List Char) (column : Nat) (inked : isLineBlank c = false)
    (noRule : (mark == '.' || mark == ')') = false → isRule (marker ++ ' ' :: c :: text) = false) :
    ∃ number after, itemStart? 0 { column, rest := marker ++ ' ' :: c :: text } =
      some (⟨mark, number, marker.length⟩, marker.length + 1, { column := after, rest := c :: text }) := by
  obtain ⟨number, read⟩ := marks.read (c :: text)
  have content : (marker ++ ' ' :: c :: text).drop marker.length = ' ' :: c :: text := List.drop_left
  have blank : Cursor.skipExactly 1 { column := column + marker.length, rest := ' ' :: c :: text } =
      some { column := column + marker.length + 1, rest := c :: text } := by
    have skipped := skipBlanks_replicate (column + marker.length) 1 (c :: text)
    rw [List.replicate_one, List.singleton_append] at skipped
    simp [Cursor.skipExactly, skipped]
  have inner : isBlankLine (c :: text) = false := by simp [isBlankLine, inked]
  have start := skipUpTo_inked (column + marker.length + 1) text inked
  have noMark : (!ListMark.ordered ⟨mark, number, marker.length⟩ &&
      isRule (marker ++ ' ' :: c :: text)) = false := by
    cases kind : ListMark.ordered ⟨mark, number, marker.length⟩ with
    | true => rfl
    | false => exact noRule kind
  refine ⟨number, column + marker.length + 1, ?_⟩
  unfold Markup.itemStart?
  simp only [read, noMark, content, blank, inner, start]
  simp

/-- The first line starts with something to read. -/
def Starts (lines : List (List Char)) : Prop :=
  ∃ c text others, lines = (c :: text) :: others ∧ isLineBlank c = false

namespace BlockLines

variable {kind : Series} {blocks : List Block} {lines : List (List Char)}

theorem starts (spelled : BlockLines kind blocks lines) : Starts lines := by
  induction spelled with
  | @leaf block lines leaf =>
    cases lines with
    | nil => cases leaf
    | cons first others =>
      obtain ⟨c, text, same, inked, _⟩ := leaf.opens 0
      exact ⟨c, text, others, by rw [same], inked⟩
  | quote inner gap closes ih =>
    obtain ⟨c, text, others, rfl, _⟩ := ih
    exact ⟨'>', _, _, rfl, rfl⟩
  | list inner ih => exact ih
  | next first gap apart others ih _ =>
    obtain ⟨c, text, others, rfl, inked⟩ := ih
    exact ⟨c, text, _, rfl, inked⟩
  | @item ordered number _ first others short noRule inner ih =>
    obtain ⟨c, text, same, inked, _⟩ := (@itemMarker_isMarker ordered _ short).first
    exact ⟨c, text ++ ' ' :: first, _, by rw [same]; rfl, inked⟩
  | nextItem first others ih _ =>
    obtain ⟨c, text, others, rfl, inked⟩ := ih
    exact ⟨c, text, _, rfl, inked⟩

theorem ne_nil (spelled : BlockLines kind blocks lines) : blocks ≠ [] := by
  cases spelled <;> exact List.cons_ne_nil _ _

/-- Items start with a marker. -/
theorem marked {ordered : Bool} {number : Nat} (spelled : BlockLines (.items ordered number) blocks lines) :
    ∃ marker text others, IsMarker marker (markOf ordered) ∧ lines = (marker ++ ' ' :: text) :: others := by
  generalize items : Series.items ordered number = kind at spelled
  induction spelled generalizing number with
  | leaf | quote | list | next => cases items
  | item short noRule inner =>
    obtain ⟨rfl, rfl⟩ := Series.items.inj items
    exact ⟨_, _, _, itemMarker_isMarker short, rfl⟩
  | nextItem first others ih _ =>
    obtain ⟨marker, text, others, marks, rfl⟩ := ih items
    exact ⟨marker, text, _, marks, rfl⟩

end BlockLines

end DocComment.Markup
