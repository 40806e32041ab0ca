import DocComment.Comment.Sentence
import DocComment.Markup.Read
import DocComment.Proofs.Entity.Tree
import DocComment.Proofs.Text.Trim

/-! The first sentence of inline content. It ends at the first place that qualifies, and only whitespace
is lost between it and the rest. It ends inside a word where a text that ends with a terminator is
followed by other content. -/
namespace DocComment.Comment

open Entity (plainText plainTextAll plainTextAll_append)

/-- A sentence ends between two parts of a text: after a terminator that whitespace or the end of the
text follows. -/
structure EndsBetween (sentence after : List Char) : Prop where
  terminated : ∃ c ∈ ['.', '!', '?'], sentence.getLast? = some c
  blank : ∀ c, after.head? = some c → Unicode.isWhite c = true

/-- A sentence ends in a text that is not nested, which these children come before. -/
def EndsIn (children before : List Entity) (sentence : List Char) : Prop :=
  ∃ after rest, children = before ++ .text (String.ofList (sentence ++ after)) :: rest ∧
    EndsBetween sentence after

theorem isTerminator_iff {c : Char} : isTerminator c = true ↔ c ∈ ['.', '!', '?'] := by
  simp [isTerminator, or_assoc]

theorem EndsBetween.ne_nil (ends : EndsBetween sentence after) : sentence ≠ [] := by
  rintro rfl
  obtain ⟨_, _, last⟩ := ends.terminated
  cases last

theorem endsBetween_singleton {c : Char} :
    EndsBetween [c] after ↔ (isTerminator c && after.head?.all Unicode.isWhite) = true := by
  rw [Bool.and_eq_true, isTerminator_iff, Option.all_eq_true]
  constructor
  · rintro ⟨⟨d, listed, last⟩, blank⟩
    obtain rfl := Option.some.inj last
    exact ⟨listed, blank⟩
  · rintro ⟨listed, blank⟩
    exact ⟨⟨c, listed, rfl⟩, blank⟩

theorem endsBetween_cons {c : Char} (nonempty : sentence ≠ []) :
    EndsBetween (c :: sentence) after ↔ EndsBetween sentence after := by
  have last : (c :: sentence).getLast? = sentence.getLast? := by
    obtain ⟨d, rest, rfl⟩ := List.exists_cons_of_ne_nil nonempty
    exact List.getLast?_cons_cons
  exact ⟨fun ⟨terminated, blank⟩ => ⟨last ▸ terminated, blank⟩,
    fun ⟨terminated, blank⟩ => ⟨last ▸ terminated, blank⟩⟩

theorem cutSentence?_eq_none {text : List Char} (none : cutSentence? text = none)
    (split : text = sentence ++ after) : ¬ EndsBetween sentence after := by
  induction text generalizing sentence with
  | nil =>
    intro ends
    exact ends.ne_nil (List.append_eq_nil_iff.mp split.symm).1
  | cons c rest ih =>
    rw [cutSentence?] at none
    split at none
    · cases none
    · rename_i own
      intro ends
      obtain ⟨d, more, rfl⟩ := List.exists_cons_of_ne_nil ends.ne_nil
      obtain ⟨rfl, later⟩ := List.cons.inj split
      cases more with
      | nil => exact own (later ▸ endsBetween_singleton.mp ends)
      | cons e others =>
        exact ih (Option.map_eq_none_iff.mp none) later
          ((endsBetween_cons (List.cons_ne_nil e others)).mp ends)

/-- A text is cut at the first place where a sentence ends. -/
theorem cutSentence?_eq_some {text : List Char} (cut : cutSentence? text = some (sentence, after)) :
    text = sentence ++ after ∧ EndsBetween sentence after ∧
      ∀ shorter longer, text = shorter ++ longer → EndsBetween shorter longer →
        sentence.length ≤ shorter.length := by
  induction text generalizing sentence with
  | nil => cases cut
  | cons c rest ih =>
    rw [cutSentence?] at cut
    split at cut
    · rename_i own
      obtain ⟨rfl, rfl⟩ := Prod.mk.inj (Option.some.inj cut)
      refine ⟨rfl, endsBetween_singleton.mpr own, fun shorter longer _ ends => ?_⟩
      exact List.length_pos_iff.mpr ends.ne_nil
    · rename_i own
      obtain ⟨⟨inner, _⟩, later, same⟩ := Option.map_eq_some_iff.mp cut
      obtain ⟨rfl, rfl⟩ := Prod.mk.inj same
      obtain ⟨parts, ends, first⟩ := ih later
      refine ⟨congrArg (c :: ·) parts, (endsBetween_cons ends.ne_nil).mpr ends, ?_⟩
      intro shorter longer split other
      obtain ⟨d, more, rfl⟩ := List.exists_cons_of_ne_nil other.ne_nil
      obtain ⟨rfl, after⟩ := List.cons.inj split
      cases more with
      | nil => exact absurd (after ▸ endsBetween_singleton.mp other) own
      | cons e others =>
        have deeper := (endsBetween_cons (List.cons_ne_nil e others)).mp other
        exact Nat.succ_le_succ (first _ longer after deeper)

theorem endsIn_cons {entity : Entity} {rest before : List Entity} {sentence : List Char} :
    EndsIn (entity :: rest) before sentence ↔
      (before = [] ∧ ∃ after, entity = .text (String.ofList (sentence ++ after)) ∧
        EndsBetween sentence after) ∨
      ∃ more, before = entity :: more ∧ EndsIn rest more sentence := by
  constructor
  · rintro ⟨after, later, split, ends⟩
    cases before with
    | nil =>
      obtain ⟨rfl, rfl⟩ := List.cons.inj split
      exact .inl ⟨rfl, after, rfl, ends⟩
    | cons first more =>
      obtain ⟨rfl, inner⟩ := List.cons.inj split
      exact .inr ⟨more, rfl, after, later, inner, ends⟩
  · rintro (⟨rfl, after, rfl, ends⟩ | ⟨more, rfl, after, later, rfl, ends⟩)
    · exact ⟨after, rest, rfl, ends⟩
    · exact ⟨after, later, rfl, ends⟩

/-- What comes after the first sentence. -/
def remainder (after : List Char) (rest : List Entity) : List Entity :=
  if (Text.trimStart after).isEmpty then rest.dropWhile isBreak
  else .text (String.ofList (Text.trimStart after)) :: rest

/-- Inline content is split at the first place where a sentence ends, and if there is none not at all. -/
theorem splitFirstSentence_cases (children : List Entity) :
    (splitFirstSentence children = (children, []) ∧
      ∀ before sentence, ¬ EndsIn children before sentence) ∨
    ∃ before sentence after rest,
      children = before ++ .text (String.ofList (sentence ++ after)) :: rest ∧
      EndsBetween sentence after ∧
      splitFirstSentence children =
        (before ++ [.text (String.ofList sentence)], remainder after rest) ∧
      ∀ earlier shorter, EndsIn children earlier shorter →
        before.length < earlier.length ∨ earlier = before ∧ sentence.length ≤ shorter.length := by
  induction children with
  | nil =>
    refine .inl ⟨rfl, fun before sentence => ?_⟩
    rintro ⟨after, rest, split, _⟩
    simp at split
  | cons entity rest ih =>
    unfold splitFirstSentence
    dsimp only
    split
    · rename_i sentence after cut
      split at cut
      · rename_i written
        obtain ⟨parts, ends, first⟩ := cutSentence?_eq_some cut
        have whole : written = String.ofList (sentence ++ after) := by
          rw [← parts, String.ofList_toList]
        refine .inr ⟨[], sentence, after, rest, by rw [whole]; rfl, ends, rfl, ?_⟩
        intro earlier shorter other
        rcases endsIn_cons.mp other with ⟨rfl, longer, same, ends⟩ | ⟨more, rfl, _⟩
        · refine .inr ⟨rfl, first shorter longer ?_ ends⟩
          cases same
          exact String.toList_ofList
        · exact .inl (Nat.succ_pos _)
      · cases cut
    · rename_i cut
      have own : ∀ sentence after, entity = .text (String.ofList (sentence ++ after)) →
          ¬ EndsBetween sentence after := by
        rintro sentence after rfl
        exact cutSentence?_eq_none cut String.toList_ofList
      rcases ih with ⟨whole, never⟩ | ⟨before, sentence, after, later, parts, ends, halves, first⟩
      · refine .inl ⟨by rw [whole], fun earlier sentence other => ?_⟩
        rcases endsIn_cons.mp other with ⟨_, after, same, ends⟩ | ⟨more, _, deeper⟩
        · exact own sentence after same ends
        · exact never more sentence deeper
      · refine .inr ⟨entity :: before, sentence, after, later, by rw [parts]; rfl, ends,
          by rw [halves]; rfl, fun earlier shorter other => ?_⟩
        rcases endsIn_cons.mp other with ⟨_, longer, same, ends⟩ | ⟨more, rfl, deeper⟩
        · exact absurd ends (own shorter longer same)
        · rcases first more shorter deeper with further | ⟨rfl, shortest⟩
          · exact .inl (Nat.succ_lt_succ further)
          · exact .inr ⟨rfl, shortest⟩

/-- Neither text nor a break. -/
def isSolid : Entity → Bool
  | .leaf (.text _) => false
  | entity => !isBreak entity

theorem dropWhile_isBreak (rest : List Entity) :
    (∃ gap : String, (∀ c ∈ gap.toList, Unicode.isWhite c = true) ∧
      plainTextAll rest = gap ++ plainTextAll (rest.dropWhile isBreak)) ∧
    (rest.dropWhile isBreak).filter isSolid = rest.filter isSolid := by
  induction rest with
  | nil => exact ⟨⟨"", by simp, String.empty_append.symm⟩, rfl⟩
  | cons entity rest ih =>
    by_cases own : isBreak entity = true
    · obtain ⟨⟨gap, blank, same⟩, solid⟩ := ih
      have blankOne : plainText entity = " " := by
        cases entity with
        | leaf content =>
          cases content with
          | softBreak | hardBreak => rfl
          | _ => cases own
        | node => cases own
      have notSolid : isSolid entity = false := by
        unfold isSolid
        split <;> simp [own]
      rw [List.dropWhile_cons_of_pos own, List.filter_cons_of_neg (by simp [notSolid]), solid]
      refine ⟨⟨" " ++ gap, ?_, ?_⟩, rfl⟩
      · intro c member
        rw [String.toList_append, List.mem_append] at member
        rcases member with one | more
        · rw [List.mem_singleton.mp one]
          rfl
        · exact blank c more
      · rw [plainTextAll, blankOne, same, String.append_assoc]
    · rw [List.dropWhile_cons_of_neg own]
      exact ⟨⟨"", by simp, String.empty_append.symm⟩, rfl⟩

/-- Whitespace is all that is lost between the first sentence and what comes after it. -/
theorem remainder_loses (after : List Char) (rest : List Entity) :
    (∃ gap : String, (∀ c ∈ gap.toList, Unicode.isWhite c = true) ∧
      String.ofList after ++ plainTextAll rest = gap ++ plainTextAll (remainder after rest)) ∧
    (remainder after rest).filter isSolid = rest.filter isSolid := by
  obtain ⟨blanks, split, white⟩ := Text.trimStart_split after
  unfold remainder
  split
  · rename_i empty
    obtain ⟨⟨gap, blank, same⟩, solid⟩ := dropWhile_isBreak rest
    rw [List.isEmpty_iff.mp empty, List.append_nil] at split
    refine ⟨⟨String.ofList after ++ gap, ?_, by rw [same, String.append_assoc]⟩, solid⟩
    intro c member
    rw [String.toList_append, String.toList_ofList, List.mem_append, split] at member
    exact member.elim (white c) (blank c)
  · refine ⟨⟨String.ofList blanks, by rwa [String.toList_ofList], ?_⟩, rfl⟩
    have joined := congrArg String.ofList split
    rw [String.ofList_append] at joined
    rw [plainTextAll, ← String.append_assoc]
    exact congrArg (· ++ plainTextAll rest) joined

/-- A first sentence and what comes after it are the content but for whitespace between the two. All that
is neither text nor a break is in one of them, in order. There is something after the sentence only if it
ends with a terminator, and no sentence ends at an earlier place. -/
theorem split_loses_blanks (children : List Entity) :
    let brief := (splitFirstSentence children).1
    let details := (splitFirstSentence children).2
    (∃ gap : String, (∀ c ∈ gap.toList, Unicode.isWhite c = true) ∧
      plainTextAll children = plainTextAll brief ++ gap ++ plainTextAll details) ∧
    (brief ++ details).filter isSolid = children.filter isSolid ∧
    (details ≠ [] → ∃ before sentence, brief = before ++ [.text sentence] ∧
      ∃ c ∈ ['.', '!', '?'], sentence.toList.getLast? = some c) ∧
    ∀ before sentence, EndsIn children before sentence → brief.length ≤ before.length ∨
      ∃ written, brief = before ++ [.text written] ∧ written.toList.length ≤ sentence.length := by
  dsimp only
  rcases splitFirstSentence_cases children with
    ⟨whole, never⟩ | ⟨before, sentence, after, rest, parts, ends, halves, first⟩
  · rw [whole]
    refine ⟨⟨"", by simp, ?_⟩, by rw [List.append_nil], fun more => absurd rfl more,
      fun before sentence other => absurd other (never before sentence)⟩
    rw [plainTextAll, String.append_empty, String.append_empty]
  · obtain ⟨⟨gap, blank, same⟩, solid⟩ := remainder_loses after rest
    rw [halves]
    refine ⟨⟨gap, blank, ?_⟩, ?_, fun _ => ?_, fun earlier shorter other => ?_⟩
    · calc plainTextAll children
          = plainTextAll before ++ (String.ofList sentence ++
              (String.ofList after ++ plainTextAll rest)) := by
            rw [parts, plainTextAll_append, plainTextAll, plainText, String.ofList_append,
              String.append_assoc]
        _ = plainTextAll before ++ (String.ofList sentence ++
              (gap ++ plainTextAll (remainder after rest))) := by rw [same]
        _ = plainTextAll (before ++ [.text (String.ofList sentence)]) ++ gap ++
              plainTextAll (remainder after rest) := by
            rw [plainTextAll_append, plainTextAll, plainTextAll, plainText, String.append_empty]
            simp only [String.append_assoc]
    · rw [List.filter_append, List.filter_append, solid, parts, List.filter_append,
        List.filter_cons_of_neg (by simp [isSolid]), List.filter_cons_of_neg (by simp [isSolid]),
        List.filter_nil, List.append_nil]
    · exact ⟨before, _, rfl, by rw [String.toList_ofList]; exact ends.terminated⟩
    · rcases first earlier shorter other with further | ⟨rfl, shortest⟩
      · exact .inl (by simpa using Nat.succ_le_of_lt further)
      · exact .inr ⟨_, rfl, by rwa [String.toList_ofList]⟩

/-- A text that starts with whitespace. -/
def StartsBlank (text : String) : Prop :=
  ∃ c, text.toList.head? = some c ∧ Unicode.isWhite c = true

/-- Whitespace follows the first sentence if something comes after it, except where the sentence takes up
a text to its end and what comes next does not start with whitespace. -/
theorem blank_follows_iff {children : List Entity} (more : (splitFirstSentence children).2 ≠ []) :
    ∃ following, plainTextAll children =
        plainTextAll (splitFirstSentence children).1 ++ following ∧
      (StartsBlank following ↔ ∀ before written rest, children = before ++ .text written :: rest →
        (splitFirstSentence children).1 = before ++ [.text written] →
          StartsBlank (plainTextAll rest)) := by
  rcases splitFirstSentence_cases children with
    ⟨whole, _⟩ | ⟨before, sentence, after, rest, parts, ends, halves, _⟩
  · rw [whole] at more
    exact absurd rfl more
  · refine ⟨String.ofList after ++ plainTextAll rest, ?_, ?_⟩
    · rw [halves, parts, plainTextAll_append, plainTextAll_append, plainTextAll, plainTextAll,
        plainTextAll, plainText, plainText, String.ofList_append, String.append_empty]
      simp only [String.append_assoc]
    · have here (other : List Entity) (written : String) (later : List Entity)
          (split : children = other ++ .text written :: later)
          (brief : (splitFirstSentence children).1 = other ++ [.text written]) :
          after = [] ∧ later = rest := by
        rw [halves] at brief
        obtain ⟨rfl, same⟩ := List.append_inj' brief rfl
        cases same
        rw [parts] at split
        obtain ⟨same, rfl⟩ := List.cons.inj (List.append_cancel_left split)
        have texts := congrArg String.toList (Leaf.text.inj (Entity.leaf.inj same))
        rw [String.toList_ofList, String.toList_ofList] at texts
        exact ⟨List.append_right_eq_self.mp texts, rfl⟩
      cases after with
      | nil =>
        rw [List.append_nil] at parts
        have nothing : String.ofList [] ++ plainTextAll rest = plainTextAll rest :=
          String.empty_append
        rw [nothing]
        constructor
        · intro blank other written later split brief
          rwa [(here other written later split brief).2]
        · intro all
          exact all before _ rest parts (by rw [halves])
      | cons c others =>
        refine iff_of_true ⟨c, ?_, ends.blank c rfl⟩ fun other written later split brief => ?_
        · rw [String.toList_append, String.toList_ofList]
          rfl
        · cases (here other written later split brief).1

theorem blank_follows_swap :
    let children : List Entity := [.text "Swaps. See ", .code "std", .text "."]
    (splitFirstSentence children).2 ≠ [] ∧
      ∃ following, plainTextAll children =
          plainTextAll (splitFirstSentence children).1 ++ following ∧
        (StartsBlank following ↔ ∀ before written rest, children = before ++ .text written :: rest →
          (splitFirstSentence children).1 = before ++ [.text written] →
            StartsBlank (plainTextAll rest)) := by
  intro children
  have more : (splitFirstSentence children).2 ≠ [] := by decide
  exact ⟨more, blank_follows_iff more⟩

/-- The text before the code ends with a full stop, which is in the middle of a name. -/
theorem sentence_ends_inside_word :
    let children : List Entity := [.text "Uses std.", .code "swap", .text "."]
    Markup.read "Uses std.`swap`." = [.paragraph children] ∧
      splitFirstSentence children = ([.text "Uses std."], [.code "swap", .text "."]) ∧
      ∀ following, plainTextAll children = plainTextAll [.text "Uses std."] ++ following →
        ¬ StartsBlank following := by
  intro children
  refine ⟨by decide +kernel, by decide +kernel, ?_⟩
  rintro following same ⟨c, first, blank⟩
  have whole : (plainTextAll children).toList =
      (plainTextAll [.text "Uses std."]).toList ++ "swap.".toList := by decide
  have texts := congrArg String.toList same
  rw [String.toList_append, whole] at texts
  have starts : "swap.".toList.head? = some 's' := by decide
  rw [← List.append_cancel_left texts, starts] at first
  obtain rfl := Option.some.inj first
  exact absurd blank (by decide)

end DocComment.Comment
