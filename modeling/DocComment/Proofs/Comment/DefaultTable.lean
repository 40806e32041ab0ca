import DocComment.Comment.CommandTable
import DocComment.Proofs.Pattern.Spots

/-! Patterns that match at the start of a text only, and only before a certain character. Those of the
default table are such patterns: its commands start with a backslash. -/
namespace DocComment.Pattern

namespace Regex

/-- Every way of matching begins with the start of the text. -/
def anchored : Regex → Bool
  | .anchor .textStart => true
  | .cat first _ => first.anchored
  | .alt first second => first.anchored && second.anchored
  | .capture _ body => body.anchored
  | _ => false

/-- Every way of matching takes this character first. -/
def leads (c : Char) : Regex → Bool
  | .set members => members == .range c c
  | .cat (.anchor _) second => second.leads c
  | .cat first _ => first.leads c
  | .alt first second => first.leads c && second.leads c
  | .capture _ body => body.leads c
  | _ => false

theorem ends_cat {first : Regex} (second : Regex) {spot : Spot} (stuck : first.ends spot = []) :
    (first.cat second).ends spot = [] := by
  rw [ends, stuck]
  rfl

theorem ends_of_anchored {regex : Regex} (start : regex.anchored = true) {spot : Spot}
    (inside : spot.before ≠ []) : regex.ends spot = [] := by
  induction regex with
  | empty | set | loop => cases start
  | anchor condition =>
    cases condition with
    | textStart => simp [ends, Anchor.holds, inside]
    | _ => cases start
  | cat first second ihFirst => exact ends_cat second (ihFirst start)
  | alt first second ihFirst ihSecond =>
    rw [anchored, Bool.and_eq_true] at start
    simp [ends, ihFirst start.1, ihSecond start.2, distinctSpots]
  | capture index body ih => simp [ends, ih start]

theorem ends_of_leads {regex : Regex} {c : Char} (leading : regex.leads c = true) {spot : Spot}
    (other : spot.rest.head? ≠ some c) : regex.ends spot = [] := by
  induction regex with
  | empty | anchor | loop => cases leading
  | set members =>
    obtain rfl := beq_iff_eq.mp leading
    rw [ends]
    split
    case h_2 => rfl
    case h_1 d rest more =>
      have apart : d ≠ c := fun same => other (by rw [more, same]; rfl)
      have outside : ¬ (CharSet.range c c).contains d = true := by
        intro inside
        simp only [CharSet.contains, Bool.and_eq_true, decide_eq_true_eq] at inside
        exact apart (Char.le_antisymm inside.2 inside.1)
      rw [if_neg outside]
  | cat first second ihFirst ihSecond =>
    cases first with
    | anchor condition =>
      rw [ends, ends]
      split
      · simp [ihSecond leading, distinctSpots]
      · rfl
    | empty | set | cat | alt | loop | capture => exact ends_cat second (ihFirst leading)
  | alt first second ihFirst ihSecond =>
    rw [leads, Bool.and_eq_true] at leading
    simp [ends, ihFirst leading.1, ihSecond leading.2, distinctSpots]
  | capture index body ih => simp [ends, ih leading]

theorem searchFrom_of_anchored {regex : Regex} (start : regex.anchored = true) (rest : List Char)
    (offset : Nat) {before : List Char} (inside : before ≠ []) :
    searchFrom regex rest offset before = none := by
  induction rest generalizing offset before with
  | nil => rw [searchFrom, ends_of_anchored start inside]
  | cons c others ih =>
    rw [searchFrom, ends_of_anchored start inside]
    exact ih (offset + 1) (List.cons_ne_nil c before)

/-- Such a pattern is nowhere in a text that starts with something else. -/
theorem search_of_leads {regex : Regex} {c : Char} (start : regex.anchored = true)
    (leading : regex.leads c = true) {text : List Char} (other : text.head? ≠ some c) :
    regex.search text = none := by
  have here : regex.ends { rest := text } = [] := ends_of_leads leading other
  cases text with
  | nil => rw [search, searchFrom, here]
  | cons d rest =>
    rw [search, searchFrom, here]
    exact searchFrom_of_anchored start rest 1 (List.cons_ne_nil d [])

end Regex

end DocComment.Pattern

namespace DocComment.Comment

namespace CommandTable

/-- A pattern that matches at the start of a content only, and only before a backslash. -/
def CommandPattern.leads (pattern : CommandPattern) : Bool :=
  pattern.compiled.regex.anchored && pattern.compiled.regex.leads '\\'

theorem default_leads : ∀ pattern ∈ default.patterns, CommandPattern.leads pattern = true := by
  rw [← List.all_eq_true]
  decide +kernel

theorem tokenEnd?_of_leads {pattern : CommandPattern} (leads : CommandPattern.leads pattern = true)
    {content : List Char} (other : content.head? ≠ some '\\') : tokenEnd? pattern content = none := by
  obtain ⟨start, leading⟩ := (Bool.and_eq_true _ _).mp leads
  rw [tokenEnd?, Pattern.Regex.search_of_leads start leading other]
  rfl

/-- There is no command if no pattern has a token. -/
theorem recognize?_eq_none {table : CommandTable} {content : List Char}
    (stuck : ∀ pattern ∈ table.patterns, tokenEnd? pattern content = none) :
    table.recognize? content = none := by
  rw [recognize?]
  generalize table.patterns = patterns at stuck
  induction patterns with
  | nil => rfl
  | cons pattern rest ih =>
    obtain ⟨first, later⟩ := List.forall_mem_cons.mp stuck
    rw [List.foldl_cons, first]
    exact ih later

/-- A line that starts with something else than a backslash holds no command. -/
theorem recognize?_default {content : List Char} (other : content.head? ≠ some '\\') :
    default.recognize? content = none :=
  recognize?_eq_none fun pattern member => tokenEnd?_of_leads (default_leads pattern member) other

end CommandTable

end DocComment.Comment
