import DocComment.Markup.Emphasis

namespace DocComment.Markup

/-- Where these runs are open, innermost first, the pieces come to these events and leave nothing
open. -/
def Resolves (outer : List Delimiters) (pieces : List Piece) (events : List Event) : Prop :=
  ∀ state : EmphasisState, state.runs.map (·.delimiters) = outer →
    pieces.foldl EmphasisState.step state = state.push events

namespace EmphasisState

@[simp] theorem push_runs (state : EmphasisState) (events : List Event) :
    (state.push events).runs.map (·.delimiters) = state.runs.map (·.delimiters) := by
  unfold push
  split <;> simp_all

theorem push_nil (state : EmphasisState) : state.push [] = state := by
  obtain ⟨base, runs⟩ := state
  cases runs <;> simp [push]

theorem push_push (state : EmphasisState) (events more : List Event) :
    (state.push events).push more = state.push (events ++ more) := by
  obtain ⟨base, runs⟩ := state
  cases runs <;> simp [push]

theorem findOpener_eq_none (closer : Delimiters) (runs : List OpenRun) (passed : List Event)
    (unlike : ∀ run ∈ runs, run.delimiters.matches closer = false) :
    findOpener closer runs passed = none := by
  induction runs generalizing passed with
  | nil => rfl
  | cons run outer ih =>
    have first := unlike run List.mem_cons_self
    simp only [findOpener, first, Bool.false_eq_true, if_false]
    exact ih _ fun other member => unlike other (List.mem_cons_of_mem run member)

/-- A run that can open, and closes nothing, waits for its closing. -/
theorem step_opens (state : EmphasisState) (opener : Delimiters) (positive : 0 < opener.run)
    (opens : opener.canOpen = true)
    (alone : opener.canClose = true →
      ∀ run ∈ state.runs.map (·.delimiters), run.matches opener = false) :
    state.step (.delimiters opener) =
      { state with runs := ⟨opener, opener.run, []⟩ :: state.runs } := by
  obtain ⟨free, count⟩ := Nat.exists_eq_add_one.mpr positive
  have unmatched : (if opener.canClose then findOpener opener state.runs [] else none) = none := by
    split
    case isTrue closes =>
      apply findOpener_eq_none
      exact fun run member => alone closes run.delimiters (List.mem_map_of_mem member)
    case isFalse => rfl
  simp only [step, count, closeRun]
  rw [unmatched]
  simp [opens]

/-- A run as long as the innermost open one closes it. -/
theorem step_closes (base : List Event) (outer : List OpenRun) (inner : List Event)
    (opener closer : Delimiters) (positive : 0 < closer.run) (same : opener.run = closer.run)
    (closes : closer.canClose = true) (like : opener.matches closer = true) :
    step ⟨base, ⟨opener, opener.run, inner⟩ :: outer⟩ (.delimiters closer) =
      push ⟨base, outer⟩ (wrapEmphasis closer.run inner) := by
  obtain ⟨free, count⟩ := Nat.exists_eq_add_one.mpr positive
  simp [step, count, same, closeRun, closes, findOpener, like]

end EmphasisState

/-- Runs of the same mark and length match. -/
theorem Delimiters.matches_of_same (opener closer : Delimiters) (mark : opener.mark = closer.mark)
    (run : opener.run = closer.run) : opener.matches closer = true := by
  have length : (closer.run + closer.run) % 3 ≠ 0 ∨ closer.run % 3 = 0 := by omega
  rw [Delimiters.matches, mark, run]
  rcases length with apart | thrice
  · simp [apart]
  · simp [thrice]

/-- A run that opens has something other than a blank after it. -/
theorem Delimiters.opens_before {mark : Char} {run : Nat} {before after : Option Char}
    (opens : (Delimiters.ofRun mark run before after).canOpen = true) :
    ∃ c, after = some c ∧ Unicode.isWhite c = false := by
  cases after with
  | none => simp [Delimiters.ofRun] at opens
  | some c =>
    refine ⟨c, rfl, ?_⟩
    cases white : Unicode.isWhite c with
    | false => rfl
    | true => simp [ofRun, white] at opens

namespace Resolves

variable {outer : List Delimiters}

theorem nil : Resolves outer [] [] := fun state _ => (state.push_nil).symm

theorem append {pieces more : List Piece} {events later : List Event}
    (first : Resolves outer pieces events) (second : Resolves outer more later) :
    Resolves outer (pieces ++ more) (events ++ later) := by
  intro state open_
  rw [List.foldl_append, first state open_, second _ (by rw [EmphasisState.push_runs, open_]),
    EmphasisState.push_push]

theorem events (events : List Event) : Resolves outer [.events events] events := fun _ _ => rfl

/-- Single events come to themselves. -/
theorem single (events : List Event) :
    Resolves outer (events.map fun event => .events [event]) events := by
  induction events with
  | nil => exact .nil
  | cons event rest ih => exact append (.events [event]) ih

/-- Content between two runs of the same length is emphasised, unless the first run closes another
one that is open. -/
theorem emphasis {pieces : List Piece} {events : List Event} (opener closer : Delimiters)
    (positive : 0 < opener.run) (mark : opener.mark = closer.mark) (run : opener.run = closer.run)
    (opens : opener.canOpen = true) (closes : closer.canClose = true)
    (alone : opener.canClose = true → ∀ other ∈ outer, other.matches opener = false)
    (inner : Resolves (opener :: outer) pieces events) :
    Resolves outer (.delimiters opener :: pieces ++ [.delimiters closer])
      (wrapEmphasis opener.run events) := by
  rintro ⟨base, runs⟩ open_
  subst open_
  rw [List.cons_append, List.foldl_cons, EmphasisState.step_opens _ opener positive opens alone,
    List.foldl_append, inner _ rfl]
  exact run ▸ EmphasisState.step_closes base runs events opener closer (run ▸ positive) run closes
    (opener.matches_of_same closer mark run)

theorem resolveEmphasis {pieces : List Piece} {events : List Event}
    (resolves : Resolves [] pieces events) : resolveEmphasis pieces = events := by
  rw [Markup.resolveEmphasis, resolves {} rfl]
  simp [EmphasisState.push, EmphasisState.finish]

end Resolves

end DocComment.Markup
