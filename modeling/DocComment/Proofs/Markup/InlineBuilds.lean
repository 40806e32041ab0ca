import DocComment.Markup.Inline
import DocComment.Proofs.Markup.Building
import Mathlib.Data.Nat.Init

namespace DocComment.Markup

/-- Openings of inline content. -/
def Inlined.opens : Opening → Bool
  | .emphasis | .strong | .link .. | .image .. => true
  | _ => false

/-- Events that build inline entities and open nothing else. Only where there are no events do they build
none. -/
def Inlined (events : List Event) : Prop :=
  ∃ entities, Builds events entities ∧ (∀ entity ∈ entities, entity.isBlock = false) ∧
    (entities = [] → events = []) ∧ ∀ opening, .enter opening ∈ events → Inlined.opens opening = true

namespace Inlined

theorem nil : Inlined [] := ⟨[], .nil, by simp, fun _ => rfl, by simp⟩

theorem append {events more : List Event} (first : Inlined events) (second : Inlined more) :
    Inlined (events ++ more) := by
  obtain ⟨entities, builds, inline, empty, opened⟩ := first
  obtain ⟨others, buildsMore, inlineMore, emptyMore, openedMore⟩ := second
  refine ⟨entities ++ others, builds.append buildsMore, List.forall_mem_append.mpr ⟨inline, inlineMore⟩,
    fun none => ?_, fun opening member => ?_⟩
  · obtain ⟨rfl, rfl⟩ := List.append_eq_nil_iff.mp none
    rw [empty rfl, emptyMore rfl]
    rfl
  · exact (List.mem_append.mp member).elim (opened opening) (openedMore opening)

theorem flatten {parts : List (List Event)} (each : ∀ events ∈ parts, Inlined events) :
    Inlined parts.flatten := by
  induction parts with
  | nil => exact nil
  | cons events rest ih =>
    obtain ⟨first, others⟩ := List.forall_mem_cons.mp each
    exact first.append (ih others)

theorem leaf {event : Event} {leaf : Leaf} (builds : Builds [event] [.leaf leaf])
    (inline : (Entity.leaf leaf).isBlock = false) (closed : ∀ opening, event ≠ .enter opening) :
    Inlined [event] :=
  ⟨[.leaf leaf], builds, by simpa using inline, by simp, fun opening member =>
    absurd (List.mem_singleton.mp member).symm (closed opening)⟩

theorem text (written : String) : Inlined [.text written] := leaf (.text written) rfl nofun

theorem code (written : String) : Inlined [.code written] := leaf (.code written) rfl nofun

theorem softBreak : Inlined [.softBreak] := leaf .softBreak rfl nofun

theorem hardBreak : Inlined [.hardBreak] := leaf .hardBreak rfl nofun

theorem enclosed {opening : Opening} (inline : opens opening = true) {events : List Event}
    (inner : Inlined events) : Inlined (.enter opening :: events ++ [.leave]) := by
  obtain ⟨entities, builds, _, _, opened⟩ := inner
  have link (destination title : String) (children : List Entity) :
      (linkEntity destination title children).isBlock = false := by
    unfold linkEntity
    repeat' split
    all_goals rfl
  have all : ∀ other, .enter other ∈ .enter opening :: events ++ [.leave] → opens other = true := by
    intro other member
    rcases List.mem_cons.mp member with same | inside
    · cases same
      exact inline
    · exact (List.mem_append.mp inside).elim (opened other) (by simp)
  refine ⟨_, builds.enclosed opening, ?_, ?_, all⟩ <;> cases opening <;>
    simp_all [opens, closeOpening, Entity.isBlock]

theorem literalMarks (mark : Char) (count : Nat) : Inlined (literalMarks mark count) := by
  unfold Markup.literalMarks
  split
  · exact nil
  · exact text _

theorem wrapEmphasis (count : Nat) {events : List Event} (inner : Inlined events) :
    Inlined (wrapEmphasis count events) := by
  induction count using Nat.twoStepInduction generalizing events with
  | zero => exact inner
  | one => exact inner.enclosed rfl
  | more count ih _ => exact ih (inner.enclosed rfl)

end Inlined

def Piece.Inlined : Piece → Prop
  | .events inner => Markup.Inlined inner
  | .delimiters _ => True

/-- A piece that something comes of. -/
def Piece.Shows : Piece → Prop
  | .events inner => inner ≠ []
  | .delimiters marks => 0 < marks.run

theorem literalMarks_ne_nil (mark : Char) {count : Nat} (positive : 0 < count) :
    literalMarks mark count ≠ [] := by
  simp [literalMarks, Nat.ne_of_gt positive]

theorem wrapEmphasis_ne_nil {count : Nat} {events : List Event} (positive : 0 < count ∨ events ≠ []) :
    wrapEmphasis count events ≠ [] := by
  induction count using Nat.twoStepInduction generalizing events with
  | zero => simpa [wrapEmphasis] using positive
  | one => simp [wrapEmphasis]
  | more count ih _ => exact ih (.inr (by simp))

namespace EmphasisState

/-- All events so far are inline content, and every open run has marks that are still free. -/
structure Inline (state : EmphasisState) : Prop where
  base : Inlined state.base
  runs : ∀ run ∈ state.runs, Inlined run.inner ∧ 0 < run.free

/-- Something has been read. -/
def Shows (state : EmphasisState) : Prop :=
  state.base ≠ [] ∨ state.runs ≠ []

variable {state : EmphasisState}

theorem Inline.push (inline : Inline state) {events : List Event} (added : Inlined events) :
    Inline (state.push events) := by
  obtain ⟨base, runs⟩ := state
  cases runs with
  | nil => exact ⟨inline.base.append added, inline.runs⟩
  | cons run outer =>
    obtain ⟨⟨first, free⟩, others⟩ := List.forall_mem_cons.mp inline.runs
    exact ⟨inline.base, List.forall_mem_cons.mpr ⟨⟨first.append added, free⟩, others⟩⟩

theorem Shows.push {events : List Event} (shows_ : state.Shows ∨ events ≠ []) :
    (state.push events).Shows := by
  obtain ⟨base, runs⟩ := state
  cases runs with
  | nil =>
    refine .inl ?_
    rcases shows_ with (based | open_) | added
    · exact List.append_ne_nil_of_left_ne_nil based _
    · exact absurd rfl open_
    · exact List.append_ne_nil_of_right_ne_nil _ added
  | cons run outer => exact .inr (List.cons_ne_nil _ _)

/-- What is between two runs is inline content if all was that is open. -/
theorem Inline.findOpener {closer : Delimiters} {runs : List OpenRun}
    (inline : ∀ run ∈ runs, Inlined run.inner ∧ 0 < run.free) {passed : List Event}
    (skipped : Inlined passed) {opener : OpenRun} {content : List Event} {outer : List OpenRun}
    (found : EmphasisState.findOpener closer runs passed = some (opener, content, outer)) :
    0 < opener.free ∧ Inlined content ∧ ∀ run ∈ outer, Inlined run.inner ∧ 0 < run.free := by
  induction runs generalizing passed with
  | nil => cases found
  | cons run rest ih =>
    obtain ⟨⟨first, free⟩, others⟩ := List.forall_mem_cons.mp inline
    rw [EmphasisState.findOpener] at found
    split at found
    · cases found
      exact ⟨free, first.append skipped, others⟩
    · exact ih others ((Inlined.literalMarks _ _).append (first.append skipped)) found

theorem Inline.closeRun (closer : Delimiters) (fuel free : Nat) (inline : Inline state) :
    Inline (state.closeRun closer fuel free) ∧
      (state.Shows ∨ 0 < free → (state.closeRun closer fuel free).Shows) := by
  fun_induction EmphasisState.closeRun closer fuel free state with
  | case1 free state =>
    refine ⟨inline.push (.literalMarks _ _), fun shows_ => .push ?_⟩
    exact shows_.imp_right (literalMarks_ne_nil _)
  | case2 state fuel =>
    exact ⟨inline, fun shows_ => shows_.resolve_right (Nat.lt_irrefl 0)⟩
  | case3 fuel free state opener content outer found used wrapped left next ih =>
    obtain ⟨closes, found⟩ : closer.canClose = true ∧
        EmphasisState.findOpener closer state.runs [] = some (opener, content, outer) := by
      split at found
      · exact ⟨‹_›, found⟩
      · cases found
    obtain ⟨waits, inner, others⟩ := Inline.findOpener inline.runs .nil found
    have positive : 0 < used := Nat.lt_min.mpr ⟨Nat.succ_pos free, waits⟩
    have kept : Inlined wrapped := Inlined.wrapEmphasis used inner
    have both : next.Inline ∧ next.Shows := by
      by_cases all : (left == 0) = true
      · have same : next = EmphasisState.push { state with runs := outer } wrapped := if_pos all
        have outside : Inline { state with runs := outer } := ⟨inline.base, others⟩
        rw [same]
        exact ⟨outside.push kept, .push (.inr (wrapEmphasis_ne_nil (.inl positive)))⟩
      · have same : next = { state with runs := { opener with free := left, inner := wrapped } :: outer } :=
          if_neg all
        have waits : 0 < left := Nat.pos_of_ne_zero (by simpa using all)
        rw [same]
        exact ⟨⟨inline.base, List.forall_mem_cons.mpr ⟨⟨kept, waits⟩, others⟩⟩,
          .inr (List.cons_ne_nil _ _)⟩
    obtain ⟨last, shown⟩ := ih both.1
    exact ⟨last, fun _ => shown (.inl both.2)⟩
  | case4 fuel free state none opens =>
    have waits : Inlined ([] : List Event) ∧ 0 < free + 1 := ⟨.nil, Nat.succ_pos free⟩
    exact ⟨⟨inline.base, List.forall_mem_cons.mpr ⟨waits, inline.runs⟩⟩, fun _ =>
      .inr (List.cons_ne_nil _ _)⟩
  | case5 fuel free state none opens =>
    exact ⟨inline.push (.literalMarks _ _), fun _ =>
      .push (.inr (literalMarks_ne_nil _ (Nat.succ_pos free)))⟩

theorem Inline.step (inline : Inline state) {piece : Piece} (added : piece.Inlined) :
    Inline (state.step piece) ∧ (state.Shows ∨ piece.Shows → (state.step piece).Shows) := by
  cases piece with
  | events inner => exact ⟨inline.push added, Shows.push⟩
  | delimiters marks => exact inline.closeRun marks _ _

theorem Inline.finish (inline : Inline state) :
    Inlined state.finish ∧ (state.Shows → state.finish ≠ []) := by
  have each : ∀ events ∈ state.runs.reverse.map fun run =>
      literalMarks run.delimiters.mark run.free ++ run.inner, Inlined events ∧ events ≠ [] := by
    intro events member
    obtain ⟨run, open_, rfl⟩ := List.mem_map.mp member
    obtain ⟨inner, free⟩ := inline.runs run (List.mem_reverse.mp open_)
    exact ⟨(Inlined.literalMarks _ _).append inner,
      List.append_ne_nil_of_left_ne_nil (literalMarks_ne_nil _ free) _⟩
  refine ⟨inline.base.append (.flatten fun events member => (each events member).1), fun shows_ => ?_⟩
  rcases shows_ with based | open_
  · exact List.append_ne_nil_of_left_ne_nil based _
  · obtain ⟨run, outer, same⟩ := List.exists_cons_of_ne_nil open_
    refine List.append_ne_nil_of_right_ne_nil _ fun empty => ?_
    have member : literalMarks run.delimiters.mark run.free ++ run.inner ∈
        state.runs.reverse.map fun run => literalMarks run.delimiters.mark run.free ++ run.inner :=
      List.mem_map.mpr ⟨run, by simp [same], rfl⟩
    exact (each _ member).2 (List.flatten_eq_nil_iff.mp empty _ member)

end EmphasisState

/-- Pieces of inline content come to inline content. -/
theorem Inlined.resolveEmphasis {pieces : List Piece} (inline : ∀ piece ∈ pieces, piece.Inlined) :
    Inlined (resolveEmphasis pieces) ∧
      ((∃ piece ∈ pieces, piece.Shows) → resolveEmphasis pieces ≠ []) := by
  have run : ∀ (pieces : List Piece) (state : EmphasisState), state.Inline →
      (∀ piece ∈ pieces, piece.Inlined) → (pieces.foldl EmphasisState.step state).Inline ∧
        (state.Shows ∨ (∃ piece ∈ pieces, piece.Shows) → (pieces.foldl EmphasisState.step state).Shows) := by
    intro pieces
    induction pieces with
    | nil => exact fun state inline _ => ⟨inline, fun shows_ => by simpa using shows_⟩
    | cons piece rest ih =>
      intro state inline added
      obtain ⟨first, others⟩ := List.forall_mem_cons.mp added
      obtain ⟨next, shown⟩ := inline.step first
      obtain ⟨last, shownLast⟩ := ih _ next others
      refine ⟨last, fun shows_ => shownLast ?_⟩
      rcases shows_ with before | ⟨other, member, own⟩
      · exact .inl (shown (.inl before))
      · rcases List.mem_cons.mp member with rfl | later
        · exact .inl (shown (.inr own))
        · exact .inr ⟨other, later, own⟩
  obtain ⟨last, shown⟩ := run pieces {} ⟨.nil, by simp⟩ inline
  exact ⟨last.finish.1, fun nonempty => last.finish.2 (shown (.inr nonempty))⟩

namespace InlineState

/-- All pieces so far are inline content. -/
structure Inline (state : InlineState) : Prop where
  pieces : ∀ piece ∈ state.pieces, piece.Inlined
  brackets : ∀ bracket ∈ state.brackets, ∀ piece ∈ bracket.pieces, piece.Inlined

/-- Something has been read. -/
def Shows (state : InlineState) : Prop :=
  state.brackets ≠ [] ∨ ∃ piece ∈ state.pieces, piece.Shows

/-- A step keeps to inline content, and what has been read. -/
def Keeps (state next : InlineState) : Prop :=
  state.Inline → next.Inline ∧ (state.Shows → next.Shows)

/-- A step that reads something. -/
def Adds (state next : InlineState) : Prop :=
  state.Inline → next.Inline ∧ next.Shows

theorem Adds.toKeeps {state next : InlineState} (adds : Adds state next) : Keeps state next :=
  fun own => (adds own).imp_right fun shown _ => shown

namespace Keeps

theorem refl (state : InlineState) : Keeps state state := fun own => ⟨own, id⟩

theorem trans {state next last : InlineState} (first : Keeps state next) (second : Keeps next last) :
    Keeps state last := fun own =>
  have ⟨inline, shows_⟩ := first own
  (second inline).imp_right (· ∘ shows_)

theorem adds {state next last : InlineState} (first : Keeps state next) (second : Adds next last) :
    Adds state last := fun own => second (first own).1

/-- The character before does not matter. -/
theorem before (state : InlineState) (before : Option Char) : Keeps state { state with before } :=
  fun own => ⟨⟨own.pieces, own.brackets⟩, id⟩

theorem push (state : InlineState) {piece : Piece} (inline : piece.Inlined) :
    Keeps state (state.push piece) := by
  obtain ⟨pieces, brackets, before⟩ := state
  intro own
  cases brackets with
  | nil =>
    refine ⟨⟨List.forall_mem_cons.mpr ⟨inline, own.pieces⟩, own.brackets⟩, fun shown => ?_⟩
    obtain ⟨other, member, shows_⟩ := shown.resolve_left fun open_ => open_ rfl
    exact .inr ⟨other, List.mem_cons_of_mem piece member, shows_⟩
  | cons inner outer =>
    obtain ⟨first, others⟩ := List.forall_mem_cons.mp own.brackets
    exact ⟨⟨own.pieces, List.forall_mem_cons.mpr ⟨List.forall_mem_cons.mpr ⟨inline, first⟩, others⟩⟩,
      fun _ => .inl (List.cons_ne_nil _ _)⟩

theorem pushAll {pieces : List Piece} (state : InlineState) (inline : ∀ piece ∈ pieces, piece.Inlined) :
    Keeps state (state.pushAll pieces) := by
  induction pieces generalizing state with
  | nil => exact refl state
  | cons piece rest ih =>
    obtain ⟨first, others⟩ := List.forall_mem_cons.mp inline
    exact (push state first).trans (ih (state.push piece) others)

end Keeps

namespace Adds

theorem keeps {state next last : InlineState} (first : Adds state next) (second : Keeps next last) :
    Adds state last := fun own =>
  have ⟨inline, shown⟩ := first own
  (second inline).imp_right (· shown)

theorem push (state : InlineState) {piece : Piece} (inline : piece.Inlined) (shows_ : piece.Shows) :
    Adds state (state.push piece) := by
  intro own
  refine ⟨(Keeps.push state inline own).1, ?_⟩
  obtain ⟨pieces, brackets, before⟩ := state
  cases brackets with
  | nil => exact .inr ⟨piece, List.mem_cons_self, shows_⟩
  | cons inner outer => exact .inl (List.cons_ne_nil _ _)

theorem events (state : InlineState) {events : List Event} (inline : Inlined events) (nonempty : events ≠ []) :
    Adds state (state.push (.events events)) :=
  push state inline nonempty

theorem add (state : InlineState) {events : List Event} (inline : Inlined events) (nonempty : events ≠ [])
    (last : Option Char) : Adds state (state.add events last) :=
  (Adds.events state inline nonempty).keeps (.before _ last)

theorem addText (state : InlineState) (text : List Char) (last : Option Char) :
    Adds state (state.addText text last) :=
  add state (.text _) (List.cons_ne_nil _ _) last

theorem ite {state : InlineState} {condition : Prop} [Decidable condition]
    {first second : InlineState × List Char} (holds : condition → Adds state first.1)
    (fails : ¬ condition → Adds state second.1) :
    Adds state (if condition then first else second).1 := by
  split
  · exact holds ‹_›
  · exact fails ‹_›

/-- A bracket that opens. -/
theorem bracket (state : InlineState) (image : Bool) (opened : List Char) (before : Option Char) :
    Adds state { state with brackets := { image, opened } :: state.brackets, before } := fun own =>
  ⟨⟨own.pieces, List.forall_mem_cons.mpr ⟨by simp, own.brackets⟩⟩, .inl (List.cons_ne_nil _ _)⟩

end Adds

theorem push_brackets_length (state : InlineState) (piece : Piece) :
    (state.push piece).brackets.length = state.brackets.length := by
  unfold push
  split <;> simp_all

theorem dropBrackets_brackets (state : InlineState) :
    (state.dropBrackets state.brackets.length).brackets = [] := by
  have pushAll_length (state : InlineState) (pieces : List Piece) :
      (state.pushAll pieces).brackets.length = state.brackets.length := by
    induction pieces generalizing state with
    | nil => rfl
    | cons piece rest ih => exact (ih (state.push piece)).trans (push_brackets_length state piece)
  have dropBracket_length (state : InlineState) :
      state.dropBracket.brackets.length = state.brackets.length - 1 := by
    obtain ⟨pieces, brackets, before⟩ := state
    cases brackets with
    | nil => rfl
    | cons inner outer => exact (pushAll_length _ _).trans (push_brackets_length _ _)
  induction count : state.brackets.length generalizing state with
  | zero => exact List.eq_nil_of_length_eq_zero count
  | succ count ih => exact ih state.dropBracket (by rw [dropBracket_length]; omega)

/-- A bracket that is given up is text. -/
theorem Keeps.dropBracket (state : InlineState) : Keeps state state.dropBracket := by
  obtain ⟨pieces, brackets, before⟩ := state
  cases brackets with
  | nil => exact refl _
  | cons inner outer =>
    intro own
    obtain ⟨first, others⟩ := List.forall_mem_cons.mp own.brackets
    have text := Adds.events ⟨pieces, outer, before⟩ (.text (if inner.image then "![" else "[")) (by simp)
    have all := text.keeps (.pushAll _ fun piece member => first piece (List.mem_reverse.mp member))
    exact (all ⟨own.pieces, others⟩).imp_right fun shown _ => shown

theorem Keeps.dropBrackets (count : Nat) (state : InlineState) : Keeps state (state.dropBrackets count) := by
  induction count generalizing state with
  | zero => exact refl state
  | succ count ih => exact (dropBracket state).trans (ih state.dropBracket)

end InlineState

open InlineState

theorem closeBracket_adds (definitions : List Definition) (state : InlineState) (labelEnd rest : List Char) :
    Adds state (closeBracket definitions state labelEnd rest).1 := by
  obtain ⟨pieces, brackets, before⟩ := state
  unfold closeBracket
  cases brackets with
  | nil => exact .addText _ _ _
  | cons inner outer =>
    dsimp only
    split
    · exact (Keeps.dropBracket _).adds (.addText _ _ _)
    · rename_i destination title after found
      intro own
      obtain ⟨first, others⟩ := List.forall_mem_cons.mp own.brackets
      have content : Inlined (resolveEmphasis inner.pieces.reverse) :=
        (Inlined.resolveEmphasis fun piece member => first piece (List.mem_reverse.mp member)).1
      have opening : Inlined.opens (if inner.image then Opening.image (String.ofList destination)
          (String.ofList title) else .link (String.ofList destination) (String.ofList title)) = true := by
        split <;> rfl
      have outside : ∀ bracket ∈ if inner.image then outer else outer.map fun bracket =>
          if bracket.image then bracket else { bracket with active := false },
          ∀ piece ∈ bracket.pieces, piece.Inlined := by
        split
        · exact others
        · intro bracket member
          obtain ⟨other, open_, rfl⟩ := List.mem_map.mp member
          have same : (if other.image then other else { other with active := false }).pieces =
              other.pieces := by
            split <;> rfl
          rw [same]
          exact others other open_
      exact Adds.add ⟨pieces, _, before⟩ (content.enclosed opening) (List.cons_ne_nil _ _) _
        ⟨own.pieces, outside⟩

theorem inlineStep_adds (definitions : List Definition) (state : InlineState) {c : Char} (rest : List Char)
    (inked : isLineBlank c = false) : Adds state (inlineStep definitions state c rest).1 := by
  have break_ {event : Event} (inline : Inlined [event]) : Adds state
      { state.push (.events [event]) with before := none } :=
    (Adds.events state inline (List.cons_ne_nil _ _)).keeps (.before _ _)
  unfold inlineStep
  refine .ite (fun _ => break_ .softBreak) fun _ => .ite (fun blank => ?_) fun _ =>
    .ite (fun _ => ?escape) fun _ => .ite (fun _ => ?code) fun _ => .ite (fun _ => ?marks) fun _ =>
    .ite (fun _ => .bracket _ _ _ _) fun _ => .ite (fun _ => ?image) fun _ =>
    .ite (fun _ => closeBracket_adds _ _ _ _) fun _ => .ite (fun _ => ?tag) fun _ =>
    .ite (fun _ => ?reference) fun _ => .addText _ _ _
  case escape =>
    split
    · exact break_ .hardBreak
    · exact .ite (fun _ => .addText _ _ _) fun _ => .addText _ _ _
    · exact .addText _ _ _
  case code =>
    dsimp only
    split
    · exact .add _ (.code _) (List.cons_ne_nil _ _) _
    · exact .addText _ _ _
  case marks =>
    have marked (found : Delimiters) (positive : 0 < found.run) :
        Adds state (if found.canOpen || found.canClose then state.push (.delimiters found)
          else state.push (.events (literalMarks c found.run))) := by
      split
      · exact .push state trivial positive
      · exact .events state (.literalMarks _ _) (literalMarks_ne_nil _ positive)
    exact (marked (.ofRun c (runLength c rest + 1) _ _) (Nat.succ_pos _)).keeps (.before _ _)
  case image =>
    split
    · exact .bracket _ _ _ _
    · exact .addText _ _ _
  case tag =>
    split
    · exact .add _ ((Inlined.text _).enclosed rfl) (List.cons_ne_nil _ _) _
    · split
      · exact .addText _ _ _
      · exact .addText _ _ _
  case reference =>
    split
    · exact .addText _ _ _
    · exact .addText _ _ _
  · rw [inked] at blank
    contradiction

theorem inlineStep_keeps (definitions : List Definition) (state : InlineState) (c : Char) (rest : List Char) :
    Keeps state (inlineStep definitions state c rest).1 := by
  cases blank : isLineBlank c with
  | false => exact (inlineStep_adds definitions state rest blank).toKeeps
  | true =>
    have notEnd : c ≠ '\n' := by
      rintro rfl
      cases blank
    unfold inlineStep
    rw [if_neg (by simpa using notEnd), if_pos blank]
    dsimp only
    split
    · exact .refl state
    · split
      · exact ((Adds.events state .hardBreak (List.cons_ne_nil _ _)).keeps (.before _ _)).toKeeps
      · exact .refl state
    · exact (Adds.addText state _ _).toKeeps

theorem runInline_keeps (definitions : List Definition) (fuel : Nat) (state : InlineState) (text : List Char) :
    Keeps state (runInline definitions fuel state text) := by
  fun_induction runInline definitions fuel state text with
  | case1 => exact .refl _
  | case2 => exact .refl _
  | case3 fuel state c rest next after step ih =>
    have keeps := inlineStep_keeps definitions state c rest
    rw [step] at keeps
    exact keeps.trans ih

/-- Any inline content is balanced. Something to read comes of what starts with something to read. -/
theorem inlineEvents_inlined (definitions : List Definition) (text : List Char) :
    Inlined (inlineEvents definitions text) ∧
      (∀ c rest, text = c :: rest → isLineBlank c = false → inlineEvents definitions text ≠ []) := by
  have start : InlineState.Inline {} := ⟨by simp, by simp⟩
  have resolved (state : InlineState) (own : state.Inline) :
      Inlined (resolveEmphasis (state.dropBrackets state.brackets.length).pieces.reverse) ∧
        (state.Shows → resolveEmphasis (state.dropBrackets state.brackets.length).pieces.reverse ≠ []) := by
    obtain ⟨kept, shown⟩ := Keeps.dropBrackets state.brackets.length state own
    obtain ⟨inlined, nonempty⟩ := Inlined.resolveEmphasis fun piece member =>
      kept.pieces piece (List.mem_reverse.mp member)
    refine ⟨inlined, fun shows_ => nonempty ?_⟩
    obtain ⟨piece, member, own⟩ := (shown shows_).resolve_left fun open_ => open_ (dropBrackets_brackets state)
    exact ⟨piece, List.mem_reverse.mpr member, own⟩
  refine ⟨(resolved _ (runInline_keeps definitions _ _ _ start).1).1, ?_⟩
  rintro c rest rfl inked
  have first := inlineStep_adds definitions {} rest inked
  have all := first.keeps (runInline_keeps definitions rest.length _ (inlineStep definitions {} c rest).2)
  exact (resolved _ (all start).1).2 (all start).2

end DocComment.Markup
