import DocComment.Template.Render

/-! Renderings as dialogues. Whatever a rendering asks for, it is given sections as they were before, and all
that is dropped is what it asked to drop. -/
namespace DocComment.Template

/-- A call that a rendering makes, and what it is given. -/
structure Exchange where
  function : PartFunction
  argument : String
  reply : Value

namespace Exchange

/-- The kind of section that a call drops. -/
def dropped? (exchange : Exchange) : Option SectionKind :=
  match exchange.function with
  | .fetch => none
  | .drop => (partNamed exchange.argument).toOption

/-- A call that fetches a section is given its markup as safe text, and nothing if there is no such section;
one that drops a section is given nothing. -/
def Served (part : SectionKind → Option String) (exchange : Exchange) : Prop :=
  ∃ kind, partNamed exchange.argument = .ok kind ∧ exchange.reply = match exchange.function with
    | .fetch => .text ((part kind).getD "") true
    | .drop => .text "" true

end Exchange

namespace Dialogue

variable {part : SectionKind → Option String}

/-- What is left of a dialogue after some exchanges, if these are the calls that it makes. -/
def follow : Dialogue α → List Exchange → Option (Dialogue α)
  | dialogue, [] => some dialogue
  | .call function argument next, exchange :: rest =>
    if exchange.function = function ∧ exchange.argument = argument then
      (next exchange.reply).follow rest
    else none
  | .ended _, _ :: _ | .failed _, _ :: _ => none

def output? : Dialogue α → Option α
  | .ended result => some result
  | _ => none

/-- Why a dialogue ends here without a result. A call that names no kind of section has no answer. -/
def fault? : Dialogue α → Option Fault
  | .ended _ => none
  | .failed fault => some fault
  | .call _ argument _ =>
    match partNamed argument with
    | .ok _ => none
    | .error fault => some fault

/-- Every dialogue gets to its end or to a fault if all calls are served. -/
theorem exists_follow (part : SectionKind → Option String) (dialogue : Dialogue α) :
    ∃ exchanges rest, dialogue.follow exchanges = some rest ∧
      (∀ exchange ∈ exchanges, exchange.Served part) ∧ (rest.output?.isSome ∨ rest.fault?.isSome) := by
  induction dialogue with
  | ended result => exact ⟨[], .ended result, rfl, nofun, .inl rfl⟩
  | failed fault => exact ⟨[], .failed fault, rfl, nofun, .inr rfl⟩
  | call function argument next ih =>
    cases named : partNamed argument with
    | error fault => exact ⟨[], .call function argument next, rfl, nofun, .inr (by simp [fault?, named])⟩
    | ok kind =>
      have goesOn (reply : Value) (served : Exchange.Served part ⟨function, argument, reply⟩) :
          ∃ exchanges rest, (Dialogue.call function argument next).follow exchanges = some rest ∧
            (∀ exchange ∈ exchanges, exchange.Served part) ∧
            (rest.output?.isSome ∨ rest.fault?.isSome) := by
        obtain ⟨exchanges, rest, followed, all, ends⟩ := ih reply
        refine ⟨⟨function, argument, reply⟩ :: exchanges, rest, ?_, ?_, ends⟩
        · rw [follow, if_pos ⟨rfl, rfl⟩, followed]
        · exact List.forall_mem_cons.mpr ⟨served, all⟩
      cases function with
      | fetch => exact goesOn (.text ((part kind).getD "") true) ⟨kind, named, rfl⟩
      | drop => exact goesOn (.text "" true) ⟨kind, named, rfl⟩

theorem serve_fetch {argument : String} {kind : SectionKind} (named : partNamed argument = .ok kind)
    (next : Value → Dialogue String) :
    (Dialogue.call .fetch argument next).serve part =
      (next (.text ((part kind).getD "") true)).serve part := by
  rw [serve, named]
  rfl

theorem serve_drop {argument : String} {kind : SectionKind} (named : partNamed argument = .ok kind)
    (next : Value → Dialogue String) :
    (Dialogue.call .drop argument next).serve part =
      ((next (.text "" true)).serve part).map fun rendering =>
        { rendering with dropped := kind :: rendering.dropped } := by
  rw [serve, named]
  rfl

theorem serve_of_output? {dialogue : Dialogue String} {output : String}
    (ended : dialogue.output? = some output) : dialogue.serve part = .ok ⟨output, []⟩ := by
  cases dialogue <;> cases ended
  rfl

theorem serve_of_fault? {dialogue : Dialogue String} {fault : Fault}
    (fails : dialogue.fault? = some fault) : dialogue.serve part = .error fault := by
  cases dialogue with
  | ended => cases fails
  | failed => cases fails; rfl
  | call function argument next =>
    rw [serve]
    rw [fault?] at fails
    cases named : partNamed argument with
    | ok kind => rw [named] at fails; cases fails
    | error other => rw [named] at fails; cases fails; rfl

/-- Serving a dialogue drops what the calls on the way drop. -/
theorem serve_of_follow {dialogue rest : Dialogue String} {exchanges : List Exchange}
    (followed : dialogue.follow exchanges = some rest)
    (served : ∀ exchange ∈ exchanges, exchange.Served part) :
    dialogue.serve part = (rest.serve part).map fun rendering =>
      { rendering with dropped := exchanges.filterMap Exchange.dropped? ++ rendering.dropped } := by
  induction exchanges generalizing dialogue with
  | nil =>
    have same : dialogue = rest := by simpa [follow] using followed
    rw [same]
    cases rest.serve part <;> rfl
  | cons exchange later ih =>
    obtain ⟨⟨kind, named, reply⟩, others⟩ := List.forall_mem_cons.mp served
    cases dialogue with
    | ended => cases followed
    | failed => cases followed
    | call function argument next =>
      rw [follow] at followed
      split at followed
      · rename_i same
        obtain ⟨rfl, rfl⟩ := same
        have after := ih followed others
        obtain ⟨asked, written, given⟩ := exchange
        dsimp only at reply
        subst reply
        cases asked with
        | fetch => exact (serve_fetch named next).trans after
        | drop =>
          have gone : Exchange.dropped? ⟨.drop, written, .text "" true⟩ = some kind := by
            rw [Exchange.dropped?, named]
            rfl
          refine (serve_drop named next).trans ?_
          rw [List.filterMap_cons_some gone]
          refine (congrArg (Except.map _) after).trans ?_
          cases rest.serve part <;> rfl
      · cases followed

end Dialogue

/-- A call of a function for sections by its name is a call that the rendering makes, and what it is given is
written. -/
theorem run_part_call {inputs : Inputs} {invoke : Invoke} {name : String} {function : PartFunction}
    {progress : Progress} (known : globals.lookup name = some (.callable (.part function)))
    (unset : lookupFrames name progress.frames = none) (absent : inputs.root.attribute? name = none)
    (kind : String) :
    (run inputs invoke (.value (.callNamed name [.string kind] [] []))).run progress =
      .call function kind fun reply => .ended (shown inputs.escape reply, progress) := by
  have other : (name == "loop") = false := by
    rw [beq_eq_false_iff_ne]
    rintro rfl
    cases known
  have looked : (lookup? inputs name).run progress =
      .ended (some (.callable (.part function)), progress) := by
    show Dialogue.ended (((lookupFrames name progress.frames).or (inputs.root.attribute? name)).or
      (globals.lookup name), progress) = _
    rw [unset, absent, known]
    rfl
  have called : (callName inputs invoke name [.ofString kind] []).run progress =
      .call function kind fun reply => .ended (reply, progress) := by
    rw [callName, other, if_neg Bool.false_ne_true, StateT.run_bind, looked]
    rfl
  have evaluated : (evaluate inputs invoke (.callNamed name [.string kind] [] [])).run progress =
      .call function kind fun reply => .ended (reply, progress) := by
    rw [evaluate, evaluateAll, evaluateAll, evaluate]
    exact called
  have escaped : writesDirectly (.callNamed name [.string kind] [] []) = false := by
    unfold writesDirectly
    split <;> simp_all
  rw [run, escaped, StateT.run_bind, evaluated]
  rfl

end DocComment.Template
