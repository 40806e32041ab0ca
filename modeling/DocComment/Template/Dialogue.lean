import DocComment.Entity.Fields
import DocComment.Template.Value

/-! What a rendering asks for while it goes on. The sections of an entity are out of its reach: it can only
call a function, and goes on with what it is given. -/
namespace DocComment.Template

/-- A computation that calls functions for sections. -/
inductive Dialogue (α : Type) where
  | ended (result : α)
  | failed (fault : Fault)
  | call (function : PartFunction) (argument : String) (next : Value → Dialogue α)

namespace Dialogue

def bind : Dialogue α → (α → Dialogue β) → Dialogue β
  | .ended result, continue_ => continue_ result
  | .failed fault, _ => .failed fault
  | .call function argument next, continue_ =>
    .call function argument fun reply => (next reply).bind continue_

instance : Monad Dialogue where
  pure := .ended
  bind := bind

def ofExcept : Except Fault α → Dialogue α
  | .ok result => .ended result
  | .error fault => .failed fault

instance : MonadLift (Except Fault) Dialogue where
  monadLift := ofExcept

end Dialogue

/-- The kind of section that the argument of a call names. -/
def partNamed (argument : String) : Except Fault SectionKind :=
  let name := Text.stripped argument
  match SectionKind.ofName? name with
  | some kind => .ok kind
  | none => .error (.unknownSection name)

/-- The output of a template and the sections it drops, in order. -/
structure Rendering where
  text : String
  dropped : List SectionKind
  deriving Repr, DecidableEq

/-- Answers the calls of a rendering. A section is given as safe text; nothing is dropped yet. -/
def Dialogue.serve (part : SectionKind → Option String) : Dialogue String → Except Fault Rendering
  | .ended text => .ok ⟨text, []⟩
  | .failed fault => .error fault
  | .call function argument next => do
    let kind ← partNamed argument
    match function with
    | .fetch => (next (.text ((part kind).getD "") true)).serve part
    | .drop =>
      let rendering ← (next (.text "" true)).serve part
      return { rendering with dropped := kind :: rendering.dropped }

end DocComment.Template
