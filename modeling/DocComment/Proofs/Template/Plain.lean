import Mathlib.Data.List.Basic
import DocComment.Template.Render

/-! Templates without tests, loops and calls: each renders, and shows its text and its variables in
order. A variable is the last member of its name in the value that is rendered. -/
namespace DocComment.Template

namespace Value

theorem order_ofString (left right : String) :
    order (ofString left) (ofString right) = compare left right := by
  simp [order, ofString]

theorem equal_ofString (left right : String) : equal (ofString left) (ofString right) = (left == right) := by
  simp [equal, ofString]

/-- The value of the first entry with a name. -/
def named? (name : String) (entries : List (Value × Value)) : Option Value :=
  (entries.find? fun (key, _) => key.equal (ofString name)).map (·.2)

theorem named?_cons (name key : String) (value : Value) (rest : List (Value × Value)) :
    named? name ((ofString key, value) :: rest) = if key = name then some value else named? name rest := by
  by_cases same : key = name <;> simp [named?, equal_ofString, same]

/-- All keys are names. -/
def Named (entries : List (Value × Value)) : Prop :=
  ∀ entry ∈ entries, ∃ name, entry.1 = ofString name

theorem mem_insertEntry {key value : Value} {entry : Value × Value} {entries : List (Value × Value)}
    (member : entry ∈ insertEntry key value entries) : entry = (key, value) ∨ entry ∈ entries := by
  fun_induction insertEntry key value entries with
  | case1 => exact .inl (List.mem_singleton.mp member)
  | case2 => exact List.mem_cons.mp member
  | case3 => exact (List.mem_cons.mp member).imp_right (List.mem_cons_of_mem _)
  | case4 other present rest later ih =>
    rcases List.mem_cons.mp member with first | inside
    · exact .inr (first ▸ List.mem_cons_self)
    · exact (ih inside).imp_right (List.mem_cons_of_mem _)

theorem insertEntry_named (key : String) (value : Value) {entries : List (Value × Value)}
    (named : Named entries) : Named (insertEntry (ofString key) value entries) := by
  intro entry member
  rcases mem_insertEntry member with rfl | present
  · exact ⟨key, rfl⟩
  · exact named entry present

theorem named?_insertEntry (name key : String) (value : Value) {entries : List (Value × Value)}
    (named : Named entries) :
    named? name (insertEntry (ofString key) value entries) =
      if key = name then some value else named? name entries := by
  induction entries with
  | nil => exact named?_cons name key value []
  | cons entry rest ih =>
    obtain ⟨other, present⟩ := entry
    obtain ⟨⟨own, same⟩, later⟩ := List.forall_mem_cons.mp named
    obtain rfl : other = ofString own := same
    rw [insertEntry, order_ofString]
    cases compared : compare key own with
    | lt => exact named?_cons name key value _
    | eq =>
      obtain rfl := Std.LawfulEqOrd.eq_of_compare compared
      simp only [named?_cons]
      split <;> simp_all
    | gt =>
      have different : key ≠ own := by
        rintro rfl
        simp at compared
      simp only [named?_cons, ih later]
      split <;> split <;> simp_all

/-- The last member of an object for a name counts. -/
theorem attribute?_ofJson (name : String) (members : List (String × Json)) :
    (ofJson (.object members)).attribute? name =
      (members.reverse.find? (·.1 == name)).map fun member => ofJson member.2 := by
  have inserted : ∀ entries, Named entries →
      named? name ((ofJsonMembers members).foldl
          (fun sorted (key, value) => insertEntry key value sorted) entries) =
        ((members.reverse.find? (·.1 == name)).map fun member => ofJson member.2).or
          (named? name entries) := by
    induction members with
    | nil => exact fun entries _ => rfl
    | cons member rest ih =>
      intro entries named
      obtain ⟨key, value⟩ := member
      rw [ofJsonMembers, List.foldl_cons, ih _ (insertEntry_named key (ofJson value) named),
        named?_insertEntry name key (ofJson value) named, List.reverse_cons, List.find?_append]
      cases rest.reverse.find? (·.1 == name) with
      | some => rfl
      | none => by_cases same : key = name <;> simp [same]
  have whole := inserted [] nofun
  rw [show named? name [] = none from rfl, Option.or_none] at whole
  exact whole

end Value

/-- Text, or a variable to show, made inert or as it is. -/
inductive Piece where
  | data (written : String)
  | variable_ (name : String)
  | raw (name : String)
  deriving DecidableEq

namespace Piece

def statement : Piece → Statement
  | .data written => .data written
  | .variable_ name => .value (.variable_ name)
  | .raw name => .value (.filter "safe" (.variable_ name) [] [] [])

/-- What a variable stands for. -/
def valueOf (root : Value) (name : String) : Value :=
  ((root.attribute? name).or (globals.lookup name)).getD .undefined

/-- What a piece adds to the output. -/
def written (root : Value) (escape : String → String) : Piece → String
  | .data written => written
  | .variable_ name => shown escape (valueOf root name)
  | .raw name => (valueOf root name).display

end Piece

theorem shown_ofString (escape : String → String) (written : String) :
    shown escape (.ofString written) = escape written :=
  rfl

/-- The pieces of a template that has nothing else. -/
def pieces? : List Statement → Option (List Piece)
  | [] => some []
  | .data written :: rest => (pieces? rest).map (.data written :: ·)
  | .value (.variable_ name) :: rest => (pieces? rest).map (.variable_ name :: ·)
  | .value (.filter "safe" (.variable_ name) [] [] []) :: rest => (pieces? rest).map (.raw name :: ·)
  | _ => none

theorem pieces?_eq_some {statements : List Statement} {pieces : List Piece}
    (found : pieces? statements = some pieces) : statements = pieces.map Piece.statement := by
  fun_induction pieces? statements generalizing pieces with
  | case1 => cases found; rfl
  | case2 _ rest ih | case3 _ rest ih | case4 _ rest ih =>
    obtain ⟨later, inside, rfl⟩ := Option.map_eq_some_iff.mp found
    rw [ih inside]
    rfl
  | case5 => cases found

/-- Pieces change nothing but the output. -/
theorem runAll_pieces (inputs : Inputs) (invoke : Invoke) (pieces : List Piece) :
    (runAll inputs invoke (pieces.map Piece.statement)).run {} =
      .ended (pieces.foldr (fun piece rest => piece.written inputs.root inputs.escape ++ rest) "", {}) := by
  induction pieces with
  | nil => rfl
  | cons piece rest ih =>
    have first : (run inputs invoke piece.statement).run {} =
        .ended (piece.written inputs.root inputs.escape, {}) := by
      cases piece with
      | data => rfl
      | variable_ name => rfl
      | raw name => rfl
    rw [List.map_cons, runAll, StateT.run_bind, first]
    show (runAll inputs invoke (rest.map Piece.statement)).run {} >>= _ = _
    rw [ih]
    rfl

theorem interpret_pieces {template : String} {pieces : List Piece}
    (parsed : (parse template).toOption.bind pieces? = some pieces) (root : Value)
    (escape : String → String) : interpret root escape template =
      .ended (pieces.foldr (fun piece rest => piece.written root escape ++ rest) "") := by
  obtain ⟨statements, read, found⟩ := Option.bind_eq_some_iff.mp parsed
  cases result : parse template with
  | error => rw [result] at read; cases read
  | ok =>
    rw [result] at read
    obtain rfl := Option.some.inj read
    rw [interpret, result, pieces?_eq_some found]
    show (runAll _ _ _).run {} >>= _ = _
    rw [runAll_pieces]
    rfl

end DocComment.Template
