import DocComment.FileTree
import Mathlib.Data.List.Basic

namespace DocComment.FileTree

variable {tree after : FileTree} {location here next : List String} {entry : FileEntry}

theorem entry?_set_self (nonempty : location ≠ []) :
    FileTree.entry? (tree.set location entry) location = some entry := by
  have gone : (tree.entries.filter (·.1 != location)).lookup location = none := by
    rw [List.lookup_eq_none_iff]
    intro other member
    have apart : other.1 ≠ location := by simpa using (List.mem_filter.mp member).2
    exact bne_iff_ne.mpr apart.symm
  simp [FileTree.entry?, set, nonempty, List.lookup_append, gone]

theorem lookup_filter_other {entries : List (List String × FileEntry)} (other : here ≠ location) :
    (entries.filter (·.1 != location)).lookup here = entries.lookup here := by
  induction entries with
  | nil => rfl
  | cons first entries ih =>
    obtain ⟨place, old⟩ := first
    by_cases same : place = location
    · subst same
      simp [List.lookup_cons, beq_false_of_ne other, ih]
    · simp [same, List.lookup_cons, ih]

theorem entry?_set_other (other : here ≠ location) :
    FileTree.entry? (tree.set location entry) here = tree.entry? here := by
  simp [FileTree.entry?, set, List.lookup_append, lookup_filter_other other, List.lookup_cons,
    beq_false_of_ne other]

/-- Where no directory is, a file may come without any directory being lost. -/
theorem isDirectory_set (noDirectory : tree.isDirectory location = false)
    (open_ : tree.isDirectory here = true) : (tree.set location entry).isDirectory here = true := by
  have other : here ≠ location := by
    rintro rfl
    cases noDirectory.symm.trans open_
  rw [isDirectory, entry?_set_other other]
  exact open_

/-- A step that was open stays so. -/
theorem step?_set (noDirectory : tree.isDirectory location = false) {name : String}
    (step : tree.step? here name = some next) : (tree.set location entry).step? here name = some next := by
  rw [step?] at step ⊢
  cases open_ : tree.isDirectory here with
  | false => simp [open_] at step
  | true =>
    have there : (tree.entry? (here ++ [name])).isSome →
        (FileTree.entry? (tree.set location entry) (here ++ [name])).isSome := by
      by_cases same : here ++ [name] = location
      · rw [same, entry?_set_self (same ▸ List.append_ne_nil_of_right_ne_nil _ (List.cons_ne_nil _ _))]
        exact fun _ => rfl
      · rw [entry?_set_other same]
        exact id
    rw [isDirectory_set noDirectory open_]
    rw [open_] at step
    grind

theorem foldlM_step?_set (noDirectory : tree.isDirectory location = false) {names : List String}
    (way : names.foldlM tree.step? here = some next) :
    names.foldlM (tree.set location entry).step? here = some next := by
  induction names generalizing here with
  | nil => exact way
  | cons name names ih =>
    rw [List.foldlM_cons] at way ⊢
    obtain ⟨between, step, rest⟩ := Option.bind_eq_some_iff.mp way
    rw [step?_set noDirectory step]
    exact ih rest

/-- A path that was written leads to a file with what was written. -/
theorem locate?_writeFile? {path : String} {bytes : List UInt8}
    (written : tree.writeFile? path bytes = some after) :
    ∃ location, after.locate? path = some location ∧ after.entry? location = some (.file bytes) := by
  rw [writeFile?] at written
  obtain ⟨name, last, written⟩ := Option.bind_eq_some_iff.mp written
  obtain ⟨directory, way, written⟩ := Option.bind_eq_some_iff.mp written
  obtain ⟨allowed, made⟩ := Option.ite_none_left_eq_some.mp written
  cases made
  simp only [Bool.or_eq_true, not_or, Bool.not_eq_true, Bool.not_eq_false', beq_eq_false_iff_ne] at allowed
  obtain ⟨⟨⟨moves, descends⟩, open_⟩, noDirectory⟩ := allowed
  have nonempty : directory ++ [name] ≠ [] := List.append_ne_nil_of_right_ne_nil _ (List.cons_ne_nil _ _)
  refine ⟨directory ++ [name], ?_, entry?_set_self nonempty⟩
  have parts : names path = (names path).dropLast ++ [name] :=
    (List.dropLast_append_getLast? name last).symm
  rw [locate?, parts, List.foldlM_append, foldlM_step?_set noDirectory way]
  simp [step?, isDirectory_set noDirectory open_, moves, descends, entry?_set_self nonempty]

end DocComment.FileTree
