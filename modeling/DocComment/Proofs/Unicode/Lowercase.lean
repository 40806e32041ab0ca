import DocComment.Unicode.Case

/-! Lowercase text. What lowercasing yields it leaves as it is. The form of a sigma hangs on what is
around it, but not beyond a character without case that is not ignored: there a text can be cut. -/
namespace DocComment.Unicode

namespace CaseRun

theorem covers_iff {run : CaseRun} {code : Nat} :
    run.covers code = true ↔
      run.first ≤ code ∧ code ≤ run.last ∧ (code - run.first) % run.step = 0 := by
  simp [covers, and_assoc]

/-- No image of `run` is a code point of `other`: it lies below it, above it or between its steps. -/
def misses (run other : CaseRun) : Bool :=
  Nat.blt (run.last + run.offset).toNat other.first ||
    Nat.blt other.last (run.first + run.offset).toNat ||
    (run.step == 2 || run.first == run.last) && other.step == 2 &&
      ((run.first + run.offset).toNat - other.first) % 2 == 1

theorem not_covers_of_misses {run other : CaseRun} (misses : run.misses other = true) {code : Nat}
    (covered : run.covers code = true) : other.covers (code + run.offset).toNat = false := by
  obtain ⟨above, below, stepped⟩ := covers_iff.mp covered
  rw [← Bool.not_eq_true, covers_iff]
  rintro ⟨above', below', stepped'⟩
  simp only [CaseRun.misses, Bool.or_eq_true, Bool.and_eq_true, Nat.blt_eq, beq_iff_eq] at misses
  rcases misses with (low | high) | ⟨⟨two | single, two'⟩, odd⟩
  · omega
  · omega
  · rw [two] at stepped
    rw [two'] at stepped'
    omega
  · rw [two'] at stepped'
    omega

end CaseRun

/-- Lowercasing leaves the character as it is, wherever it stands. -/
def IsLower (c : Char) : Prop :=
  lowerChar c = [c] ∧ c.toNat ≠ 931

instance (c : Char) : Decidable (IsLower c) :=
  inferInstanceAs (Decidable (_ ∧ _))

set_option maxRecDepth 2000 in
/-- The images of the lowercase mapping are characters other than the dotted capital I. -/
theorem lowerRuns_image : ∀ run ∈ lowerRuns,
    (97 ≤ run.first + run.offset ∧ (run.last + run.offset ≤ 122 ∨ 128 ≤ run.first + run.offset)) ∧
    (run.last + run.offset < 304 ∨ 304 < run.first + run.offset) ∧
    (run.last + run.offset < 0xd800 ∨
      0xdfff < run.first + run.offset ∧ run.last + run.offset < 0x110000) := by
  decide

/-- What a run yields, no run moves any further. -/
theorem lowerRuns_settle : (lowerRuns.all fun run => lowerRuns.all run.misses) = true := by
  decide +kernel

theorem isLower_ascii : ∀ code < 128, IsLower (Char.ofNat code).toLower := by
  decide

theorem isLower_letters : ∀ code < 123, 97 ≤ code → IsLower (Char.ofNat code) := by
  decide

/-- The dotted capital I is the only character beyond the runs that changes. -/
theorem isLower_of_uncovered {c : Char} (wide : 128 ≤ c.toNat) (undotted : c.toNat ≠ 304)
    (uncovered : ∀ run ∈ lowerRuns, run.covers c.toNat = false) : IsLower c := by
  constructor
  · have found : lowerRuns.find? (·.covers c.toNat) = none :=
      List.find?_eq_none.mpr fun run member => by simp [uncovered run member]
    have narrow : ¬ c.toNat < 128 := Nat.not_lt.mpr wide
    simp [lowerChar, shiftCase, narrow, undotted, found]
  · intro sigma
    rw [sigma] at uncovered
    exact absurd uncovered (by decide)

theorem isLower_shiftCase {c : Char} (wide : 128 ≤ c.toNat) (undotted : c.toNat ≠ 304) :
    IsLower (Char.ofNat (shiftCase lowerRuns c.toNat)) := by
  rw [shiftCase]
  split
  case h_2 outside =>
    rw [Char.ofNat_toNat]
    refine isLower_of_uncovered wide undotted fun run member => ?_
    simpa using List.find?_eq_none.mp outside run member
  case h_1 run found =>
    have covered : run.covers c.toNat = true := (List.find?_eq_some_iff_append.mp found).1
    obtain ⟨above, below, -⟩ := CaseRun.covers_iff.mp covered
    have listed := List.mem_of_find?_eq_some found
    obtain ⟨⟨low, ascii⟩, undotted', valid⟩ := lowerRuns_image run listed
    have reached : ∀ other ∈ lowerRuns, other.covers (c.toNat + run.offset).toNat = false := by
      have settles := List.all_eq_true.mp lowerRuns_settle run listed
      exact fun other member =>
        CaseRun.not_covers_of_misses (List.all_eq_true.mp settles other member) covered
    generalize image : (c.toNat + run.offset).toNat = code at reached ⊢
    rcases ascii with letter | wide'
    · exact isLower_letters code (by omega) (by omega)
    · have same : (Char.ofNat code).toNat = code := by
        have isChar : code.isValidChar := by
          unfold Nat.isValidChar
          omega
        rw [Char.ofNat, dif_pos isChar]
        rfl
      apply isLower_of_uncovered <;> rw [same]
      · omega
      · omega
      · exact reached

theorem isLower_of_mem_lowerChar {c d : Char} (member : d ∈ lowerChar c) : IsLower d := by
  rw [lowerChar] at member
  split at member
  case isTrue ascii =>
    rw [List.mem_singleton.mp member, ← Char.ofNat_toNat c]
    exact isLower_ascii c.toNat ascii
  case isFalse wide =>
    split at member
    case isTrue =>
      have dotted : IsLower 'i' ∧ IsLower (Char.ofNat 775) := by decide
      rcases List.mem_cons.mp member with rfl | second
      · exact dotted.1
      · exact List.mem_singleton.mp second ▸ dotted.2
    case isFalse undotted =>
      rw [List.mem_singleton.mp member]
      exact isLower_shiftCase (Nat.le_of_not_lt wide) (by simpa using undotted)

theorem isLower_of_mem_lowerFrom {seen text : List Char} {d : Char}
    (member : d ∈ lowerFrom seen text) : IsLower d := by
  induction text generalizing seen with
  | nil => cases member
  | cons c rest ih =>
    rw [lowerFrom] at member
    rcases List.mem_append.mp member with own | later
    · split at own
      · have sigmas : IsLower (Char.ofNat 962) ∧ IsLower (Char.ofNat 963) := by decide
        split at own
        · exact List.mem_singleton.mp own ▸ sigmas.1
        · exact List.mem_singleton.mp own ▸ sigmas.2
      · exact isLower_of_mem_lowerChar own
    · exact ih later

theorem lowerFrom_concat {c : Char} (other : c.toNat ≠ 931) (seen text : List Char) :
    ∃ front, lowerFrom seen (text ++ [c]) = front ++ lowerChar c := by
  induction text generalizing seen with
  | nil => exact ⟨[], by simp [lowerFrom, beq_false_of_ne other]⟩
  | cons d rest ih =>
    obtain ⟨front, same⟩ := ih (d :: seen)
    rw [List.cons_append, lowerFrom, same]
    exact ⟨_, (List.append_assoc _ front (lowerChar c)).symm⟩

theorem lowerFrom_cons {c : Char} (settled : IsLower c) (seen rest : List Char) :
    lowerFrom seen (c :: rest) = c :: lowerFrom (c :: seen) rest := by
  have other : (c.toNat == 931) = false := beq_false_of_ne settled.2
  simp [lowerFrom, other, settled.1]

theorem lowerFrom_eq_self {text : List Char} (settled : ∀ c ∈ text, IsLower c) (seen : List Char) :
    lowerFrom seen text = text := by
  induction text generalizing seen with
  | nil => rfl
  | cons c rest ih =>
    obtain ⟨own, later⟩ := List.forall_mem_cons.mp settled
    rw [lowerFrom_cons own, ih later]

theorem lower_eq_self {text : List Char} (settled : ∀ c ∈ text, IsLower c) : lower text = text :=
  lowerFrom_eq_self settled []

/-- A character without case that is not ignored when the case around a sigma is looked up. -/
structure IsBreak (c : Char) : Prop where
  lower : IsLower c
  uncased : casedRanges.contains c = false
  visible : caseIgnorableRanges.contains c = false

instance (c : Char) : Decidable (IsBreak c) :=
  decidable_of_iff (IsLower c ∧ casedRanges.contains c = false ∧ caseIgnorableRanges.contains c = false)
    ⟨fun ⟨lower, uncased, visible⟩ => ⟨lower, uncased, visible⟩,
      fun ⟨lower, uncased, visible⟩ => ⟨lower, uncased, visible⟩⟩

theorem IsBreak.startsCased {c : Char} (stops : IsBreak c) (rest : List Char) :
    startsCased (c :: rest) = false := by
  simp [Unicode.startsCased, stops.visible, stops.uncased]

/-- Case is looked up in the second part if all of the first is ignored. -/
theorem startsCased_append (start rest : List Char) :
    startsCased (start ++ rest) =
      if start.all caseIgnorableRanges.contains then startsCased rest else startsCased start := by
  induction start with
  | nil => rfl
  | cons c more ih =>
    by_cases ignored : caseIgnorableRanges.contains c = true
    · simpa [startsCased, ignored] using ih
    · simp [startsCased, ignored]

theorem startsCased_append_uncased (start : List Char) {rest : List Char}
    (uncased : startsCased rest = false) : startsCased (start ++ rest) = startsCased start := by
  rw [startsCased_append]
  split
  · rename_i ignored
    have alone := startsCased_append start []
    rw [if_pos ignored, List.append_nil] at alone
    rw [uncased, alone]
    rfl
  · rfl

/-- Of what came before, lowercasing asks only whether it ends in case. -/
theorem lowerFrom_congr {seen seen' : List Char} (same : startsCased seen = startsCased seen')
    (text : List Char) : lowerFrom seen text = lowerFrom seen' text := by
  induction text generalizing seen seen' with
  | nil => rfl
  | cons c rest ih =>
    have later : startsCased (c :: seen) = startsCased (c :: seen') := by
      rw [← List.singleton_append, startsCased_append, same, ← startsCased_append,
        List.singleton_append]
    rw [lowerFrom, lowerFrom, same, ih later]

theorem lowerFrom_append_uncased {rest : List Char} (uncased : startsCased rest = false)
    (seen text : List Char) :
    lowerFrom seen (text ++ rest) = lowerFrom seen text ++ lowerFrom (text.reverse ++ seen) rest := by
  induction text generalizing seen with
  | nil => rfl
  | cons c more ih =>
    simp [lowerFrom, ih, startsCased_append_uncased more uncased]

/-- Neither side of a break is looked at when the other is lowercased. -/
theorem lower_break {c : Char} (stops : IsBreak c) (start rest : List Char) :
    lower (start ++ c :: rest) = lower start ++ c :: lower rest := by
  have fresh : startsCased (c :: (start.reverse ++ [])) = startsCased [] := stops.startsCased _
  rw [lower, lowerFrom_append_uncased (stops.startsCased rest), lowerFrom_cons stops.lower,
    lowerFrom_congr fresh]
  rfl

theorem lower_breaks {gap : List Char} (stops : ∀ c ∈ gap, IsBreak c) (rest : List Char) :
    lower (gap ++ rest) = gap ++ lower rest := by
  induction gap with
  | nil => rfl
  | cons c more ih =>
    obtain ⟨own, later⟩ := List.forall_mem_cons.mp stops
    have cut := lower_break own [] (more ++ rest)
    rwa [ih later] at cut

/-- What a gap divides is lowercased part by part. -/
theorem lower_gap {gap : List Char} (stops : ∀ c ∈ gap, IsBreak c) (nonempty : gap ≠ [])
    (start rest : List Char) : lower (start ++ gap ++ rest) = lower start ++ gap ++ lower rest := by
  obtain ⟨c, more, rfl⟩ := List.exists_cons_of_ne_nil nonempty
  obtain ⟨own, later⟩ := List.forall_mem_cons.mp stops
  rw [List.append_assoc, List.cons_append, lower_break own, lower_breaks later, List.append_assoc,
    List.cons_append]

theorem lower_append_breaks {gap : List Char} (stops : ∀ c ∈ gap, IsBreak c) (start : List Char) :
    lower (start ++ gap) = lower start ++ gap := by
  by_cases empty : gap = []
  · simp [empty]
  · have cut := lower_gap stops empty start []
    rwa [show lower [] = [] from rfl, List.append_nil, List.append_nil] at cut

end DocComment.Unicode
