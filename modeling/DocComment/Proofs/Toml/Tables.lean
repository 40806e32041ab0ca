import DocComment.Proofs.Toml.Values
import DocComment.Toml.Table
import Mathlib.Data.List.Nodup

/-! Statements are read back from the text that they write, and sections of them build tables. A header
leads to a place in the table that is being built, and the assignments after it fill that place, if no name
is given twice. -/
namespace DocComment.Toml

/-- A character that a key can start with. -/
def OpensKey (c : Char) : Prop :=
  isBareKeyChar c = true ∨ c = '"' ∨ c = '\x27'

theorem OpensKey.ne {c d : Char} (opens : OpensKey c) (bare : isBareKeyChar d = false)
    (quotes : d ≠ '"' ∧ d ≠ '\x27') : c ≠ d := by
  rintro rfl
  rcases opens with opens | rfl | rfl
  · rw [bare] at opens
    cases opens
  · exact quotes.1 rfl
  · exact quotes.2 rfl

theorem OpensKey.noBlank {c : Char} (opens : OpensKey c) : isBlank c = false := by
  have space : c ≠ ' ' := opens.ne (by decide) (by decide)
  have tab : c ≠ '\t' := opens.ne (by decide) (by decide)
  simp [isBlank, space, tab]

theorem writeKey_head (key : String) : ∃ c rest, writeKey key = c :: rest ∧ OpensKey c := by
  unfold writeKey
  split
  case isTrue bare =>
    obtain ⟨nonempty, plain⟩ := (Bool.and_eq_true _ _).mp bare
    obtain ⟨c, rest, written⟩ : ∃ c rest, key.toList = c :: rest :=
      List.exists_cons_of_ne_nil (by simpa using nonempty)
    exact ⟨c, rest, written, .inl (List.all_eq_true.mp plain c (by simp [written]))⟩
  case isFalse =>
    obtain ⟨c, rest, written, quote⟩ := write_head (Quoting.ofKey key.toList) key.toList
    exact ⟨c, rest, written, .inr quote⟩

theorem writePath_cons (name : String) {path : List String} (more : path ≠ []) :
    writePath (name :: path) = writeKey name ++ '.' :: writePath path := by
  obtain ⟨second, rest, rfl⟩ := List.exists_cons_of_ne_nil more
  simp [writePath, List.intercalate]

theorem writePath_head {path : List String} (nonempty : path ≠ []) :
    ∃ c rest, writePath path = c :: rest ∧ OpensKey c := by
  obtain ⟨name, others, rfl⟩ := List.exists_cons_of_ne_nil nonempty
  obtain ⟨c, rest, written, opens⟩ := writeKey_head name
  cases others with
  | nil => exact ⟨c, rest, by simp [writePath, written], opens⟩
  | cons second others =>
    exact ⟨c, _, by rw [writePath_cons name (List.cons_ne_nil _ _), written]; rfl, opens⟩

theorem skipBlanks_of_head {c : Char} (rest : List Char) (noBlank : isBlank c = false) :
    skipBlanks (c :: rest) = c :: rest := by
  simp [skipBlanks, noBlank]

theorem length_le_writePath (path : List String) : path.length ≤ (writePath path).length := by
  induction path with
  | nil => exact Nat.zero_le _
  | cons name path ih =>
    obtain ⟨c, rest, written, _⟩ := writeKey_head name
    cases path with
    | nil => simp [writePath, written]
    | cons second path =>
      rw [writePath_cons name (List.cons_ne_nil _ _), written]
      simp only [List.length_append, List.length_cons] at ih ⊢
      omega

/-- A path is read back; blanks after it are skipped. -/
theorem path?_writePath {path : List String} (nonempty : path ≠ []) {rest : List Char}
    (stops : ∀ c, rest.head? = some c → isBareKeyChar c = false)
    (noDot : (skipBlanks rest).head? ≠ some '.') {fuel : Nat} (enough : path.length ≤ fuel) :
    path? fuel (writePath path ++ rest) = some (path, skipBlanks rest) := by
  induction path generalizing fuel with
  | nil => contradiction
  | cons name path ih =>
    obtain ⟨fuel, rfl⟩ := Nat.exists_eq_add_one_of_ne_zero
      (Nat.ne_zero_of_lt (Nat.lt_of_lt_of_le (Nat.succ_pos _) enough))
    obtain ⟨c, others, written, opens⟩ := writeKey_head name
    have start (after : List Char) : skipBlanks (writeKey name ++ after) = writeKey name ++ after := by
      rw [written]
      exact skipBlanks_of_head _ opens.noBlank
    cases path with
    | nil =>
      have single : writePath [name] = writeKey name := by simp [writePath]
      rw [single, path?, start, key?_writeKey name stops, Option.bind_some]
      dsimp only
      split
      case h_1 marked => exact absurd (congrArg List.head? marked) noDot
      case h_2 => rfl
    | cons second path =>
      have inner := ih (List.cons_ne_nil _ _) (Nat.le_of_succ_le_succ enough)
      have dot (after : List Char) : skipBlanks ('.' :: after) = '.' :: after :=
        skipBlanks_of_head _ (by decide)
      rw [writePath_cons name (List.cons_ne_nil _ _), List.append_assoc, path?, start,
        List.cons_append, key?_writeKey name (by rintro _ ⟨⟩; decide), Option.bind_some]
      simp only [dot, inner]
      rfl

/-- A statement that is read back. -/
def Statement.Readable : Statement → Prop
  | .header path => path ≠ []
  | .elementHeader path => path ≠ []
  | .assign path value => path ≠ [] ∧ value.Readable maxDepth

theorem assignment?_write {path : List String} (nonempty : path ≠ []) {depth : Nat} {value : Value}
    (readable : value.Readable depth) (rest : List Char) :
    assignment? (value? depth) (writePath path ++ " = ".toList ++ writeValue value ++ '\n' :: rest) =
      some ((path, value), '\n' :: rest) := by
  have longer := length_le_writePath path
  have blanks : skipBlanks (" = ".toList ++ (writeValue value ++ '\n' :: rest)) =
      '=' :: ' ' :: (writeValue value ++ '\n' :: rest) := by simp [skipBlanks, isBlank]
  obtain ⟨c, others, written, solid⟩ := writeValue_head readable
  have start : skipBlanks (' ' :: (writeValue value ++ '\n' :: rest)) =
      writeValue value ++ '\n' :: rest := by
    have space : skipBlanks (' ' :: (writeValue value ++ '\n' :: rest)) =
        skipBlanks (writeValue value ++ '\n' :: rest) := by simp [skipBlanks, isBlank]
    rw [space, written]
    exact skipBlanks_of_head _ solid.1
  have stops : Stops ('\n' :: rest) := stops_of_not (by decide) (by decide)
  rw [List.append_assoc, List.append_assoc, assignment?, path?_writePath nonempty
    (by rintro _ ⟨⟩; decide) (by rw [blanks]; simp) (by rw [List.length_append]; omega),
    Option.bind_some, blanks]
  simp only [start, value?_writeValue readable stops]
  rfl

/-- A statement is read back up to the end of its line. -/
theorem statement?_write {statement : Statement} (readable : statement.Readable) (rest : List Char) :
    statement? (statement.write ++ rest) = some (statement, '\n' :: rest) := by
  have header (path : List String) (nonempty : path ≠ []) (after : List Char) {fuel : Nat}
      (enough : path.length ≤ fuel) :
      path? fuel (writePath path ++ ']' :: after) = some (path, ']' :: after) := by
    have bracket : skipBlanks (']' :: after) = ']' :: after := skipBlanks_of_head _ (by decide)
    rw [path?_writePath nonempty (by rintro _ ⟨⟩; decide) (by rw [bracket]; simp) enough, bracket]
  cases statement with
  | header path =>
    have longer := length_le_writePath path
    obtain ⟨c, others, written, opens⟩ := writePath_head readable
    have noBracket : c ≠ '[' := opens.ne (by decide) (by decide)
    have whole : Statement.write (.header path) ++ rest = '[' :: (writePath path ++ ']' :: '\n' :: rest) := by
      simp [Statement.write]
    have read := header path readable ('\n' :: rest)
      (show _ ≤ (writePath path ++ ']' :: '\n' :: rest).length + 1 by rw [List.length_append]; omega)
    rw [whole]
    rw [written, List.cons_append] at read ⊢
    rw [statement?]
    · simp only [read, Option.bind_some]
    · simp [noBracket]
  | elementHeader path =>
    have longer := length_le_writePath path
    have whole : Statement.write (.elementHeader path) ++ rest =
        '[' :: '[' :: (writePath path ++ ']' :: ']' :: '\n' :: rest) := by
      simp [Statement.write]
    have read := header path readable (']' :: '\n' :: rest)
      (show _ ≤ (writePath path ++ ']' :: ']' :: '\n' :: rest).length + 1 by
        rw [List.length_append]; omega)
    rw [whole, statement?, read]
    rfl
  | assign path value =>
    obtain ⟨nonempty, readable⟩ := readable
    obtain ⟨c, others, written, opens⟩ := writePath_head nonempty
    have noBracket : c ≠ '[' := opens.ne (by decide) (by decide)
    have read := assignment?_write nonempty readable rest
    have whole : Statement.write (.assign path value) ++ rest =
        writePath path ++ " = ".toList ++ writeValue value ++ '\n' :: rest := by
      simp [Statement.write]
    rw [whole]
    rw [written, List.cons_append, List.cons_append, List.cons_append] at read ⊢
    rw [statement?, read]
    · rfl
    · simp [noBracket]
    · simp [noBracket]

theorem write_head_statement {statement : Statement} (readable : statement.Readable) :
    ∃ c rest, statement.write = c :: rest ∧ (OpensKey c ∨ c = '[') := by
  cases statement with
  | header path => exact ⟨_, _, rfl, .inr rfl⟩
  | elementHeader path => exact ⟨_, _, rfl, .inr rfl⟩
  | assign path value =>
    obtain ⟨c, rest, written, opens⟩ := writePath_head readable.1
    exact ⟨c, _, by rw [Statement.write, written]; rfl, .inl opens⟩

/-- No gap goes into a statement. -/
theorem skipGap?_write {statement : Statement} (readable : statement.Readable) (rest : List Char) :
    skipGap? false (statement.write ++ rest) = some (statement.write ++ rest) := by
  obtain ⟨c, others, written, opens | rfl⟩ := write_head_statement readable
  · rw [written]
    exact skipGap?_end opens.noBlank (opens.ne (by decide) (by decide))
      (opens.ne (by decide) (by decide)) (opens.ne (by decide) (by decide)) _
  · rw [written]
    exact skipGap?_end (by decide) (by decide) (by decide) (by decide) _

/-- Reading goes on after a statement, at the end of its line. -/
theorem statementsFrom?_step {statement : Statement} (readable : statement.Readable) {text rest : List Char}
    (gap : skipGap? false text = some (statement.write ++ rest)) (fuel : Nat) :
    statementsFrom? (fuel + 1) text =
      (statementsFrom? fuel ('\n' :: rest)).map (statement :: ·) := by
  obtain ⟨c, others, written, _⟩ := write_head_statement readable
  have nonempty : (statement.write ++ rest).isEmpty = false := by rw [written]; rfl
  rw [statementsFrom?, gap, Option.bind_some, nonempty, if_neg Bool.false_ne_true,
    statement?_write readable, Option.bind_some]
  simp [endsLine, skipBlanks, isBlank]

theorem statementsFrom?_writeStatements {statements : List Statement}
    (readable : ∀ statement ∈ statements, statement.Readable) {fuel : Nat}
    (enough : statements.length < fuel) :
    statementsFrom? fuel ('\n' :: writeStatements statements) = some statements := by
  induction statements generalizing fuel with
  | nil =>
    obtain ⟨fuel, rfl⟩ := Nat.exists_eq_add_one_of_ne_zero (Nat.ne_zero_of_lt enough)
    rfl
  | cons statement statements ih =>
    obtain ⟨fuel, rfl⟩ := Nat.exists_eq_add_one_of_ne_zero (Nat.ne_zero_of_lt enough)
    obtain ⟨here, later⟩ := List.forall_mem_cons.mp readable
    have start := skipGap?_write here (writeStatements statements)
    have gap : skipGap? false ('\n' :: writeStatements (statement :: statements)) =
        some (statement.write ++ writeStatements statements) := by
      rw [writeStatements]
      cases statement.isHeader <;> simpa [skipGap?] using start
    rw [statementsFrom?_step here gap, ih later (Nat.lt_of_succ_lt_succ enough)]
    rfl

theorem length_le_writeStatements {statements : List Statement}
    (readable : ∀ statement ∈ statements, statement.Readable) :
    statements.length ≤ (writeStatements statements).length := by
  induction statements with
  | nil => exact Nat.zero_le _
  | cons statement statements ih =>
    obtain ⟨here, later⟩ := List.forall_mem_cons.mp readable
    obtain ⟨c, rest, written, _⟩ := write_head_statement here
    have inner := ih later
    simp only [writeStatements, written, List.length_append, List.length_cons]
    omega

/-- Statements are read back from their text. -/
theorem statements?_write {statements : List Statement}
    (readable : ∀ statement ∈ statements, statement.Readable) :
    statements? (String.ofList (write statements)) = some statements := by
  cases statements with
  | nil => rfl
  | cons statement statements =>
    obtain ⟨here, later⟩ := List.forall_mem_cons.mp readable
    have longer := length_le_writeStatements later
    obtain ⟨c, rest, written, opens⟩ := write_head_statement here
    have noMark : c ≠ '\uFEFF' := by
      rcases opens with opens | rfl
      · exact opens.ne (by decide) (by decide)
      · decide
    have enough : statements.length < (write (statement :: statements)).length := by
      simp only [write, written, List.length_append, List.length_cons]
      omega
    have read : statementsFrom? ((write (statement :: statements)).length + 1)
        (write (statement :: statements)) = some (statement :: statements) := by
      have first := statementsFrom?_step here (skipGap?_write here (writeStatements statements))
        (write (statement :: statements)).length
      rwa [statementsFrom?_writeStatements later enough] at first
    have whole : write (statement :: statements) = c :: (rest ++ writeStatements statements) := by
      rw [write, written]
      rfl
    rw [statements?, String.toList_ofList]
    rw [whole] at read ⊢
    simpa [noMark] using read

end DocComment.Toml

namespace DocComment.Toml.Node

/-- Assignments of one name each. -/
def settings (entries : Table) : List Statement :=
  entries.map fun entry => .assign [entry.1] entry.2

/-- What such assignments put into a table. -/
def given (entries : Table) : Members :=
  entries.map fun entry => (entry.1, .value entry.2)

/-- A place in a table, by what stands around it, is where a path leads. -/
def Leads (path : List String) (around : Members → Members) : Prop :=
  ∀ change inner, descend? change path (around inner) = (change inner).map around

variable {path : List String} {around : Members → Members} {before inner : Members} {name : String}

theorem leads_nil : Leads [] id := by
  intro change inner
  rw [descend?, id, Option.map_id]
  rfl

theorem descend?_append (change : Members → Option Members) (path rest : List String)
    (members : Members) :
    descend? change (path ++ rest) members = descend? (descend? change rest) path members := by
  induction path generalizing members with
  | nil => rfl
  | cons name path ih => simp only [List.cons_append, descend?, ih]

theorem lookup_append_new (unused : before.lookup name = none) (node : Node) :
    (before ++ [(name, node)]).lookup name = some node := by
  simp [List.lookup_append, unused]

/-- A name that is not there is not replaced. -/
theorem replace_unused (unused : before.lookup name = none) (node : Node) :
    replace name node before = before := by
  induction before with
  | nil => rfl
  | cons entry before ih =>
    obtain ⟨other, old⟩ := entry
    by_cases same : name = other
    · simp [same] at unused
    · have apart : (other == name) = false := beq_false_of_ne (Ne.symm same)
      have rest : before.lookup name = none := by
        simpa [List.lookup_cons, beq_false_of_ne same] using unused
      have kept := ih rest
      simp only [replace] at kept ⊢
      rw [List.map_cons, kept, apart]
      rfl

theorem replace_append_new (unused : before.lookup name = none) (old node : Node) :
    replace name node (before ++ [(name, old)]) = before ++ [(name, node)] := by
  have kept := replace_unused unused node
  simp only [replace, List.map_append] at kept ⊢
  rw [kept]
  simp

/-- Into a table. -/
theorem Leads.table (leads : Leads path around) (unused : before.lookup name = none) (origin : Origin) :
    Leads (path ++ [name]) fun inner => around (before ++ [(name, .table origin inner)]) := by
  intro change inner
  rw [descend?_append, leads, descend?, lookup_append_new unused]
  cases changed : change inner <;> simp [descend?, changed, replace_append_new unused]

/-- Into the last element of an array of tables. -/
theorem Leads.element (leads : Leads path around) (unused : before.lookup name = none)
    (elements : List Members) :
    Leads (path ++ [name]) fun inner => around (before ++ [(name, .tables (elements ++ [inner]))]) := by
  intro change inner
  rw [descend?_append, leads, descend?, lookup_append_new unused]
  cases changed : change inner <;> simp [descend?, changed, replace_append_new unused]

theorem follow?_header (leads : Leads path around) (unused : before.lookup name = none)
    (last : List String) :
    follow? (last, around before) (.header (path ++ [name])) =
      some (path ++ [name], around (before ++ [(name, .table .header [])])) := by
  simp [follow?, leads _ before, declare?, unused]

/-- A header with a longer path implies the table that it passes. -/
theorem follow?_implied (leads : Leads path around) {outer : String}
    (unused : before.lookup outer = none) (last : List String) :
    follow? (last, around before) (.header (path ++ [outer] ++ [name])) =
      some (path ++ [outer] ++ [name],
        around (before ++ [(outer, .table .implied [(name, .table .header [])])])) := by
  simp [follow?, descend?_append, leads _ before, descend?, declare?, unused]

/-- An array of tables, if there is any element. -/
def filed (name : String) (elements : List Members) : Members :=
  if elements.isEmpty then [] else [(name, .tables elements)]

@[simp] theorem filed_nil (name : String) : filed name [] = [] :=
  rfl

@[simp] theorem filed_append (name : String) (elements : List Members) (last : Members) :
    filed name (elements ++ [last]) = [(name, .tables (elements ++ [last]))] := by
  simp [filed]

/-- The header of an element begins the array or makes it longer. -/
theorem follow?_elementHeader (leads : Leads path around) (unused : before.lookup name = none)
    (elements : List Members) (last : List String) :
    follow? (last, around (before ++ filed name elements)) (.elementHeader (path ++ [name])) =
      some (path ++ [name], around (before ++ filed name (elements ++ [[]]))) := by
  rw [filed_append]
  cases elements with
  | nil => simp [follow?, leads _ before, declareElement?, unused, filed]
  | cons first others =>
    simp [filed, follow?, leads _ (before ++ _), declareElement?, lookup_append_new unused,
      replace_append_new unused]

theorem follow?_setting (leads : Leads path around) (unused : inner.lookup name = none) (value : Value) :
    follow? (path, around inner) (.assign [name] value) =
      some (path, around (inner ++ [(name, .value value)])) := by
  simp [follow?, leads _ inner, assign?, unused]

/-- Assignments fill the place that the last header leads to. -/
theorem follow_settings (leads : Leads path around) (inner : Members) (entries : Table)
    (distinct : (entries.map Prod.fst).Nodup)
    (unused : ∀ entry ∈ entries, inner.lookup entry.1 = none) :
    (settings entries).foldlM follow? (path, around inner) =
      some (path, around (inner ++ given entries)) := by
  induction entries generalizing inner with
  | nil => simp [settings, given]
  | cons entry entries ih =>
    obtain ⟨name, given⟩ := entry
    obtain ⟨here, later⟩ := List.forall_mem_cons.mp unused
    rw [List.map_cons, List.nodup_cons] at distinct
    have step := follow?_setting leads here given
    have free : ∀ entry ∈ entries, (inner ++ [(name, Node.value given)]).lookup entry.1 = none := by
      intro entry member
      have there : entry.1 ∈ entries.map Prod.fst := List.mem_map_of_mem member
      have other : entry.1 ≠ name := fun same => distinct.1 (same ▸ there)
      simp [List.lookup_append, later entry member, List.lookup_cons, beq_false_of_ne other]
    have rest := ih (inner ++ [(name, .value given)]) distinct.2 free
    simp only [settings, List.map_cons, List.foldlM_cons] at rest ⊢
    rw [step, Option.bind_eq_bind, Option.bind_some, rest]
    simp [Node.given]

/-- A section: a header, and assignments that fill its table. -/
theorem follow_section (leads : Leads path around) (unused : before.lookup name = none) (entries : Table)
    (distinct : (entries.map Prod.fst).Nodup) (last : List String) :
    (.header (path ++ [name]) :: settings entries).foldlM follow? (last, around before) =
      some (path ++ [name], around (before ++ [(name, .table .header (given entries))])) := by
  have filled := follow_settings (leads.table unused .header) [] entries distinct (by simp)
  rw [List.foldlM_cons, follow?_header leads unused, Option.bind_eq_bind, Option.bind_some]
  exact filled

theorem follow_append {first second : List Statement} {state between after : List String × Members}
    (begins : first.foldlM follow? state = some between)
    (ends : second.foldlM follow? between = some after) :
    (first ++ second).foldlM follow? state = some after := by
  rw [List.foldlM_append, begins, Option.bind_eq_bind, Option.bind_some, ends]

theorem finishMembers_append (first second : Members) :
    finishMembers (first ++ second) = finishMembers first ++ finishMembers second := by
  induction first with
  | nil => rfl
  | cons entry first ih => simp [finishMembers, ih]

theorem finishMembers_given (entries : Table) : finishMembers (given entries) = entries := by
  induction entries with
  | nil => rfl
  | cons entry entries ih =>
    have rest : finishMembers (entries.map fun entry => (entry.1, Node.value entry.2)) = entries := ih
    simp [given, finishMembers, finish, rest]

theorem finishElements_map {α : Type} (build : α → Members) (items : List α) :
    finishElements (items.map build) = items.map fun item => .table (finishMembers (build item)) := by
  induction items with
  | nil => rfl
  | cons item items ih => simp [finishElements, ih]

end DocComment.Toml.Node
