import DocComment.Proofs.Markup.Lines
import DocComment.Proofs.Text.RawLines

namespace DocComment.Markup

@[simp] theorem joinLines_single (line : List Char) : Text.joinLines [line] = line := by
  simp [Text.joinLines, List.intercalate]

theorem joinLines_append {lines more : List (List Char)} (nonempty : lines ≠ []) (someMore : more ≠ []) :
    Text.joinLines (lines ++ more) = Text.joinLines lines ++ '\n' :: Text.joinLines more := by
  induction lines with
  | nil => exact absurd rfl nonempty
  | cons line others ih =>
    cases others with
    | nil =>
      rw [List.singleton_append, joinLines_cons someMore]
      simp
    | cons next rest =>
      have next_ := List.cons_ne_nil next rest
      rw [List.cons_append, joinLines_cons (List.append_ne_nil_of_left_ne_nil next_ _), ih next_,
        joinLines_cons next_, List.append_assoc]
      rfl

theorem joinLines_getLast? (before : List (List Char)) {last : List Char} (nonempty : last ≠ []) :
    (Text.joinLines (before ++ [last])).getLast? = last.getLast? := by
  cases before with
  | nil => simp
  | cons line more =>
    obtain ⟨c, rest, rfl⟩ := List.exists_cons_of_ne_nil nonempty
    rw [joinLines_append (List.cons_ne_nil line more) (List.cons_ne_nil _ []), joinLines_single,
      List.getLast?_append]
    simp [List.getLast?_cons]

theorem mem_joinLines {lines : List (List Char)} {c : Char} (member : c ∈ Text.joinLines lines) :
    c = '\n' ∨ ∃ line ∈ lines, c ∈ line := by
  induction lines with
  | nil => cases member
  | cons line others ih =>
    cases others with
    | nil => exact .inr ⟨line, List.mem_cons_self, by simpa using member⟩
    | cons next rest =>
      rw [joinLines_cons (List.cons_ne_nil next rest)] at member
      rcases List.mem_append.mp member with own | after
      · exact .inr ⟨line, List.mem_cons_self, own⟩
      · rcases List.mem_cons.mp after with ends | later
        · exact .inl ends
        · rcases ih later with ends | ⟨other, among, inside⟩
          · exact .inl ends
          · exact .inr ⟨other, List.mem_cons_of_mem line among, inside⟩

/-- Empty lines between lines are as many line ends. -/
theorem joinLines_gap {lines more : List (List Char)} (nonempty : lines ≠ []) (someMore : more ≠ [])
    (gap : Nat) : Text.joinLines (lines ++ (List.replicate gap [] ++ more)) =
      Text.joinLines lines ++ (List.replicate (gap + 1) '\n' ++ Text.joinLines more) := by
  have empty : Text.joinLines (List.replicate gap [] ++ more) =
      List.replicate gap '\n' ++ Text.joinLines more := by
    induction gap with
    | zero => rfl
    | succ gap ih =>
      rw [List.replicate_succ, List.cons_append,
        joinLines_cons (List.append_ne_nil_of_right_ne_nil _ someMore), ih]
      rfl
  rw [joinLines_append nonempty (List.append_ne_nil_of_right_ne_nil _ someMore), empty]
  rfl

theorem joinLines_padded {lines : List (List Char)} (nonempty : lines ≠ []) (gap : Nat) :
    Text.joinLines (lines ++ List.replicate gap []) = Text.joinLines lines ++ List.replicate gap '\n' := by
  induction gap generalizing lines with
  | zero => simp
  | succ gap ih =>
    have next := ih (List.append_ne_nil_of_left_ne_nil nonempty [[]])
    have ended := joinLines_append nonempty (List.cons_ne_nil [] [])
    rw [List.replicate_succ, List.append_cons, next, ended]
    simp [List.replicate_succ]

theorem contents_line {line : List Char} (rest : List Char) (inLine : ∀ c ∈ line, c ≠ '\n' ∧ c ≠ '\r') :
    contents (line ++ '\n' :: rest) = line :: contents rest := by
  rw [contents, linesOf_whole rest inLine]
  rfl

theorem contents_single {line : List Char} (nonempty : line ≠ [])
    (inLine : ∀ c ∈ line, c ≠ '\n' ∧ c ≠ '\r') : contents line = [line] := by
  rw [contents, linesOf_single line nonempty inLine]
  rfl

theorem contents_lineEnds (count : Nat) : contents (List.replicate count '\n') = List.replicate count [] := by
  induction count with
  | zero => rfl
  | succ count ih => rw [List.replicate_succ, contents_lineEnd, ih, List.replicate_succ]

theorem splitBy_lineEnds (count : Nat) :
    Text.splitBy (· == '\n') (List.replicate count '\n') = List.replicate (count + 1) [] := by
  induction count with
  | zero => rfl
  | succ count ih =>
    rw [List.replicate_succ, List.replicate_succ, ← ih]
    exact Text.splitBy_line List.not_mem_nil _

/-- The lines of a text, from its pieces. -/
theorem lines_of_split {text last : List Char} {before : List (List Char)}
    (split : Text.splitBy (· == '\n') text = before ++ [last])
    (inLine : ∀ line ∈ before, ∀ c ∈ line, c ≠ '\n' ∧ c ≠ '\r') :
    Text.lines text = before ++ if last = [] then [] else [last] := by
  have strip : (before.map fun line => if line.getLast? == some '\r' then line.dropLast else line) =
      before := by
    rw [List.map_congr_left fun line member => ?_, List.map_id]
    have last : line.getLast? ≠ some '\r' := fun same =>
      (inLine line member _ (List.mem_of_getLast? same)).2 rfl
    rw [beq_false_of_ne last]
    rfl
  have ends : (if (before ++ [last]).getLast? == some [] then []
      else (before ++ [last]).getLast?.toList) = if last = [] then [] else [last] := by
    by_cases empty : last = [] <;> simp [empty]
  have all : Text.lines text = ((before ++ [last]).dropLast.map fun line =>
      if line.getLast? == some '\r' then line.dropLast else line) ++
        (if (before ++ [last]).getLast? == some [] then [] else (before ++ [last]).getLast?.toList) := by
    unfold Text.lines
    rw [split]
    cases before <;> rfl
  rw [all, ends, List.dropLast_concat, strip]

/-- A text on these lines, the last of them not empty, with line ends after it. -/
structure OnLines (text : List Char) (lines : List (List Char)) (ends : Nat) : Prop where
  same : text = Text.joinLines lines ++ List.replicate ends '\n'
  inLine : ∀ line ∈ lines, ∀ c ∈ line, c ≠ '\n' ∧ c ≠ '\r'
  shown : ∃ before last, lines = before ++ [last] ∧ last ≠ []

namespace OnLines

variable {text : List Char} {lines : List (List Char)} {ends : Nat}

theorem ne_nil (on : OnLines text lines ends) : lines ≠ [] := by
  obtain ⟨before, last, rfl, _⟩ := on.shown
  simp

theorem last_ne_nil {before : List (List Char)} {last : List Char}
    (on : OnLines text (before ++ [last]) ends) : last ≠ [] := by
  obtain ⟨start, final, same, nonempty⟩ := on.shown
  obtain ⟨_, final_⟩ := List.append_inj' same rfl
  rwa [(List.cons.inj final_).1]

theorem of_lines {before : List (List Char)} {last : List Char} (nonempty : last ≠ [])
    (inLine : ∀ line ∈ before ++ [last], ∀ c ∈ line, c ≠ '\n' ∧ c ≠ '\r') :
    OnLines (Text.joinLines (before ++ [last])) (before ++ [last]) 0 :=
  ⟨(List.append_nil _).symm, inLine, before, last, rfl, nonempty⟩

theorem of_shown {lines : List (List Char)} (nonempty : lines ≠ []) (shown : ∀ line ∈ lines, line ≠ [])
    (inLine : ∀ line ∈ lines, ∀ c ∈ line, c ≠ '\n' ∧ c ≠ '\r') : OnLines (Text.joinLines lines) lines 0 := by
  obtain ⟨before, last, rfl⟩ := (List.eq_nil_or_concat' lines).resolve_left nonempty
  exact of_lines (shown last (by simp)) inLine

theorem single {line : List Char} (nonempty : line ≠ []) (inLine : ∀ c ∈ line, c ≠ '\n' ∧ c ≠ '\r') :
    OnLines line [line] 0 := by
  have on := @of_lines [] line nonempty (by simpa using inLine)
  simpa using on

/-- Line ends after a text on lines. -/
theorem ended (on : OnLines text lines ends) (more : Nat) :
    OnLines (text ++ List.replicate more '\n') lines (ends + more) := by
  refine ⟨?_, on.inLine, on.shown⟩
  rw [on.same, List.append_assoc, List.replicate_append_replicate]

/-- One text after another. -/
theorem append (on : OnLines text lines ends) {more : List Char} {others : List (List Char)} {last : Nat}
    (next : OnLines more others last) :
    OnLines (text ++ '\n' :: more) (lines ++ (List.replicate ends [] ++ others)) last := by
  refine ⟨?_, ?_, ?_⟩
  · rw [joinLines_gap on.ne_nil next.ne_nil, on.same, next.same, List.replicate_succ']
    simp
  · intro line member
    rcases List.mem_append.mp member with first | later
    · exact on.inLine line first
    · rcases List.mem_append.mp later with gap | other
      · rw [(List.mem_replicate.mp gap).2]
        simp
      · exact next.inLine line other
  · obtain ⟨before, final, same, nonempty⟩ := next.shown
    exact ⟨lines ++ (List.replicate ends [] ++ before), final, by simp [same], nonempty⟩

/-- What is found line by line in a text on lines. -/
theorem each {read : List Char → List (List Char)} {left : List (List Char)}
    (final : ∀ line : List Char, line ≠ [] → (∀ c ∈ line, c ≠ '\n' ∧ c ≠ '\r') →
      read (line ++ List.replicate ends '\n') = line :: left)
    (next : ∀ line rest : List Char, (∀ c ∈ line, c ≠ '\n' ∧ c ≠ '\r') →
      read (line ++ '\n' :: rest) = line :: read rest)
    (on : OnLines text lines ends) : read text = lines ++ left := by
  obtain ⟨rfl, inLine, before, last, rfl, nonempty⟩ := on
  obtain ⟨first, own⟩ := List.forall_mem_append.mp inLine
  have ownLine := final last nonempty (own last List.mem_cons_self)
  clear inLine own
  induction before with
  | nil => simpa using ownLine
  | cons line more ih =>
    obtain ⟨start, later⟩ := List.forall_mem_cons.mp first
    rw [List.cons_append, joinLines_cons (by simp), List.append_assoc, List.cons_append,
      next _ _ start, ih later]
    rfl

theorem plain (on : OnLines text lines ends) : ∀ c ∈ text, c ≠ '\r' := by
  intro c member
  rw [on.same] at member
  rcases List.mem_append.mp member with joined | after
  · rcases mem_joinLines joined with rfl | ⟨line, among, inside⟩
    · decide
    · exact (on.inLine line among c inside).2
  · rw [(List.mem_replicate.mp after).2]
    decide

/-- The lines that a reader sees. -/
theorem contents (on : OnLines text lines ends) :
    contents text = lines ++ List.replicate (ends - 1) [] := by
  refine on.each (fun line nonempty inLine => ?_) fun line rest => contents_line rest
  cases ends with
  | zero => simpa using contents_single nonempty inLine
  | succ count =>
    rw [List.replicate_succ, contents_line _ inLine, contents_lineEnds, Nat.add_sub_cancel]

theorem splitBy (on : OnLines text lines ends) :
    Text.splitBy (· == '\n') text = lines ++ List.replicate ends [] := by
  have oneLine {line : List Char} (inLine : ∀ c ∈ line, c ≠ '\n' ∧ c ≠ '\r') : '\n' ∉ line :=
    fun lineEnd => (inLine _ lineEnd).1 rfl
  refine on.each (fun line nonempty inLine => ?_) fun line rest inLine => Text.splitBy_line (oneLine inLine) rest
  cases ends with
  | zero => simpa using Text.splitBy_oneLine (oneLine inLine)
  | succ count => rw [List.replicate_succ, Text.splitBy_line (oneLine inLine), splitBy_lineEnds]

theorem text_ne_nil (on : OnLines text lines ends) : text ≠ [] := by
  rintro rfl
  have seen := on.contents
  rw [contents_nil] at seen
  exact on.ne_nil (List.append_eq_nil_iff.mp seen.symm).1

/-- Empty lines after the lines hold nothing. -/
theorem padded_inLine (on : OnLines text lines ends) (gap : Nat) :
    ∀ line ∈ lines ++ List.replicate gap [], ∀ c ∈ line, c ≠ '\n' ∧ c ≠ '\r' := by
  refine List.forall_mem_append.mpr ⟨on.inLine, fun line member => ?_⟩
  rw [(List.mem_replicate.mp member).2]
  simp

/-- The lines that a writer sees are the same. -/
theorem lines_eq (on : OnLines text lines ends) :
    Text.lines text = lines ++ List.replicate (ends - 1) [] := by
  have split := on.splitBy
  cases ends with
  | zero =>
    obtain ⟨before, last, rfl, nonempty⟩ := on.shown
    rw [List.replicate_zero, List.append_nil] at split
    rw [lines_of_split split fun line member => on.inLine line (List.mem_append_left _ member), if_neg nonempty]
    simp
  | succ count =>
    rw [List.replicate_succ', ← List.append_assoc] at split
    rw [lines_of_split split (on.padded_inLine count), if_pos rfl, List.append_nil, Nat.add_sub_cancel]

end OnLines

end DocComment.Markup
