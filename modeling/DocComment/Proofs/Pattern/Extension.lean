import DocComment.Pattern.Match
import DocComment.Proofs.Pattern.Classes
import DocComment.Proofs.Pattern.Reading

/-! Patterns inside longer ones. What is read from the whole of a text is read in the same way if the end of
a group follows the text, so a pattern of its own keeps its meaning between parentheses. The branches of a
reading stay in their order, and a literal text is read as itself. -/
namespace DocComment.Pattern

section Extension

variable {tail text rest after : List Char} {flags : Flags} {c : Char}

theorem decimalDigits_append (closes : Closes tail) {n m : Nat} (long : text.length ≤ n)
    (longer : (text ++ tail).length ≤ m) {digits : List Char}
    (read : decimalDigits flags n text = (digits, after)) (more : after ≠ []) :
    decimalDigits flags m (text ++ tail) = (digits, after ++ tail) := by
  induction n generalizing m text digits with
  | zero =>
    obtain rfl := List.eq_nil_of_length_eq_zero (Nat.le_zero.mp long)
    cases read
    exact absurd rfl more
  | succ n ih =>
    cases text with
    | nil =>
      cases read
      exact absurd rfl more
    | cons c rest =>
      simp only [List.cons_append, List.length_cons] at long longer ⊢
      obtain ⟨m, rfl⟩ : ∃ k, m = k + 1 := ⟨m - 1, by omega⟩
      simp only [decimalDigits] at read ⊢
      split at read
      case isFalse stop =>
        cases read
        rw [if_neg stop]
        rfl
      case isTrue digit =>
        rw [if_pos digit]
        have next : skipSpace flags rest ≠ [] := fun none => by
          rw [none] at read
          cases n <;> cases read <;> exact more rfl
        have shorter := skipSpace_length_le flags rest
        cases later : decimalDigits flags n (skipSpace flags rest) with
        | mk others stop =>
          rw [later] at read
          cases read
          rw [skipSpace_append closes next,
            ih (by omega) (by rw [List.length_append] at longer ⊢; omega) later]

theorem repetitionNumber_append (closes : Closes tail) {number : Nat}
    (read : repetitionNumber flags text = .ok (number, after)) (more : after ≠ []) :
    repetitionNumber flags (text ++ tail) = .ok (number, after ++ tail) := by
  simp only [repetitionNumber] at read ⊢
  split at read
  case isTrue => cases read
  case isFalse valid =>
    cases found : decimalDigits flags (text.dropWhile Unicode.isWhite).length (text.dropWhile Unicode.isWhite) with
    | mk digits rest =>
      rw [found] at read valid
      obtain ⟨rfl, blanks⟩ := Prod.mk.inj (Except.ok.inj read)
      have stop : rest ≠ [] := fun none => more (by rw [← blanks, none]; rfl)
      have start : text.dropWhile Unicode.isWhite ≠ [] := fun none => by
        rw [none] at found
        cases found
        exact stop rfl
      rw [(takeWhile_append_of_stop start tail).2,
        decimalDigits_append closes (Nat.le_refl _) (Nat.le_refl _) found stop, if_neg valid,
        (takeWhile_append_of_stop (blanks ▸ more) tail).2, blanks]

theorem upperBound_append (closes : Closes tail) {least : Nat} {most : Option Nat}
    (read : upperBound flags least text = .ok (most, after)) :
    upperBound flags least (text ++ tail) = .ok (most, after ++ tail) := by
  unfold upperBound at read
  split at read
  case h_1 =>
    cases read
    rfl
  case h_2 unclosed =>
    obtain ⟨⟨number, rest⟩, second, read⟩ := Except.exists_of_bind read
    dsimp only at read
    split at read
    case h_2 => cases read
    case h_1 =>
      have longer := repetitionNumber_append closes second (List.cons_ne_nil _ _)
      have goesOn : ∀ others, text ++ tail ≠ '\x7d' :: others := by
        intro others same
        cases text with
        | nil => cases second
        | cons c text => exact unclosed text (by rw [(List.cons.inj same).1])
      rw [upperBound, longer]
      · split at read
        case isFalse => cases read
        case isTrue rising =>
          cases read
          exact if_pos rising
      · exact goesOn

theorem bounds_append (closes : Closes tail) {least : Nat} {most : Option Nat}
    (read : bounds flags text = .ok (least, most, after)) :
    bounds flags (text ++ tail) = .ok (least, most, after ++ tail) := by
  obtain ⟨⟨number, rest⟩, first, read⟩ := Except.exists_of_bind read
  have inside (some : rest ≠ []) : repetitionNumber flags (skipSpace flags (text ++ tail)) = .ok (number, rest ++ tail) := by
    have more : skipSpace flags text ≠ [] := fun none => by
      rw [none] at first
      cases first
    rw [skipSpace_append closes more]
    exact repetitionNumber_append closes first some
  dsimp only at read
  split at read
  case h_3 => cases read
  case h_1 =>
    cases read
    rw [bounds, inside (List.cons_ne_nil _ _)]
    rfl
  case h_2 others =>
    rw [bounds, inside (List.cons_ne_nil _ _)]
    obtain ⟨⟨upper, last⟩, second, read⟩ := Except.exists_of_bind read
    cases read
    have more : skipSpace flags others ≠ [] := fun none => by
      rw [none] at second
      cases second
    simp only [List.cons_append, bind, Except.bind, skipSpace_append closes more, upperBound_append closes second]
    rfl

theorem afterBounds_of_ne (other : ∀ rest, skipSpace flags text ≠ '?' :: rest) : afterBounds flags text = text := by
  rw [afterBounds]
  split
  case h_1 rest lazy => exact absurd lazy (other rest)
  case h_2 => rfl

/-- Blanks before the mark of lazy bounds are read in the same way if the end of a group follows. -/
theorem afterBounds_append (closes : Closes tail) (text : List Char) :
    afterBounds flags (text ++ tail) = afterBounds flags text ++ tail := by
  cases next : skipSpace flags text with
  | nil =>
    obtain ⟨more, rfl⟩ := List.head?_eq_some_iff.mp closes.head
    have short : afterBounds flags text = text := afterBounds_of_ne fun rest lazy => by
      cases next.symm.trans lazy
    rw [short]
    refine afterBounds_of_ne fun rest lazy => ?_
    rcases skipSpace_append_nil closes next with same | same <;> cases same.symm.trans lazy
  | cons c rest =>
    have longer := skipSpace_append_cons closes next
    by_cases lazy : c = '?'
    · subst lazy
      simp only [afterBounds, next, longer]
      rfl
    · rw [afterBounds_of_ne fun rest same => lazy (List.cons.inj (next.symm.trans same)).1,
        afterBounds_of_ne fun rest same => lazy (List.cons.inj (longer.symm.trans same)).1]

/-- Whether an item can be repeated is all that counts of a branch. -/
theorem repeatLast_append (closes : Closes tail) {branch branch' longer : Branch} {least : Nat} {most : Option Nat}
    (same : branch'.map Option.isSome = branch.map Option.isSome)
    (read : repeatLast flags branch least most text = .ok (longer, after)) :
    ∃ longer', repeatLast flags branch' least most (text ++ tail) = .ok (longer', after ++ tail) ∧
      longer'.map Option.isSome = longer.map Option.isSome := by
  obtain ⟨more, rfl⟩ := List.head?_eq_some_iff.mp closes.head
  rcases branch with - | ⟨last, earlier⟩
  · cases read
  rcases branch' with - | ⟨last', earlier'⟩
  · cases same
  obtain ⟨kind, others⟩ := List.cons.inj same
  cases last with
  | none => cases read
  | some regex =>
    obtain ⟨regex', rfl⟩ := Option.isSome_iff_exists.mp kind
    have alike (lazy : Bool) : ((some (.loop regex' least most (lazy == flags.swapGreed)) : Option Regex) ::
        earlier').map Option.isSome =
        ((some (.loop regex least most (lazy == flags.swapGreed)) : Option Regex) :: earlier).map Option.isSome := by
      simpa using others
    rcases text with - | ⟨c, rest⟩
    · cases read
      exact ⟨_, rfl, alike false⟩
    · by_cases lazy : c = '?'
      · subst lazy
        cases read
        exact ⟨_, rfl, alike true⟩
      · have plain (regex : Regex) (earlier : Branch) (others : List Char) :
            repeatLast flags (some regex :: earlier) least most (c :: others) =
              .ok (some (.loop regex least most (false == flags.swapGreed)) :: earlier, c :: others) := by
          simp [repeatLast, lazy]
        rw [plain] at read
        cases read
        exact ⟨_, plain regex' earlier' _, alike false⟩

theorem flagList_append {on body : Bool} {seen : List Char} {changed : Flags}
    (read : flagList flags on seen text = .ok (changed, body, after)) (tail : List Char) :
    flagList flags on seen (text ++ tail) = .ok (changed, body, after ++ tail) := by
  induction text generalizing flags on seen with
  | nil => cases read
  | cons c rest ih =>
    rw [List.cons_append]
    simp only [flagList] at read ⊢
    split at read
    case isTrue stop =>
      rw [if_pos stop]
      split at read
      case isTrue => cases read
      case isFalse noHyphen =>
        rw [if_neg noHyphen]
        split at read
        case isTrue => cases read
        case isFalse nonempty =>
          rw [if_neg nonempty]
          cases read
          rfl
    case isFalse flag =>
      rw [if_neg flag]
      split at read
      case isTrue => cases read
      case isFalse new =>
        rw [if_neg new]
        split at read
        case isTrue hyphen =>
          rw [if_pos hyphen]
          exact ih read
        case isFalse noHyphen =>
          rw [if_neg noHyphen]
          split at read
          case h_1 changed known => exact ih read
          case h_2 => cases read

theorem groupName_append {names names' : List (String × Nat)} {name name' : String} {after' : List Char}
    (read : groupName names text = .ok (name, after))
    (longer : groupName names' (text ++ tail) = .ok (name', after')) : name' = name ∧ after' = after ++ tail := by
  simp only [groupName, drop_length_takeWhile] at read longer
  split at read
  case h_2 => cases read
  case h_1 rest c letters stop written =>
    obtain ⟨same, stops⟩ := takeWhile_append_of_stop (stop ▸ List.cons_ne_nil _ _) tail
    rw [same, stops, stop, written] at longer
    simp only [List.cons_append] at longer
    split at read
    case isTrue => cases read
    case isFalse valid =>
      rw [if_neg valid] at longer
      split at read
      case isTrue => cases read
      case isFalse =>
        split at longer
        case isTrue => cases longer
        case isFalse =>
          cases read
          cases longer
          exact ⟨congrArg String.ofList written.symm, rfl⟩

/-- A capture with the name that follows. -/
def named (names : List (String × Nat)) (text : List Char) : Except Fault (GroupStart × List Char) :=
  (groupName names text).map fun found => (.capture (some found.1), found.2)

/-- A group with the flags that follow. -/
def flagged (flags : Flags) (text : List Char) : Except Fault (GroupStart × List Char) :=
  (flagList flags true [] text).map fun found =>
    (if found.2.1 then .plain found.1 else .setFlags found.1, found.2.2)

/-- How a group starts, by the marks in front. -/
theorem groupMarks_marks (names : List (String × Nat)) :
    (∀ rest, groupMarks flags names ('?' :: 'P' :: '<' :: rest) = named names rest) ∧
    (∀ c rest, c ≠ '=' ∧ c ≠ '!' → groupMarks flags names ('?' :: '<' :: c :: rest) = named names (c :: rest)) ∧
    (∀ c rest, c ≠ '=' ∧ c ≠ '!' ∧ c ≠ '<' → (∀ others, c :: rest ≠ 'P' :: '<' :: others) →
      groupMarks flags names ('?' :: c :: rest) = flagged flags (c :: rest)) ∧
    ∀ text, text.head? ≠ some '?' → groupMarks flags names text = .ok (.capture none, text) := by
  refine ⟨fun rest => ?_, fun c rest noLook => ?_, fun c rest plain noName => ?_, fun text noMark => ?_⟩
  · rw [groupMarks, named]
    cases groupName names rest <;> rfl
  · rw [groupMarks, named]
    · cases groupName names (c :: rest) <;> rfl
    · exact fun tail same => noLook.1 (List.cons.inj same).1
    · exact fun tail same => noLook.2 (List.cons.inj same).1
  · rw [groupMarks, flagged]
    · cases flagList flags true [] (c :: rest) <;> rfl
    all_goals intros; simp_all
  · rw [groupMarks]
    · rfl
    all_goals
      rintro rest rfl
      exact noMark rfl

theorem groupMarks_long (names : List (String × Nat)) (rest : List Char) :
    groupMarks flags names ('?' :: 'P' :: '<' :: rest) = named names rest :=
  (groupMarks_marks names).1 rest

theorem groupMarks_short (names : List (String × Nat)) (noLook : c ≠ '=' ∧ c ≠ '!') :
    groupMarks flags names ('?' :: '<' :: c :: rest) = named names (c :: rest) :=
  (groupMarks_marks names).2.1 c rest noLook

theorem groupMarks_flagged (names : List (String × Nat)) (plain : c ≠ '=' ∧ c ≠ '!' ∧ c ≠ '<')
    (noName : ∀ others, c :: rest ≠ 'P' :: '<' :: others) :
    groupMarks flags names ('?' :: c :: rest) = flagged flags (c :: rest) :=
  (groupMarks_marks names).2.2.1 c rest plain noName

theorem groupMarks_plain (names : List (String × Nat)) (noMark : text.head? ≠ some '?') :
    groupMarks flags names text = .ok (.capture none, text) :=
  (groupMarks_marks names).2.2.2 text noMark

theorem named_append {names names' : List (String × Nat)} {start start' : GroupStart} {after' : List Char}
    (read : named names text = .ok (start, after))
    (longer : named names' (text ++ tail) = .ok (start', after')) : start' = start ∧ after' = after ++ tail := by
  obtain ⟨found, first, same⟩ := Except.exists_of_map read
  obtain ⟨found', second, same'⟩ := Except.exists_of_map longer
  cases same
  cases same'
  obtain ⟨sameName, sameRest⟩ := groupName_append first second
  exact ⟨by rw [sameName], sameRest⟩

theorem flagged_append {start : GroupStart} (read : flagged flags text = .ok (start, after)) (tail : List Char) :
    flagged flags (text ++ tail) = .ok (start, after ++ tail) := by
  obtain ⟨found, listed, same⟩ := Except.exists_of_map read
  cases same
  rw [flagged, flagList_append listed tail]
  rfl

/-- A group starts with the marks of a name or of flags, or with none. -/
theorem groupMarks_cases {names : List (String × Nat)} {found : GroupStart × List Char}
    (read : groupMarks flags names text = .ok found) :
    (∃ rest, text = '?' :: 'P' :: '<' :: rest) ∨
    (∃ c rest, text = '?' :: '<' :: c :: rest ∧ (c ≠ '=' ∧ c ≠ '!')) ∨
    (∃ c rest, text = '?' :: c :: rest ∧ (c ≠ '=' ∧ c ≠ '!' ∧ c ≠ '<') ∧
      ∀ others, c :: rest ≠ 'P' :: '<' :: others) ∨
    text.head? ≠ some '?' := by
  by_cases mark : text.head? = some '?'
  case neg => exact .inr (.inr (.inr mark))
  obtain ⟨rest, rfl⟩ := List.head?_eq_some_iff.mp mark
  rcases rest with - | ⟨c, rest⟩
  · cases read
  by_cases long : ∃ others, c :: rest = 'P' :: '<' :: others
  · obtain ⟨others, same⟩ := long
    exact .inl ⟨others, by rw [same]⟩
  rw [not_exists] at long
  by_cases look : c = '=' ∨ c = '!'
  · rcases look with rfl | rfl <;> cases read
  rw [not_or] at look
  by_cases short : c = '<'
  case neg => exact .inr (.inr (.inl ⟨c, rest, rfl, ⟨look.1, look.2, short⟩, long⟩))
  subst short
  rcases rest with - | ⟨d, rest⟩
  · cases read
  by_cases look : d = '=' ∨ d = '!'
  · rcases look with rfl | rfl <;> cases read
  · exact .inr (.inl ⟨d, rest, rfl, not_or.mp look⟩)

/-- What follows a parenthesis has one meaning; only its name can be taken in the longer text. -/
theorem groupMarks_append (closes : Closes tail) {names names' : List (String × Nat)} {start start' : GroupStart}
    {after' : List Char} (read : groupMarks flags names text = .ok (start, after))
    (longer : groupMarks flags names' (text ++ tail) = .ok (start', after')) :
    start' = start ∧ after' = after ++ tail := by
  rcases groupMarks_cases read with ⟨rest, rfl⟩ | ⟨c, rest, rfl, noLook⟩ | ⟨c, rest, rfl, plain, noName⟩ | noMark
  · rw [groupMarks_long] at read
    simp only [List.cons_append, groupMarks_long] at longer
    exact named_append read longer
  · rw [groupMarks_short names noLook] at read
    simp only [List.cons_append, groupMarks_short names' noLook] at longer
    exact named_append read longer
  · rw [groupMarks_flagged names plain noName] at read
    have listed := flagged_append read tail
    have longer : flagged flags (c :: rest ++ tail) = .ok (start', after') := by
      rw [← longer, List.cons_append, List.cons_append, List.cons_append, groupMarks_flagged names' plain]
      -- Without its angle bracket the letter of a name would be a flag, and there is no such flag.
      intro others same
      cases (List.cons.inj same).1
      cases read
    cases listed.symm.trans longer
    exact ⟨rfl, rfl⟩
  · have noMark' : (text ++ tail).head? ≠ some '?' := by
      cases text with
      | nil => simp [closes.head]
      | cons c rest => exact noMark
    rw [groupMarks_plain names noMark] at read
    rw [groupMarks_plain names' noMark'] at longer
    cases read
    cases longer
    exact ⟨rfl, rfl⟩

theorem groupStart_append (closes : Closes tail) {names names' : List (String × Nat)} {start start' : GroupStart}
    {after' : List Char} (inside : skipSpace flags text ≠ [])
    (read : groupStart flags names text = .ok (start, after))
    (longer : groupStart flags names' (text ++ tail) = .ok (start', after')) :
    start' = start ∧ after' = after ++ tail := by
  rw [groupStart, skipSpace_append closes inside] at longer
  exact groupMarks_append closes read longer

/-- At the end of a text only a group without marks starts. -/
theorem groupStart_of_end {names : List (String × Nat)} (stop : skipSpace flags text = []) :
    groupStart flags names text = .ok (.capture none, []) := by
  rw [groupStart, stop]
  rfl

/-- Whether the last item can be repeated. -/
theorem last_isNone {branch branch' : Branch} (same : branch'.map Option.isSome = branch.map Option.isSome) :
    branch'.head?.join.isNone = branch.head?.join.isNone := by
  have last (branch : Branch) : branch.head?.join.isNone = ! (branch.map Option.isSome).head?.getD false := by
    rcases branch with - | ⟨_ | _, _⟩ <;> rfl
  rw [last, last, same]

theorem readItem_append (closes : Closes tail) {branch branch' longer : Branch}
    (same : branch'.map Option.isSome = branch.map Option.isSome)
    (read : readItem flags branch c rest = .ok (longer, after)) :
    ∃ longer', readItem flags branch' c (rest ++ tail) = .ok (longer', after ++ tail) ∧
      longer'.map Option.isSome = longer.map Option.isSome := by
  unfold readItem at read ⊢
  split at read
  case h_1 =>
    obtain ⟨found, inside, made⟩ := Except.exists_of_map read
    cases made
    rw [charClass_append closes inside]
    exact ⟨_, rfl, by simp [same]⟩
  case h_2 =>
    obtain ⟨found, escaped, made⟩ := Except.exists_of_map read
    cases made
    rw [escapeAtom_append closes escaped]
    exact ⟨_, rfl, by simp [same]⟩
  case h_3 | h_4 | h_5 =>
    cases read
    exact ⟨_, rfl, by simp [same]⟩
  case h_6 | h_7 | h_8 => exact repeatLast_append closes same read
  case h_9 =>
    rw [← last_isNone same] at read
    split at read
    case isTrue => cases read
    case isFalse repeatable =>
      rw [if_neg repeatable]
      obtain ⟨⟨least, most, next⟩, bounded, read⟩ := Except.exists_of_bind read
      rw [bounds_append closes bounded]
      obtain ⟨longer', read, same⟩ := repeatLast_append closes same read
      rw [← afterBounds_append closes] at read
      exact ⟨longer', read, same⟩
  case h_10 =>
    cases read
    exact ⟨some (.set (charSet flags c c)) :: branch', by simp [*], by simp [same]⟩

/-- A pattern that is read from the whole of a text is read up to the same place if the end of a group
follows, unless a comment swallows that end. Groups may be counted and named differently. -/
theorem Reads.append (closes : Closes tail) {branches : List Branch} {branch : Branch} {progress last : Progress}
    {regex : Regex} (reads : Reads flags branches branch progress regex last) {branches' : List Branch}
    {branch' : Branch} {progress' last' : Progress} {regex' : Regex}
    (same : branch'.map Option.isSome = branch.map Option.isSome) (text : progress'.rest = progress.rest ++ tail)
    (longer : Reads flags branches' branch' progress' regex' last') :
    last'.rest = last.rest ++ tail ∨ last'.rest = [] := by
  induction reads generalizing branches' branch' progress' last' regex' with
  | ended stop =>
    rcases skipSpace_append_nil closes stop with next | next
    · obtain ⟨more, rfl⟩ := List.head?_eq_some_iff.mp closes.head
      exact .inl (by rw [(longer.of_close (text ▸ next)).2]; rfl)
    · exact .inr (by rw [(longer.of_end (text ▸ next)).2])
  | closed stop =>
    have next := skipSpace_append_cons closes stop
    exact .inl (by rw [(longer.of_close (text ▸ next)).2]; rfl)
  | bar next others ih =>
    have next := skipSpace_append_cons closes next
    exact ih rfl rfl (longer.of_bar (text ▸ next))
  | item next plain read others ih =>
    obtain ⟨longer', read, same⟩ := readItem_append closes same read
    have next := skipSpace_append_cons closes next
    exact ih same rfl (longer.of_item (text ▸ next) plain read)
  | @setFlags flags _ _ _ rest changed _ _ _ next start others ih =>
    have next := skipSpace_append_cons closes next
    have marked : skipSpace flags rest ≠ [] := fun none => by cases (groupStart_of_end none).symm.trans start
    rcases longer.of_open (text ▸ next) with ⟨changed, after, starts, others'⟩ |
      ⟨start', after, inner, closing, more, starts, holds, -, -, -⟩
    · obtain ⟨sameStart, rfl⟩ := groupStart_append closes marked start starts
      cases sameStart
      exact ih (by simp [same]) rfl others'
    · exact absurd (groupStart_append closes marked start starts).1 (holds _)
  | @group flags _ _ progress rest start after _ _ _ _ _ next starts holds inside ends others ihInside ihOthers =>
    have next := skipSpace_append_cons closes next
    have marked : skipSpace flags rest ≠ [] := fun none => by
      cases (groupStart_of_end none).symm.trans starts
      rw [(inside.of_end (by cases h : flags.verbose <;> rfl)).2] at ends
      cases ends
    rcases longer.of_open (text ▸ next) with ⟨changed, after, starts', -⟩ |
      ⟨start', after, inner, closing, more, starts', -, inside', ends', others'⟩
    · exact absurd (groupStart_append closes marked starts starts').1.symm (holds _)
    · obtain ⟨rfl, rfl⟩ := groupStart_append closes marked starts starts'
      rw [entered_flags flags progress' progress _ after] at inside'
      rcases ihInside rfl (by rw [entered_rest, entered_rest]) inside' with whole | swallowed
      · rw [whole, ends] at ends'
        cases ends'
        exact ihOthers (by simp [same]) rfl others'
      · cases swallowed.symm.trans ends'

end Extension

section Alternatives

variable {flags : Flags} {branches : List Branch} {branch : Branch} {progress last : Progress}
  {regex : Regex} {names : List (String × Nat)} {name : String} {index : Nat} {text rest after : List Char}

theorem lookup_of_groupName {found : String × List Char} (read : groupName names text = .ok found) :
    names.lookup found.1 = none := by
  simp only [groupName] at read
  split at read
  case h_2 => cases read
  case h_1 =>
    split at read
    case isTrue => cases read
    case isFalse =>
      split at read
      case isTrue => cases read
      case isFalse fresh =>
        cases read
        exact Option.not_isSome_iff_eq_none.mp fresh

theorem lookup_of_named (read : named names text = .ok (.capture (some name), after)) :
    names.lookup name = none := by
  obtain ⟨found, given, same⟩ := Except.exists_of_map read
  cases same
  exact lookup_of_groupName given

theorem lookup_of_groupMarks (read : groupMarks flags names text = .ok (.capture (some name), after)) :
    names.lookup name = none := by
  rcases groupMarks_cases read with ⟨rest, rfl⟩ | ⟨c, rest, rfl, noLook⟩ | ⟨c, rest, rfl, plain, noName⟩ | noMark
  · rw [groupMarks_long] at read
    exact lookup_of_named read
  · rw [groupMarks_short names noLook] at read
    exact lookup_of_named read
  · rw [groupMarks_flagged names plain noName] at read
    obtain ⟨⟨changed, body, last⟩, listed, same⟩ := Except.exists_of_map read
    cases body <;> cases same
  · rw [groupMarks_plain names noMark] at read
    cases read

/-- The name of a group is new. -/
theorem lookup_of_groupStart (read : groupStart flags names text = .ok (.capture (some name), after)) :
    names.lookup name = none :=
  lookup_of_groupMarks read

theorem lookup_entered (start : GroupStart) (starts : groupStart flags progress.names text = .ok (start, after))
    (given : progress.names.lookup name = some index) :
    (entered flags progress after start).2.names.lookup name = some index := by
  cases start with
  | plain | setFlags => exact given
  | capture own =>
    cases own with
    | none => exact given
    | some own =>
      have apart : (name == own) = false := by
        rw [beq_eq_false_iff_ne]
        rintro rfl
        cases given.symm.trans (lookup_of_groupStart starts)
      simpa [entered, List.lookup_cons, apart] using given

/-- A name keeps its group, since no other group can take it. -/
theorem Reads.lookup_name (reads : Reads flags branches branch progress regex last)
    (given : progress.names.lookup name = some index) : last.names.lookup name = some index := by
  induction reads with
  | ended | closed => exact given
  | bar _ _ ih | setFlags _ _ _ ih | item _ _ _ _ ih => exact ih given
  | group _ starts _ _ _ _ ihInside ihOthers => exact ihOthers (ihInside (lookup_entered _ starts given))

theorem alternatives_first (branches : List Branch) (first last : Branch) :
    ∃ others, alternatives (branches ++ [first]) last = .alt first.regex others :=
  ⟨alternatives branches last, by simp [alternatives]⟩

/-- Whatever is read after the first bar, the branch before it is the first choice. -/
theorem Reads.first_branch {first : Branch} (reads : Reads flags branches branch progress regex last)
    (begins : ∃ later, branches = later ++ [first]) : ∃ others, regex = .alt first.regex others := by
  induction reads with
  | ended | closed =>
    obtain ⟨later, rfl⟩ := begins
    exact alternatives_first later first _
  | @bar _ _ branch _ _ _ _ _ _ ih =>
    obtain ⟨later, rfl⟩ := begins
    exact ih ⟨branch :: later, rfl⟩
  | setFlags _ _ _ ih | item _ _ _ _ ih | group _ _ _ _ _ _ _ ih => exact ih begins

/-- The branch of a literal text. -/
def literals (text : List Char) : Branch :=
  (text.map fun c => some (.literal c)).reverse

theorem skipSpace_default {properties : Properties} (text : List Char) : skipSpace { properties } text = text := by
  cases text <;> rfl

theorem ne_of_isMeta {c d : Char} (plain : isMeta c = false) (special : isMeta d = true) : c ≠ d := by
  rintro rfl
  cases plain.symm.trans special

theorem readItem_quoted {properties : Properties} {c : Char} (special : isMeta c = true) (branch : Branch) (rest : List Char) :
    readItem { properties } branch '\\' (c :: rest) = .ok (some (.literal c) :: branch, rest) := by
  simp only [isMeta, List.contains_iff_mem] at special
  simp at special
  rcases special with rfl | rfl | rfl | rfl | rfl | rfl | rfl | rfl | rfl | rfl | rfl | rfl | rfl | rfl | rfl |
    rfl | rfl | rfl
  all_goals rfl

theorem readItem_plain {properties : Properties} {c : Char} (plain : isMeta c = false) (branch : Branch) (rest : List Char) :
    readItem { properties } branch c rest = .ok (some (.literal c) :: branch, rest) := by
  rw [readItem]
  · rfl
  all_goals exact ne_of_isMeta plain (by decide)

/-- A quoted text is read as its characters. -/
theorem Reads.of_quote {properties : Properties} (reads : Reads { properties } branches branch progress regex last) {more : List Char}
    (begins : progress.rest = quote text ++ more) :
    Reads { properties } branches (literals text ++ branch) { progress with rest := more } regex last := by
  induction text generalizing branch progress with
  | nil =>
    obtain rfl := begins
    exact reads
  | cons c text ih =>
    have split : literals (c :: text) ++ branch = literals text ++ some (.literal c) :: branch := by
      simp [literals]
    rw [split]
    cases special : isMeta c with
    | true =>
      have quoted : progress.rest = '\\' :: c :: (quote text ++ more) := by simp [begins, quote, special]
      have rest := ih (reads.of_item ((skipSpace_default _).trans quoted) (by decide)
        (readItem_quoted special _ _)) rfl
      exact rest
    | false =>
      have quoted : progress.rest = c :: (quote text ++ more) := by simp [begins, quote, special]
      have plain : c ≠ ')' ∧ c ≠ '|' ∧ c ≠ '(' :=
        ⟨ne_of_isMeta special (by decide), ne_of_isMeta special (by decide), ne_of_isMeta special (by decide)⟩
      have rest := ih (reads.of_item ((skipSpace_default _).trans quoted) plain
        (readItem_plain special _ _)) rfl
      exact rest

/-- A quoted text adds its characters to the branch. -/
theorem body_quote {properties : Properties} (fuel : Nat) (text more : List Char) (branch : Branch)
    (progress : Progress) (begins : progress.rest = quote text ++ more) :
    body (fuel + text.length) { properties } branches branch progress =
      body fuel { properties } branches (literals text ++ branch) { progress with rest := more } := by
  induction text generalizing branch progress with
  | nil =>
    obtain rfl := begins
    rfl
  | cons c text ih =>
    have split : literals (c :: text) ++ branch = literals text ++ some (.literal c) :: branch := by
      simp [literals]
    rw [split, List.length_cons, ← Nat.add_assoc]
    cases special : isMeta c with
    | true =>
      have quoted : progress.rest = '\\' :: c :: (quote text ++ more) := by simp [begins, quote, special]
      rw [body_item ((skipSpace_default _).trans quoted) (by decide), readItem_quoted special]
      exact ih (some (.literal c) :: branch) _ rfl
    | false =>
      have quoted : progress.rest = c :: (quote text ++ more) := by simp [begins, quote, special]
      have plain : c ≠ ')' ∧ c ≠ '|' ∧ c ≠ '(' :=
        ⟨ne_of_isMeta special (by decide), ne_of_isMeta special (by decide), ne_of_isMeta special (by decide)⟩
      rw [body_item ((skipSpace_default _).trans quoted) plain, readItem_plain special]
      exact ih (some (.literal c) :: branch) _ rfl

theorem distinctSpots_cons (first : Spot) (spots : List Spot) :
    ∃ others, distinctSpots (first :: spots) = first :: others := by
  have kept : ∀ (seen : List Nat) (found rest : List Spot), ∃ newer,
      (rest.foldl (fun state spot => if state.1.contains spot.offset then (state.1, state.2)
        else (spot.offset :: state.1, spot :: state.2)) ((seen, found) : List Nat × List Spot)).2 =
      newer ++ found := by
    intro seen found rest
    induction rest generalizing seen found with
    | nil => exact ⟨[], rfl⟩
    | cons next rest ih =>
      rw [List.foldl_cons]
      dsimp only
      split
      · exact ih seen found
      · obtain ⟨newer, same⟩ := ih (next.offset :: seen) (next :: found)
        exact ⟨newer ++ [next], by rw [same]; simp⟩
  obtain ⟨newer, same⟩ := kept [first.offset] [first] spots
  refine ⟨newer.reverse, ?_⟩
  have begun : distinctSpots (first :: spots) = (newer ++ [first]).reverse := congrArg List.reverse same
  simpa using begun

/-- The first way to match two patterns in a row starts with the first way to match the first of them. -/
theorem Regex.ends_cat_cons {first second : Regex} {spot middle last : Spot} {others more : List Spot}
    (begins : first.ends spot = middle :: others) (goesOn : second.ends middle = last :: more) :
    ∃ rest, (first.cat second).ends spot = last :: rest := by
  rw [ends, begins, List.flatMap_cons, goesOn]
  exact distinctSpots_cons last _

theorem Regex.ends_alt_cons {first : Regex} (second : Regex) {spot last : Spot} {others : List Spot}
    (begins : first.ends spot = last :: others) : ∃ rest, (first.alt second).ends spot = last :: rest := by
  rw [ends, begins]
  exact distinctSpots_cons last _

/-- The spot after a text. -/
def Spot.past (spot : Spot) (text rest : List Char) : Spot :=
  { spot with offset := spot.offset + text.length, before := text.reverse ++ spot.before, rest }

/-- An item in front of a branch. -/
theorem regex_append {branch : Branch} (item : Regex) (nonempty : branch.filterMap id ≠ []) :
    Branch.regex (branch ++ [some item]) = .cat item branch.regex := by
  obtain ⟨last, earlier, items⟩ := List.exists_cons_of_ne_nil nonempty
  have front : (branch ++ [some item]).filterMap id = last :: (earlier ++ [item]) := by
    rw [List.filterMap_append, items]
    rfl
  rw [Branch.regex, Branch.regex, front, items]
  simp

theorem regex_literals_cons (c d : Char) (text : List Char) :
    (literals (c :: d :: text)).regex = .cat (.literal c) (literals (d :: text)).regex := by
  have split : literals (c :: d :: text) = literals (d :: text) ++ [some (.literal c)] := by simp [literals]
  rw [split, regex_append]
  simp [literals]

theorem ends_literal (c : Char) (spot : Spot) : (Regex.literal c).ends spot =
    ((Text.stripStart [c] spot.rest).map fun rest => spot.past [c] rest).toList := by
  rw [Regex.literal, Regex.ends]
  cases spot.rest with
  | nil => rfl
  | cons d rest =>
    by_cases same : c = d
    · subst same
      simp [CharSet.contains, Text.stripStart, Spot.past]
    · have outside : (CharSet.range c c).contains d = false := by
        rw [← Bool.not_eq_true]
        intro inside
        simp only [CharSet.contains, Bool.and_eq_true, decide_eq_true_eq] at inside
        exact same (Char.le_antisymm inside.1 inside.2)
      simp [outside, Text.stripStart, same]

/-- A literal text matches in one way, where it stands. -/
theorem ends_literals {text : List Char} (nonempty : text ≠ []) (spot : Spot) :
    (literals text).regex.ends spot =
      ((Text.stripStart text spot.rest).map fun rest => spot.past text rest).toList := by
  induction text generalizing spot with
  | nil => exact absurd rfl nonempty
  | cons c text ih =>
    rcases text with - | ⟨d, text⟩
    · exact ends_literal c spot
    · rw [regex_literals_cons, Regex.ends, ends_literal]
      cases rest : spot.rest with
      | nil => rfl
      | cons e others =>
        by_cases same : c = e
        · subst same
          have later := ih (List.cons_ne_nil d text) (spot.past [c] others)
          have one : Text.stripStart [c] (c :: others) = some others := by simp [Text.stripStart]
          have all : Text.stripStart (c :: d :: text) (c :: others) = Text.stripStart (d :: text) others := by
            simp [Text.stripStart]
          have joined (rest : List Char) :
              (spot.past [c] others).past (d :: text) rest = spot.past (c :: d :: text) rest := by
            simp [Spot.past, Nat.add_comm, Nat.add_left_comm]
          rw [one, all, Option.map_some, Option.toList_some, List.flatMap_singleton, later]
          simp only [joined]
          change distinctSpots ((Text.stripStart (d :: text) others).map _).toList = _
          cases Text.stripStart (d :: text) others <;> rfl
        · simp [Text.stripStart, same, distinctSpots]

end Alternatives

end DocComment.Pattern
