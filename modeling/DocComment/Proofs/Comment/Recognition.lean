import DocComment.Proofs.Comment.DefaultTable
import DocComment.Proofs.Pattern.Extension

/-! What the command table recognises. The pattern of a command line is a token of its own group, and then a
blank or the end of the line; a pattern that is merged into a literal token is read as its second
alternative and never takes its matches. By default a command is recognised where a content starts with it,
up to a blank or the end. -/
namespace DocComment.Comment

open Pattern

/-- The pattern of a whole line around that of its token. -/
def lineRegex (token : Regex) : Regex :=
  .cat (.anchor .textStart) (.cat (.capture 1 token) (.alt (.set .blank) (.anchor .textEnd)))

/-- What stands after a token: the ends of its groups, and a blank or the end of the line. -/
def lineEnd : List Char :=
  [')', ')', '(', '?', ':', '\\', 's', '|', '$', ')']

theorem closes_lineEnd : Closes lineEnd :=
  ⟨by decide, by decide, by decide⟩

section Rules

variable {branches : List Branch} {branch : Branch} {progress last : Progress} {regex : Regex}
  {text rest : List Char} {properties : Properties}

theorem groupStart_token (properties : Properties) (rest : List Char) :
    groupStart { properties } [] ('?' :: 'P' :: '<' :: 'c' :: 'm' :: 'd' :: '>' :: rest) = .ok (.capture (some "cmd"), rest) := by
  have letters : isNameStart 'c' = true ∧ isNameRest 'm' = true ∧ isNameRest 'd' = true := by decide
  have read : groupName [] ('c' :: 'm' :: 'd' :: '>' :: rest) = .ok ("cmd", rest) := by
    simp [groupName, letters]
  rw [groupStart, skipSpace_default, groupMarks_long, named, read]
  rfl

/-- A group without a capture, inside a reading. -/
theorem reads_plain (reads : Reads { properties } branches branch progress regex last)
    (begins : progress.rest = '(' :: '?' :: ':' :: rest) :
    ∃ inner closing more, Reads { properties } [] [] { progress with rest } inner closing ∧ closing.rest = ')' :: more ∧
      Reads { properties } branches (some inner :: branch) { closing with rest := more } regex last := by
  have opened : groupStart { properties } progress.names ('?' :: ':' :: rest) = .ok (.plain { properties }, rest) := rfl
  rcases reads.of_open ((skipSpace_default _).trans begins) with ⟨changed, after, starts, -⟩ |
    ⟨start, after, inner, closing, more, starts, -, inside, ends, others⟩
  · cases opened.symm.trans starts
  · cases opened.symm.trans starts
    exact ⟨inner, closing, more, inside, ends, others⟩

/-- After the token a blank or the end of the line follows. -/
theorem reads_lineEnd (reads : Reads { properties } branches branch progress regex last)
    (begins : progress.rest = lineEnd.drop 2) :
    regex = alternatives branches (some (.alt (.set .blank) (.anchor .textEnd)) :: branch) ∧
      last = { progress with rest := [] } := by
  obtain ⟨inner, closing, more, inside, ends, others⟩ := reads_plain reads begins
  have blank := inside.of_item (skipSpace_default _) (by decide) rfl
  have bar := blank.of_bar (skipSpace_default _)
  have dollar := bar.of_item (skipSpace_default _) (by decide) rfl
  obtain ⟨rfl, rfl⟩ := dollar.of_close (skipSpace_default _)
  cases ends
  exact others.of_end (skipSpace_default _)

/-- A valid pattern behind a literal text, inside the group of the token. -/
theorem reads_token {pattern : List Char} {final : Progress} {alone : Regex}
    (valid : Reads { properties } [] [] { rest := pattern } alone final) (whole : final.rest = [])
    (reads : Reads { properties } [] [] progress regex last)
    (begins : progress.rest = quote text ++ '|' :: (pattern ++ lineEnd))
    {more : List Char} (ends : last.rest = ')' :: more) :
    (∃ others, regex = .alt (literals text).regex others) ∧ ')' :: more = lineEnd := by
  have bar := (reads.of_quote begins).of_bar (skipSpace_default _)
  rw [List.append_nil] at bar
  refine ⟨bar.first_branch ⟨[], rfl⟩, ?_⟩
  rcases valid.append closes_lineEnd rfl rfl bar with all | none
  · rw [← ends, all, whole]
    rfl
  · cases none.symm.trans ends

theorem reads_line {pattern : List Char} {final : Progress} {alone : Regex}
    (valid : Reads { properties } [] [] { rest := pattern } alone final) (whole : final.rest = [])
    (reads : Reads { properties } [] [] { rest := '^' :: '(' :: '?' :: 'P' :: '<' :: 'c' :: 'm' :: 'd' :: '>' ::
      '(' :: '?' :: ':' :: (quote text ++ '|' :: (pattern ++ lineEnd)) } regex last) :
    ∃ others, regex = lineRegex (.alt (literals text).regex others) ∧ last.names.lookup "cmd" = some 1 := by
  have anchored := reads.of_item (skipSpace_default _) (by decide) rfl
  have token := groupStart_token properties ('(' :: '?' :: ':' :: (quote text ++ '|' :: (pattern ++ lineEnd)))
  rcases anchored.of_open (skipSpace_default _) with ⟨changed, after, starts, -⟩ |
    ⟨start, after, inner, closing, more, starts, -, inside, ends, others⟩
  · cases token.symm.trans starts
  · cases token.symm.trans starts
    obtain ⟨group, behind, next, choice, stops, goesOn⟩ := reads_plain inside rfl
    obtain ⟨⟨second, rfl⟩, tail⟩ := reads_token valid whole choice rfl stops
    have named : behind.names.lookup "cmd" = some 1 := choice.lookup_name rfl
    cases tail
    obtain ⟨rfl, rfl⟩ := goesOn.of_close (skipSpace_default _)
    cases ends
    obtain ⟨rfl, rfl⟩ := reads_lineEnd others rfl
    exact ⟨second, rfl, named⟩

theorem body_lineEnd (fuel : Nat) (branch : Branch) (groups : Nat) (names : List (String × Nat)) :
    body (fuel + 5) { properties } [] branch { rest := lineEnd.drop 2, groups, names } =
      .ok (Branch.regex (some (.alt (.set .blank) (.anchor .textEnd)) :: branch),
        { rest := [], groups, names }) := by
  have inside : body (fuel + 4) { properties } [] [] { rest := ['\\', 's', '|', '$', ')'], groups, names } =
      .ok (.alt (.set .blank) (.anchor .textEnd), { rest := [')'], groups, names }) := rfl
  rw [body_of_group (skipSpace_default _) rfl (fun _ => GroupStart.noConfusion) inside rfl]
  rfl

/-- A line is read if its token is read inside the group. -/
theorem compile_line {written : List Char} {token : Regex}
    (inside : body (written.length + 18) { properties } [] []
        { rest := written ++ lineEnd.drop 1, groups := 1, names := [("cmd", 1)] } =
      .ok (token, { rest := lineEnd.drop 1, groups := 1, names := [("cmd", 1)] })) :
    compile ('^' :: '(' :: '?' :: 'P' :: '<' :: 'c' :: 'm' :: 'd' :: '>' :: (written ++ lineEnd.drop 1))
      properties = .ok ⟨lineRegex token, [("cmd", 1)]⟩ := by
  have fuel : ('^' :: '(' :: '?' :: 'P' :: '<' :: 'c' :: 'm' :: 'd' :: '>' ::
      (written ++ lineEnd.drop 1)).length + 2 = written.length + 20 := by simp [lineEnd]
  have opened := groupStart_token properties (written ++ lineEnd.drop 1)
  have reads : body (written.length + 20) { properties } [] []
      { rest := '^' :: '(' :: '?' :: 'P' :: '<' :: 'c' :: 'm' :: 'd' :: '>' :: (written ++ lineEnd.drop 1) } =
      .ok (lineRegex token, { rest := [], groups := 1, names := [("cmd", 1)] }) := by
    rw [body_item (skipSpace_default _) (by decide)]
    simp only [readItem, Except.bind]
    rw [body_of_group (skipSpace_default _) opened (fun _ => GroupStart.noConfusion) inside rfl]
    exact body_lineEnd _ _ _ _
  rw [compile, fuel, reads]

theorem length_le_quote (text : List Char) : text.length ≤ (quote text).length := by
  induction text with
  | nil => exact Nat.le_refl _
  | cons c text ih =>
    have one : 1 ≤ (if isMeta c then ['\\', c] else [c]).length := by split <;> simp
    have whole : quote (c :: text) = (if isMeta c then ['\\', c] else [c]) ++ quote text := rfl
    rw [whole, List.length_append, List.length_cons]
    omega

/-- A quoted text is read up to a closing parenthesis. -/
theorem body_quoted {fuel : Nat} (enough : text.length < fuel) (groups : Nat) (names : List (String × Nat)) :
    body fuel { properties } [] [] { rest := quote text ++ ')' :: rest, groups, names } =
      .ok ((literals text).regex, { rest := ')' :: rest, groups, names }) := by
  obtain ⟨more, rfl⟩ : ∃ more, fuel = more + 1 + text.length := ⟨fuel - text.length - 1, by omega⟩
  rw [body_quote (more + 1) text (')' :: rest) [] _ rfl, List.append_nil]
  rfl

/-- The line of a literal token, with and without a group around it. -/
theorem compile_literal (properties : Properties) (text : List Char) :
    compile ('^' :: '(' :: '?' :: 'P' :: '<' :: 'c' :: 'm' :: 'd' :: '>' :: (quote text ++ lineEnd.drop 1))
        properties = .ok ⟨lineRegex (literals text).regex, [("cmd", 1)]⟩ ∧
      compile ('^' :: '(' :: '?' :: 'P' :: '<' :: 'c' :: 'm' :: 'd' :: '>' :: '(' :: '?' :: ':' ::
        (quote text ++ lineEnd)) properties = .ok ⟨lineRegex (literals text).regex, [("cmd", 1)]⟩ := by
  have long := length_le_quote text
  refine ⟨compile_line (body_quoted (by omega) 1 _), ?_⟩
  have grouped : '(' :: '?' :: ':' :: (quote text ++ lineEnd) =
      '(' :: '?' :: ':' :: (quote text ++ [')']) ++ lineEnd.drop 1 := by simp [lineEnd]
  have inside : body ((quote text).length + 21) { properties } [] []
      { rest := quote text ++ lineEnd, groups := 1, names := [("cmd", 1)] } =
        .ok ((literals text).regex, { rest := lineEnd, groups := 1, names := [("cmd", 1)] }) :=
    body_quoted (by omega) 1 _
  have fuel : ('(' :: '?' :: ':' :: (quote text ++ [')'])).length + 18 = (quote text).length + 22 := by simp
  rw [grouped]
  refine compile_line ?_
  rw [← grouped, fuel, body_of_group (skipSpace_default _) rfl (fun _ => GroupStart.noConfusion) inside rfl]
  rfl

end Rules

/-- Nothing or a blank comes next. -/
def Stops (rest : List Char) : Prop :=
  ∀ c ∈ rest.head?, Unicode.isWhite c = true

theorem ends_lineEnd (spot : Spot) (stops : Stops spot.rest) :
    ∃ last others, (Regex.alt (.set .blank) (.anchor .textEnd)).ends spot = last :: others ∧
      last.captures = spot.captures := by
  cases rest : spot.rest with
  | nil => exact ⟨spot, [], by simp [Regex.ends, rest, Anchor.holds, distinctSpots], rfl⟩
  | cons c more =>
    have blank : Unicode.isWhite c = true := stops c (by rw [rest]; rfl)
    have taken : (Regex.set .blank).ends spot =
        [{ spot with offset := spot.offset + 1, before := c :: spot.before, rest := more }] := by
      simp [Regex.ends, rest, CharSet.contains, blank]
    obtain ⟨others, same⟩ := Regex.ends_alt_cons (.anchor .textEnd) taken
    exact ⟨_, others, same, rfl⟩

theorem ends_lineEnd_nil {spot : Spot} (goesOn : ¬ Stops spot.rest) :
    (Regex.alt (.set .blank) (.anchor .textEnd)).ends spot = [] := by
  cases rest : spot.rest with
  | nil => exact absurd (fun c member => by rw [rest] at member; cases member) goesOn
  | cons c more =>
    have noBlank : Unicode.isWhite c = false := by
      rw [← Bool.not_eq_true]
      intro blank
      refine goesOn fun d member => ?_
      rw [rest] at member
      cases member
      exact blank
    simp [Regex.ends, rest, CharSet.contains, noBlank, Anchor.holds, distinctSpots]

variable {token : Regex} {content : List Char} {first : Spot} {others : List Spot}

/-- The first way to match the token is taken if it stops there. -/
theorem ends_lineRegex (begins : token.ends { rest := content } = first :: others) (stops : Stops first.rest) :
    ∃ last more, (lineRegex token).ends { rest := content } = last :: more ∧
      last.group? 1 = some (0, first.offset) := by
  have captured : (Regex.capture 1 token).ends { rest := content } =
      { first with captures := (1, 0, first.offset) :: first.captures } :: others.map fun last =>
        { last with captures := (1, 0, last.offset) :: last.captures } := by
    rw [Regex.ends, begins]
    rfl
  obtain ⟨last, more, goesOn, kept⟩ := ends_lineEnd
    { first with captures := (1, 0, first.offset) :: first.captures } stops
  obtain ⟨rest, same⟩ := Regex.ends_cat_cons captured goesOn
  have start : (Regex.anchor .textStart).ends { rest := content } = [{ rest := content }] := rfl
  obtain ⟨rest, same⟩ := Regex.ends_cat_cons start same
  exact ⟨last, rest, same, by rw [Spot.group?, kept]; rfl⟩

/-- A token that can end in one way only does not match if the line goes on there. -/
theorem ends_lineRegex_nil (only : ∀ last ∈ token.ends { rest := content }, ¬ Stops last.rest) :
    (lineRegex token).ends { rest := content } = [] := by
  have start : (Regex.anchor .textStart).ends { rest := content } = [{ rest := content }] := rfl
  have stuck : (Regex.cat (.capture 1 token) (.alt (.set .blank) (.anchor .textEnd))).ends
      { rest := content } = [] := by
    have none : ((Regex.capture 1 token).ends { rest := content }).flatMap
        (Regex.alt (.set .blank) (.anchor .textEnd)).ends = [] := by
      rw [List.flatMap_eq_nil_iff]
      intro spot member
      obtain ⟨last, inside, rfl⟩ := List.mem_map.mp member
      exact ends_lineEnd_nil (only last inside)
    rw [Regex.ends, none]
    rfl
  rw [lineRegex, Regex.ends, start, List.flatMap_singleton, stuck]
  rfl

namespace CommandTable

variable {pattern : CommandPattern} (line : pattern.compiled.regex = lineRegex token)
include line

theorem tokenEnd?_line (named : pattern.compiled.names.lookup tokenGroup = some 1)
    (begins : token.ends { rest := content } = first :: others) (stops : Stops first.rest)
    (nonempty : first.offset ≠ 0) : tokenEnd? pattern content = some first.offset := by
  obtain ⟨last, more, found, group⟩ := ends_lineRegex begins stops
  have search : pattern.compiled.regex.search content = some (0, last) := by
    rw [line]
    cases content <;> rw [Regex.search, searchFrom, found]
  simp [tokenEnd?, search, named, group, nonempty.symm]

theorem tokenEnd?_stuck (only : ∀ last ∈ token.ends { rest := content }, ¬ Stops last.rest) :
    tokenEnd? pattern content = none := by
  have search : pattern.compiled.regex.search content = none := by
    rw [line]
    cases content with
    | nil => rw [Regex.search, searchFrom, ends_lineRegex_nil only]
    | cons c rest =>
      rw [Regex.search, searchFrom, ends_lineRegex_nil only]
      exact Regex.searchFrom_of_anchored rfl rest 1 (List.cons_ne_nil c [])
  rw [tokenEnd?, search]
  rfl

end CommandTable

theorem mem_all (command : Command) : command ∈ Command.all := by
  rcases command with kind | kind | kind <;> cases kind <;> decide

/-- What the names of commands have in common: each names its command, starts with no bar, has no blank, and
comes before its merge in the order of keys. -/
theorem name_spec (command : Command) : Command.ofName? command.name = some command ∧
    command.name.toList.head? ≠ some '|' ∧ command.name.toList.all (! Unicode.isWhite ·) = true ∧
    command.name < "|" ++ command.name := by
  have listed : ∀ command ∈ Command.all, Command.ofName? command.name = some command ∧
      command.name.toList.head? ≠ some '|' ∧ command.name.toList.all (! Unicode.isWhite ·) = true ∧
      command.name < "|" ++ command.name := by
    decide +kernel
  exact listed command (mem_all command)

theorem ofName?_name (command : Command) : Command.ofName? command.name = some command :=
  (name_spec command).1

theorem name_of_ofName? {name : String} {command : Command} (found : Command.ofName? name = some command) :
    command.name = name := by
  rw [Command.ofName?] at found
  simpa using List.find?_some found

/-- A name is no key of a merge. -/
theorem head_name (command : Command) : command.name.toList.head? ≠ some '|' :=
  (name_spec command).2.1

theorem no_blank_name (command : Command) : ∀ c ∈ command.name.toList, Unicode.isWhite c = false := by
  intro c member
  simpa using List.all_eq_true.mp (name_spec command).2.2.1 c member

/-- A replacement comes before a merge in the order of the keys. -/
theorem name_lt_merge (command : Command) : command.name < "|" ++ command.name :=
  (name_spec command).2.2.2

theorem stripStart_append_self (start rest : List Char) : Text.stripStart start (start ++ rest) = some rest := by
  induction start with
  | nil => rfl
  | cons c start ih => simpa [Text.stripStart] using ih

theorem ends_literals_append {text : List Char} (nonempty : text ≠ []) (rest : List Char) :
    (literals text).regex.ends { rest := text ++ rest } = [({ rest := text ++ rest } : Spot).past text rest] := by
  rw [ends_literals nonempty, stripStart_append_self]
  rfl

/-- What a command is written as. -/
def tokenText (command : Command) : List Char :=
  '\\' :: command.name.toList

theorem tokenText_ne_nil (command : Command) : tokenText command ≠ [] :=
  List.cons_ne_nil _ _

/-- A content that starts with a command, up to a blank or the end. -/
def Starts (command : Command) (content : List Char) : Prop :=
  ∃ rest, content = tokenText command ++ rest ∧ Stops rest

namespace CommandTable

variable {pattern : CommandPattern} {command : Command} {content : List Char} {properties : Properties}

theorem defaultSource_toList (command : Command) : (defaultSource command).toList = quote (tokenText command) :=
  String.toList_ofList

def defaultPattern (command : Command) : CommandPattern :=
  ⟨command, defaultSource command, lineRegex (literals (tokenText command)).regex, [(tokenGroup, 1)]⟩

theorem tokenEnd?_of_starts (starts : Starts command content) :
    tokenEnd? (defaultPattern command) content = some (tokenText command).length := by
  obtain ⟨rest, rfl, stops⟩ := starts
  have ends := ends_literals_append (tokenText_ne_nil command) rest
  have length : (({ rest := tokenText command ++ rest } : Spot).past (tokenText command) rest).offset =
      (tokenText command).length := Nat.zero_add _
  rw [← length]
  exact tokenEnd?_line rfl rfl ends stops (length ▸ Nat.succ_ne_zero _)

theorem tokenEnd?_of_not_starts (other : ¬ Starts command content) :
    tokenEnd? (defaultPattern command) content = none := by
  refine tokenEnd?_stuck rfl fun last member stops => other ?_
  rw [ends_literals (tokenText_ne_nil command)] at member
  cases stripped : Text.stripStart (tokenText command) content with
  | none => simp [stripped] at member
  | some rest =>
    rw [stripped] at member
    cases List.mem_singleton.mp member
    exact ⟨rest, Text.stripStart_eq_some stripped, stops⟩

theorem lineSource_toList (token : String) : (lineSource token).toList =
    '^' :: '(' :: '?' :: 'P' :: '<' :: 'c' :: 'm' :: 'd' :: '>' :: (token.toList ++ lineEnd.drop 1) := by
  simp [lineSource, tokenGroup, lineEnd]

theorem lineSource_grouped (source : String) : (lineSource ("(?:" ++ source ++ ")")).toList =
    '^' :: '(' :: '?' :: 'P' :: '<' :: 'c' :: 'm' :: 'd' :: '>' :: '(' :: '?' :: ':' ::
      (source.toList ++ lineEnd) := by
  simp [lineSource, tokenGroup, lineEnd]

theorem compileToken_eq {source token : String} {compiled : Compiled}
    (read : compile (lineSource token).toList properties = .ok compiled) :
    compileToken command source token properties = .ok ⟨command, source, compiled⟩ := by
  rw [compileToken, read]

/-- The default source compiles to its pattern, with and without a group around it. -/
theorem compileToken_default (properties : Properties) (command : Command) :
    compileToken command (defaultSource command) (defaultSource command) properties =
      .ok (defaultPattern command) ∧
    compileToken command (defaultSource command) ("(?:" ++ defaultSource command ++ ")") properties =
      .ok (defaultPattern command) := by
  obtain ⟨plain, grouped⟩ := compile_literal properties (tokenText command)
  rw [← defaultSource_toList] at plain grouped
  exact ⟨compileToken_eq (by rw [lineSource_toList]; exact plain),
    compileToken_eq (by rw [lineSource_grouped]; exact grouped)⟩

theorem default_eq : default = ⟨Command.all.map defaultPattern⟩ := by
  have compiled : ((fun entry : Command × String => (compileToken entry.1 entry.2 entry.2).toOption) ∘
      fun command => (command, defaultSource command)) = some ∘ defaultPattern :=
    funext fun command => by
      rw [Function.comp_apply, (compileToken_default _ command).1]
      rfl
  rw [default, defaultSources, List.filterMap_map]
  exact congrArg CommandTable.mk ((congrArg (List.filterMap · Command.all) compiled).trans
    (congrFun List.filterMap_eq_map _))

/-- The better one of the best command so far and of one with its token. -/
def better (best : Option (Command × Nat)) (command : Command) (token? : Option Nat) :
    Option (Command × Nat) :=
  match token? with
  | none => best
  | some stop =>
    match best with
    | some (_, length) => if length ≤ stop then some (command, stop) else best
    | none => some (command, stop)

/-- If one command has a token and no other has any, it is the one that is recognised. -/
theorem recognize?_single {table : CommandTable} {length : Nat}
    (tokens : ∀ pattern ∈ table.patterns,
      tokenEnd? pattern content = if pattern.command = command then some length else none)
    (present : ∃ pattern ∈ table.patterns, pattern.command = command) :
    table.recognize? content = some (command, length) := by
  have settled : ∀ best : Option (Command × Nat), (best = none ∨ best = some (command, length)) →
      (best = none → ∃ pattern ∈ table.patterns, pattern.command = command) →
      table.patterns.foldl (fun best pattern => better best pattern.command (tokenEnd? pattern content)) best =
        some (command, length) := by
    clear present
    generalize table.patterns = patterns at tokens
    induction patterns with
    | nil =>
      intro best found missing
      rcases found with rfl | rfl
      · obtain ⟨pattern, member, -⟩ := missing rfl
        cases member
      · rfl
    | cons pattern patterns ih =>
      obtain ⟨here, later⟩ := List.forall_mem_cons.mp tokens
      intro best found missing
      rw [List.foldl_cons, here]
      by_cases own : pattern.command = command
      · have taken : better best pattern.command (some length) = some (command, length) := by
          rcases found with rfl | rfl <;> simp [better, own]
        rw [if_pos own, taken]
        exact ih later _ (.inr rfl) fun none => by cases none
      · rw [if_neg own]
        refine ih later best found fun none => ?_
        obtain ⟨other, member, same⟩ := missing none
        rcases List.mem_cons.mp member with rfl | behind
        · exact absurd same own
        · exact ⟨other, behind, same⟩
  exact settled none (.inl rfl) fun _ => present

theorem takeWhile_name {rest : List Char} (command : Command) (stops : Stops rest) :
    (command.name.toList ++ rest).takeWhile (! Unicode.isWhite ·) = command.name.toList := by
  have inside : ∀ c ∈ command.name.toList, (! Unicode.isWhite c) = true := fun c member => by
    rw [no_blank_name command c member]
    rfl
  rw [List.takeWhile_append_of_pos inside]
  cases rest with
  | nil => simp
  | cons c rest => simp [stops c rfl]

/-- No content starts with two commands. -/
theorem starts_unique {other : Command} (starts : Starts command content) (also : Starts other content) :
    command = other := by
  obtain ⟨rest, rfl, stops⟩ := starts
  obtain ⟨rest', same, stops'⟩ := also
  have names := takeWhile_name command stops
  have same : command.name.toList ++ rest = other.name.toList ++ rest' := (List.cons.inj same).2
  rw [same, takeWhile_name other stops'] at names
  have found := ofName?_name command
  rw [← String.toList_inj.mp names, ofName?_name other] at found
  exact (Option.some.inj found).symm

/-- A table whose commands have their default token where they stand, at least, and no other token. -/
theorem recognize?_of_starts {table : CommandTable} (starts : Starts command content)
    (own : ∀ pattern ∈ table.patterns, pattern.command = command →
      tokenEnd? pattern content = some (tokenText command).length)
    (others : ∀ pattern ∈ table.patterns, pattern.command ≠ command → pattern = defaultPattern pattern.command)
    (present : ∃ pattern ∈ table.patterns, pattern.command = command) :
    table.recognize? content = some (command, (tokenText command).length) := by
  refine recognize?_single (fun pattern member => ?_) present
  split
  case isTrue same => exact own pattern member same
  case isFalse other =>
    rw [others pattern member other]
    exact tokenEnd?_of_not_starts fun also => other (starts_unique starts also).symm

theorem recognize?_default_of_starts (starts : Starts command content) :
    default.recognize? content = some (command, (tokenText command).length) := by
  rw [default_eq]
  refine recognize?_of_starts starts (fun pattern member same => ?_) (fun pattern member _ => ?_)
    ⟨defaultPattern command, List.mem_map_of_mem (mem_all command), rfl⟩
  · obtain ⟨other, -, rfl⟩ := List.mem_map.mp member
    cases same
    exact tokenEnd?_of_starts starts
  · obtain ⟨other, -, rfl⟩ := List.mem_map.mp member
    rfl

/-- By default a command is recognised where a content starts with it, and nowhere else. -/
theorem recognize?_default_iff {length : Nat} : default.recognize? content = some (command, length) ↔
    Starts command content ∧ length = (tokenText command).length := by
  constructor
  · intro found
    by_cases known : ∃ other, Starts other content
    · obtain ⟨other, starts⟩ := known
      cases found.symm.trans (recognize?_default_of_starts starts)
      exact ⟨starts, rfl⟩
    · rw [not_exists] at known
      have none : default.recognize? content = none := by
        refine recognize?_eq_none fun pattern member => ?_
        rw [default_eq] at member
        obtain ⟨other, -, rfl⟩ := List.mem_map.mp member
        exact tokenEnd?_of_not_starts (known other)
      cases found.symm.trans none
  · rintro ⟨starts, rfl⟩
    exact recognize?_default_of_starts starts

end CommandTable

end DocComment.Comment
