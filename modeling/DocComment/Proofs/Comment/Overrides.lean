import DocComment.Config.Options
import DocComment.Proofs.Comment.Recognition

/-! Overrides of the command table. A pattern that is merged into a command stands after the pattern of that
command, so what was recognised before is still recognised, at the same length. -/
namespace DocComment.Comment

open Pattern

namespace CommandTable

variable {command : Command} {content : List Char} {properties : Properties}

/-- The sources after all overrides. -/
def sourcesAfter (overrides : List (String × String)) : Except PatternError (List (Command × String)) :=
  overrides.foldlM (fun sources override => overrideSource sources override.1 override.2) defaultSources

def compileSources (properties : Properties) (sources : List (Command × String)) :
    Except PatternError (List CommandPattern) :=
  sources.mapM fun entry => compileToken entry.1 entry.2 ("(?:" ++ entry.2 ++ ")") properties

theorem withOverrides_eq (overrides : List (String × String)) : withOverrides overrides properties =
    (sourcesAfter overrides).bind fun sources => (compileSources properties sources).map CommandTable.mk := by
  rw [withOverrides, sourcesAfter]
  cases overrides.foldlM (fun sources override => overrideSource sources override.1 override.2)
    defaultSources with
  | error fault => rfl
  | ok sources =>
    change (compileSources properties sources).bind _ = (compileSources properties sources).map _
    cases compileSources properties sources <;> rfl

theorem compileSources_default (commands : List Command) :
    compileSources properties (commands.map fun command => (command, defaultSource command)) =
      .ok (commands.map defaultPattern) := by
  induction commands with
  | nil => rfl
  | cons command commands ih =>
    rw [compileSources] at ih ⊢
    rw [List.map_cons, List.mapM_cons, ih, (compileToken_default properties command).2]
    rfl

theorem withOverrides_nil : withOverrides [] properties = .ok default := by
  have sources : sourcesAfter [] = .ok defaultSources := rfl
  rw [withOverrides_eq, sources, Except.bind, defaultSources, compileSources_default, default_eq]
  rfl

/-- Whether a key asks for a merge, and the name in it. -/
def keyParts (key : String) : Bool × String :=
  match key.toList with
  | '|' :: name => (true, String.ofList name)
  | _ => (false, key)

/-- The sources with that of one command changed. -/
def changed (target : Command) (change : String → String) (sources : List (Command × String)) :
    List (Command × String) :=
  sources.map fun entry => if entry.1 == target then (entry.1, change entry.2) else entry

theorem overrideSource_eq (sources : List (Command × String)) (key pattern : String) :
    overrideSource sources key pattern = match Command.ofName? (keyParts key).2 with
      | none => .error (.unknownCommand (keyParts key).2)
      | some target => .ok (changed target
          (fun source => if (keyParts key).1 then source ++ "|" ++ pattern else pattern) sources) :=
  rfl

theorem keyParts_name (command : Command) : keyParts command.name = (false, command.name) := by
  rw [keyParts]
  split
  case h_1 name start => exact absurd (by rw [start]; rfl) (head_name command)
  case h_2 => rfl

theorem keyParts_merge (command : Command) : keyParts ("|" ++ command.name) = (true, command.name) := by
  have key : ("|" ++ command.name).toList = '|' :: command.name.toList := by simp
  rw [keyParts, key]
  exact congrArg (Prod.mk true) String.ofList_toList

/-- A key names its command, with or without a bar. -/
theorem key_of_ofName? {key : String} {target : Command} (found : Command.ofName? (keyParts key).2 = some target) :
    key = target.name ∨ key = "|" ++ target.name := by
  have name := name_of_ofName? found
  rw [keyParts] at name
  split at name
  case h_1 rest start =>
    refine .inr (String.toList_inj.mp ?_)
    rw [start, name]
    simp
  case h_2 => exact .inl name.symm

theorem mem_changed_defaultSources (target : Command) (change : String → String) {own : Command}
    {source : String} :
    (own, source) ∈ changed target change defaultSources ↔
      source = if own = target then change (defaultSource own) else defaultSource own := by
  rw [changed, defaultSources, List.map_map, List.mem_map]
  constructor
  · rintro ⟨command, -, same⟩
    by_cases here : command = target
    · rw [Function.comp_apply, if_pos (beq_iff_eq.mpr here)] at same
      cases same
      exact (if_pos here).symm
    · rw [Function.comp_apply, if_neg (by simpa using here)] at same
      cases same
      exact (if_neg here).symm
  · intro same
    exact ⟨own, mem_all own, by by_cases here : own = target <;> simp [here, same]⟩

theorem lookup_changed (target : Command) (change : String → String) (sources : List (Command × String))
    (command : Command) : (changed target change sources).lookup command =
      (sources.lookup command).map fun source => if command = target then change source else source := by
  induction sources with
  | nil => rfl
  | cons entry sources ih =>
    obtain ⟨own, source⟩ := entry
    rw [changed] at ih ⊢
    have pair : (if own == target then (own, change source) else (own, source)) =
        (own, if own = target then change source else source) := by
      by_cases here : own = target <;> simp [here]
    simp only [List.map_cons, pair, List.lookup_cons]
    by_cases asked : command = own
    · subst asked
      simp
    · simp only [beq_false_of_ne asked]
      exact ih

/-- The source of a command after one override. -/
def overridden (command : Command) (source : String) (override : String × String) : String :=
  if override.1 = command.name then override.2
  else if override.1 = "|" ++ command.name then source ++ "|" ++ override.2
  else source

theorem name_ne_merge (command other : Command) : command.name ≠ "|" ++ other.name := by
  intro same
  exact head_name command (by rw [same]; simp)

theorem name_inj {command other : Command} (same : command.name = other.name) : command = other := by
  have found := ofName?_name command
  rw [same, ofName?_name other] at found
  exact (Option.some.inj found).symm

theorem lookup_overrideSource {sources after : List (Command × String)} {override : String × String}
    (applied : overrideSource sources override.1 override.2 = .ok after) (command : Command) :
    after.lookup command = (sources.lookup command).map (overridden command · override) := by
  obtain ⟨key, pattern⟩ := override
  rw [overrideSource_eq] at applied
  split at applied
  case h_1 => cases applied
  case h_2 target found =>
    cases applied
    rw [lookup_changed]
    congr 1
    funext source
    rcases key_of_ofName? found with rfl | rfl
    · rw [overridden, keyParts_name]
      by_cases own : command = target
      · simp [own]
      · have other : target.name ≠ command.name := fun same => own (name_inj same).symm
        simp [own, other, name_ne_merge]
    · rw [overridden, keyParts_merge]
      by_cases own : command = target
      · simp [own, (name_ne_merge target target).symm]
      · have other : "|" ++ target.name ≠ "|" ++ command.name := fun same =>
          own (name_inj (String.append_right_inj _ |>.mp same)).symm
        simp [own, other, (name_ne_merge command target).symm]

theorem lookup_defaultSources (command : Command) :
    defaultSources.lookup command = some (defaultSource command) := by
  have listed (commands : List Command) (member : command ∈ commands) :
      (commands.map fun command => (command, defaultSource command)).lookup command =
        some (defaultSource command) := by
    induction commands with
    | nil => cases member
    | cons other commands ih =>
      by_cases here : command = other
      · subst here
        simp
      · simpa [List.lookup_cons, beq_false_of_ne here] using ih ((List.mem_cons.mp member).resolve_left here)
  exact listed Command.all (mem_all command)

theorem lookup_foldlM {overrides : List (String × String)} {before sources : List (Command × String)}
    (applied : overrides.foldlM (fun sources override => overrideSource sources override.1 override.2) before =
      .ok sources) {command : Command} {source : String} (listed : before.lookup command = some source) :
    sources.lookup command = some (overrides.foldl (overridden command) source) := by
  induction overrides generalizing before source with
  | nil =>
    cases applied
    exact listed
  | cons override overrides ih =>
    rw [List.foldlM_cons] at applied
    obtain ⟨next, one, others⟩ := Except.exists_of_bind applied
    exact ih others (by rw [lookup_overrideSource one, listed]; rfl)

theorem lookup_sourcesAfter {overrides : List (String × String)} {sources : List (Command × String)}
    (applied : sourcesAfter overrides = .ok sources) (command : Command) :
    sources.lookup command = some (overrides.foldl (overridden command) (defaultSource command)) :=
  lookup_foldlM applied (lookup_defaultSources command)

theorem made_of_compileToken {source token : String} {pattern : CommandPattern}
    (read : compileToken command source token properties = .ok pattern) :
    pattern.command = command ∧ pattern.source = source := by
  rw [compileToken] at read
  split at read <;> cases read
  exact ⟨rfl, rfl⟩

/-- Each pattern is compiled from its source, in the order of the sources. -/
theorem compiled_sources {sources : List (Command × String)} {patterns : List CommandPattern}
    (compiled : compileSources properties sources = .ok patterns) :
    (patterns.map fun pattern => (pattern.command, pattern.source)) = sources ∧
      ∀ pattern ∈ patterns,
        compileToken pattern.command pattern.source ("(?:" ++ pattern.source ++ ")") properties =
          .ok pattern := by
  induction sources generalizing patterns with
  | nil =>
    cases compiled
    exact ⟨rfl, fun pattern member => by cases member⟩
  | cons entry sources ih =>
    rw [compileSources, List.mapM_cons] at compiled
    obtain ⟨first, one, compiled⟩ := Except.exists_of_bind compiled
    obtain ⟨others, rest, compiled⟩ := Except.exists_of_bind compiled
    cases compiled
    obtain ⟨same, read⟩ := ih rest
    obtain ⟨own, source⟩ := made_of_compileToken one
    refine ⟨by rw [List.map_cons, same, own, source], List.forall_mem_cons.mpr ⟨?_, read⟩⟩
    rw [own, source]
    exact one

theorem source?_eq_lookup (table : CommandTable) (command : Command) : table.source? command =
    (table.patterns.map fun pattern => (pattern.command, pattern.source)).lookup command := by
  rw [source?]
  induction table.patterns with
  | nil => rfl
  | cons pattern patterns ih =>
    by_cases here : pattern.command = command
    · simp [here]
    · simpa [here, List.lookup_cons, beq_false_of_ne (Ne.symm here)] using ih

/-- What is made of overrides: the sources after them, and the patterns compiled from these. -/
theorem patterns_of_withOverrides {overrides : List (String × String)} {table : CommandTable}
    (made : withOverrides overrides properties = .ok table) :
    ∃ sources, sourcesAfter overrides = .ok sources ∧ compileSources properties sources = .ok table.patterns := by
  rw [withOverrides_eq] at made
  obtain ⟨sources, applied, made⟩ := Except.exists_of_bind made
  obtain ⟨patterns, compiled, rfl⟩ := Except.exists_of_map made
  exact ⟨sources, applied, compiled⟩

theorem source?_withOverrides {overrides : List (String × String)} {table : CommandTable}
    (made : withOverrides overrides properties = .ok table) (command : Command) :
    table.source? command = some (overrides.foldl (overridden command) (defaultSource command)) := by
  obtain ⟨sources, applied, compiled⟩ := patterns_of_withOverrides made
  rw [source?_eq_lookup, (compiled_sources compiled).1, lookup_sourcesAfter applied command]

/-- Overrides of other commands do not matter. -/
theorem foldl_overridden_other {entries : List (String × String)} {command : Command}
    (others : ∀ entry ∈ entries, entry.1 ≠ command.name ∧ entry.1 ≠ "|" ++ command.name) (source : String) :
    entries.foldl (overridden command) source = source := by
  induction entries with
  | nil => rfl
  | cons entry entries ih =>
    obtain ⟨here, later⟩ := List.forall_mem_cons.mp others
    rw [List.foldl_cons, overridden, if_neg here.1, if_neg here.2]
    exact ih later

theorem foldl_overridden_sorted {entries : List (String × String)} {command : Command}
    {replacement addition : String} (sorted : entries.Pairwise fun a b => a.1 < b.1)
    (replaces : (command.name, replacement) ∈ entries) (merges : ("|" ++ command.name, addition) ∈ entries)
    (source : String) : entries.foldl (overridden command) source = replacement ++ "|" ++ addition := by
  obtain ⟨before, after, rfl⟩ := List.append_of_mem replaces
  obtain ⟨sortedBefore, sortedAfter, apart⟩ := List.pairwise_append.mp sorted
  obtain ⟨above, sortedAfter⟩ := List.pairwise_cons.mp sortedAfter
  have first := name_lt_merge command
  have behind : ("|" ++ command.name, addition) ∈ after := by
    rcases List.mem_append.mp merges with early | late
    · have below := apart _ early _ List.mem_cons_self
      exact absurd (String.lt_trans first below) (String.lt_irrefl _)
    · rcases List.mem_cons.mp late with same | later
      · exact absurd (congrArg Prod.fst same).symm (name_ne_merge command command)
      · exact later
  obtain ⟨between, rest, rfl⟩ := List.append_of_mem behind
  obtain ⟨-, sortedRest, below⟩ := List.pairwise_append.mp sortedAfter
  obtain ⟨past, -⟩ := List.pairwise_cons.mp sortedRest
  have noneBetween (entry : String × String) (member : entry ∈ between) :
      entry.1 ≠ command.name ∧ entry.1 ≠ "|" ++ command.name :=
    ⟨(String.ne_of_lt (above entry (List.mem_append_left _ member))).symm,
      String.ne_of_lt (below entry member _ List.mem_cons_self)⟩
  have noneAfter (entry : String × String) (member : entry ∈ rest) :
      entry.1 ≠ command.name ∧ entry.1 ≠ "|" ++ command.name :=
    ⟨(String.ne_of_lt (String.lt_trans first (past entry member))).symm,
      (String.ne_of_lt (past entry member)).symm⟩
  have replaced (source : String) : overridden command source (command.name, replacement) = replacement :=
    if_pos rfl
  have merged : overridden command replacement ("|" ++ command.name, addition) =
      replacement ++ "|" ++ addition := by
    rw [overridden, if_neg (name_ne_merge command command).symm, if_pos rfl]
  rw [List.foldl_append, List.foldl_cons, replaced, List.foldl_append, foldl_overridden_other noneBetween,
    List.foldl_cons, merged, foldl_overridden_other noneAfter]

/-- A pattern that is merged into a command compiles to the alternatives of both. -/
theorem compileToken_merged {addition : String} {pattern : CommandPattern} {alone : Compiled}
    (valid : compile addition.toList properties = .ok alone)
    (merged : compileToken command (defaultSource command ++ "|" ++ addition)
      ("(?:" ++ (defaultSource command ++ "|" ++ addition) ++ ")") properties = .ok pattern) :
    (∃ others, pattern.compiled.regex = lineRegex (.alt (literals (tokenText command)).regex others)) ∧
      pattern.compiled.names.lookup tokenGroup = some 1 := by
  obtain ⟨final, validReads, whole, -⟩ := reads_of_compile valid
  rw [compileToken] at merged
  split at merged
  case h_2 => cases merged
  case h_1 compiled read =>
    cases merged
    have source : (defaultSource command ++ "|" ++ addition).toList ++ lineEnd =
        quote (tokenText command) ++ '|' :: (addition.toList ++ lineEnd) := by
      simp [defaultSource_toList]
    rw [lineSource_grouped, source] at read
    obtain ⟨last, reads, -, names⟩ := reads_of_compile read
    obtain ⟨others, same, named⟩ := reads_line validReads whole reads
    exact ⟨⟨others, same⟩, names ▸ named⟩

/-- A command that is recognised by default is so with a pattern that is merged into it. -/
theorem tokenEnd?_merged {pattern : CommandPattern} {others : Regex}
    (line : pattern.compiled.regex = lineRegex (.alt (literals (tokenText command)).regex others))
    (named : pattern.compiled.names.lookup tokenGroup = some 1) (starts : Starts command content) :
    tokenEnd? pattern content = some (tokenText command).length := by
  obtain ⟨rest, rfl, stops⟩ := starts
  obtain ⟨more, ends⟩ := Regex.ends_alt_cons others (ends_literals_append (tokenText_ne_nil command) rest)
  have length : (({ rest := tokenText command ++ rest } : Spot).past (tokenText command) rest).offset =
      (tokenText command).length := Nat.zero_add _
  rw [← length]
  exact tokenEnd?_line line named ends stops (length ▸ Nat.succ_ne_zero _)

theorem sourcesAfter_merge (command : Command) (addition : String) :
    sourcesAfter [("|" ++ command.name, addition)] =
      .ok (changed command (fun source => source ++ "|" ++ addition) defaultSources) := by
  rw [sourcesAfter, List.foldlM_cons, overrideSource_eq, keyParts_merge, ofName?_name]
  rfl

theorem recognize?_merged {command : Command} {addition : String} {table : CommandTable} {alone : Compiled}
    (valid : compile addition.toList properties = .ok alone)
    (made : withOverrides [("|" ++ command.name, addition)] properties = .ok table) (starts : Starts command content) :
    table.recognize? content = some (command, (tokenText command).length) := by
  obtain ⟨sources, applied, compiled⟩ := patterns_of_withOverrides made
  cases (sourcesAfter_merge command addition).symm.trans applied
  obtain ⟨made, each⟩ := compiled_sources compiled
  have listed {own : Command} {source : String} :=
    made ▸ @mem_changed_defaultSources command (fun source => source ++ "|" ++ addition) own source
  have source (pattern : CommandPattern) (member : pattern ∈ table.patterns) : pattern.source =
      if pattern.command = command then defaultSource pattern.command ++ "|" ++ addition
      else defaultSource pattern.command :=
    listed.mp (List.mem_map.mpr ⟨pattern, member, rfl⟩)
  refine recognize?_of_starts starts (fun pattern member own => ?_) (fun pattern member other => ?_) ?_
  · have read := each pattern member
    rw [source pattern member, if_pos own, own] at read
    obtain ⟨⟨others, line⟩, named⟩ := compileToken_merged valid read
    exact tokenEnd?_merged line named starts
  · have read := each pattern member
    rw [source pattern member, if_neg other, (compileToken_default properties pattern.command).2] at read
    exact (Except.ok.inj read).symm
  · obtain ⟨pattern, member, same⟩ := List.mem_map.mp (listed.mpr (if_pos (rfl : command = command)).symm)
    exact ⟨pattern, member, congrArg Prod.fst same⟩

/-- Merging never loses the default, whatever properties of characters there are. Without overrides a command
is recognised exactly where a content starts with it, up to a blank or the end. With a valid pattern merged into
a command, that command is recognised wherever it was, at the same length. If a configuration has both a
replacement and a merge for a command, the replacement comes first. -/
theorem merge_keeps_default (properties : Properties) :
    (withOverrides [] properties = .ok default ∧
      ∀ (content : List Char) (command : Command) (length : Nat),
        default.recognize? content = some (command, length) ↔
          (∃ rest, content = '\\' :: (command.name.toList ++ rest) ∧
            ∀ c ∈ rest.head?, Unicode.isWhite c = true) ∧ length = command.name.toList.length + 1) ∧
    (∀ (command : Command) (addition : String) (table : CommandTable),
      (∃ alone, compile addition.toList properties = .ok alone) →
      withOverrides [("|" ++ command.name, addition)] properties = .ok table →
      ∀ (content : List Char) (length : Nat), default.recognize? content = some (command, length) →
        table.recognize? content = some (command, length)) ∧
    ∀ (config : Config) (table : CommandTable) (command : Command) (replacement addition : String),
      config.commandTable properties = .ok table → (command.name, replacement) ∈ config.commands.entries →
      ("|" ++ command.name, addition) ∈ config.commands.entries →
      table.source? command = some (replacement ++ "|" ++ addition) := by
  refine ⟨⟨withOverrides_nil, fun content command length => recognize?_default_iff⟩, ?_, ?_⟩
  · rintro command addition table ⟨alone, valid⟩ made content length found
    obtain ⟨starts, rfl⟩ := recognize?_default_iff.mp found
    exact recognize?_merged valid made starts
  · intro config table command replacement addition made replaces merges
    have made : withOverrides config.commands.entries properties = .ok table := by
      rw [Config.commandTable] at made
      cases result : withOverrides config.commands.entries properties with
      | error fault =>
        rw [result] at made
        cases made
      | ok other =>
        rw [result] at made
        cases made
        rfl
    rw [source?_withOverrides made command,
      foldl_overridden_sorted config.commands.sorted replaces merges (defaultSource command)]

/-- An override is accepted if the pattern of its command compiles. All other commands keep theirs. -/
theorem withOverrides_changed (overrides : List (String × String)) {command : Command}
    {pattern : CommandPattern}
    (change : String → String)
    (applied : sourcesAfter overrides = .ok (changed command change defaultSources))
    (read : compileToken command (change (defaultSource command))
      ("(?:" ++ change (defaultSource command) ++ ")") properties = .ok pattern) :
    withOverrides overrides properties =
      .ok ⟨Command.all.map fun other => if other = command then pattern else defaultPattern other⟩ := by
  have compiled (commands : List Command) :
      compileSources properties (changed command change (commands.map fun command => (command, defaultSource command))) =
        .ok (commands.map fun other => if other = command then pattern else defaultPattern other) := by
    induction commands with
    | nil => rfl
    | cons other commands ih =>
      rw [compileSources, changed] at ih ⊢
      rw [List.map_cons, List.map_cons, List.mapM_cons, ih]
      by_cases own : other = command
      · subst own
        simp only [BEq.rfl, if_true, read, List.map_cons]
        rfl
      · simp only [beq_false_of_ne own, Bool.false_eq_true, if_false, (compileToken_default properties other).2,
          List.map_cons, if_neg own]
        rfl
  rw [withOverrides_eq, applied, Except.bind, defaultSources, compiled]
  rfl

/-- The property of the hexadecimal digits, and no other. -/
def hexDigits : Properties := fun property =>
  if property = ⟨"AHex", none⟩ then some [('0', '9'), ('A', 'F'), ('a', 'f')] else none

/-- A token with blanks, a comment, a group and a property. -/
def verboseToken : String := "(?x) kurz # short\n | ( ?:\\p\x7bAHex\x7d)+"

/-- A token with alternatives of its own, merged into a command, and a merge into a replacement. -/
theorem merge_keeps_default_verbose :
    (∃ table, withOverrides [("|brief", verboseToken)] hexDigits = .ok table ∧
      table.recognize? "\\brief text".toList = some (.part .brief, 6)) ∧
    ∃ table, ({ commands := .ofList [("brief", "kurz"), ("|brief", "b+")] } : Config).commandTable hexDigits =
      .ok table ∧ table.source? (.part .brief) = some "kurz|b+" := by
  have ok {ε α : Type} {result : Except ε α} (returned : result.toOption.isSome = true) :
      ∃ value, result = .ok value := by
    cases result with
    | error fault => cases returned
    | ok value => exact ⟨value, rfl⟩
  obtain ⟨⟨-, recognised⟩, merged, replaced⟩ := merge_keeps_default hexDigits
  obtain ⟨alone, valid⟩ := ok (by decide :
    (compile verboseToken.toList hexDigits).toOption.isSome = true)
  obtain ⟨pattern, read⟩ := ok (by decide +kernel :
    (compileToken (.part .brief) (defaultSource (.part .brief) ++ "|" ++ verboseToken)
      ("(?:" ++ (defaultSource (.part .brief) ++ "|" ++ verboseToken) ++ ")") hexDigits).toOption.isSome = true)
  have made := withOverrides_changed [("|brief", verboseToken)]
    (fun source => source ++ "|" ++ verboseToken) rfl read
  obtain ⟨other, second⟩ := ok (by decide :
    (compileToken (.part .brief) "kurz|b+" "(?:kurz|b+)" hexDigits).toOption.isSome = true)
  have both := withOverrides_changed [("brief", "kurz"), ("|brief", "b+")]
    (fun _ => "kurz|b+") rfl second
  have found : default.recognize? "\\brief text".toList = some (.part .brief, 6) :=
    (recognised _ _ _).mpr ⟨⟨[' ', 't', 'e', 'x', 't'], by decide, fun c blank => by cases blank; decide⟩,
      by decide⟩
  have configured : ({ commands := .ofList [("brief", "kurz"), ("|brief", "b+")] } : Config).commandTable
      hexDigits = _ := congrArg (Except.mapError ConfigError.commandPattern) both
  exact ⟨⟨_, made, merged (.part .brief) _ _ ⟨alone, valid⟩ made _ _ found⟩,
    _, configured, replaced _ _ (.part .brief) "kurz" "b+" configured (by decide) (by decide)⟩

end CommandTable

end DocComment.Comment
