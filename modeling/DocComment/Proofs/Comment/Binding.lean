import DocComment.Proofs.Comment.Foreseen

/-! What binds a comment: the declaration that it stands at, or else the one command that names a file
or an entity, or else the first module that is named, or else the file. Nothing but the command that
binds is taken from the comment. -/
namespace DocComment.Comment

/-- A command that names a file or an entity. -/
def Node.binds : Node → Bool
  | .special .file .. | .special .entity .. => true
  | _ => false

/-- The file or entity that a command names, if there is one. -/
def Node.named? (resolve : String → Option DeclId) (site : Site) : Node → Option DeclId
  | .special .file .. => site.file
  | .special .entity arguments _ => resolve (arguments.head?.getD "")
  | _ => none

def Node.namesModule : Node → Bool
  | .special .moduleName .. => true
  | _ => false

/-- What a comment is bound to, and the nodes that are left. -/
inductive Binds (resolve : String → Option DeclId) (freeFileBinding : Bool) (site : Site)
    (nodes : List Node) : Binding → List Node → Prop where
  | attached {id : DeclId} (stands : site.attached = some id)
      (nameless : ∀ node ∈ nodes, node.binds = false) :
      Binds resolve freeFileBinding site nodes (.declaration id) nodes
  | command {id : DeclId} {before after : List Node} {node : Node} (free : site.attached = none)
      (split : nodes = before ++ node :: after) (binds : node.binds = true)
      (only : ∀ other ∈ before ++ after, other.binds = false)
      (named : node.named? resolve site = some id) :
      Binds resolve freeFileBinding site nodes (.declaration id) (before ++ after)
  | firstModule {name : String} {arguments : List String} {line : Nat} {before after : List Node}
      (free : site.attached = none) (nameless : ∀ node ∈ nodes, node.binds = false)
      (split : nodes = before ++ .special .moduleName (name :: arguments) line :: after)
      (first : ∀ other ∈ before, other.namesModule = false) :
      Binds resolve freeFileBinding site nodes (.moduleName name) (before ++ after)
  | file {id : DeclId} (free : site.attached = none) (nameless : ∀ node ∈ nodes, node.binds = false)
      (noModule : ∀ node ∈ nodes, node.namesModule = false) (wanted : freeFileBinding = true)
      (inFile : site.file = some id) : Binds resolve freeFileBinding site nodes (.declaration id) nodes

variable {resolve : String → Option DeclId} {source : SourceTree} {site : Site}

theorem bindingTarget_of_other {node : Node} (other : node.binds = false) :
    bindingTarget resolve site node = none := by
  unfold Node.binds at other
  split at other
  · cases other
  · cases other
  · rename_i noFile noEntity
    unfold bindingTarget
    split
    · exact absurd rfl (noFile _ _)
    · exact absurd rfl (noEntity _ _)
    · rfl

/-- A command that binds has a target, which is an error if there is nothing of its name. -/
theorem bindingTarget_of_binds {node : Node} (binds : node.binds = true) :
    ∃ command line target, bindingTarget resolve site node = some (command, line, target) ∧
      target.toOption = (node.named? resolve site).map .declaration ∧ target ≠ .error .unbound := by
  unfold Node.binds at binds
  split at binds
  · refine ⟨_, _, _, rfl, ?_⟩
    rw [Node.named?]
    split <;> simp [Except.toOption, *]
  · refine ⟨_, _, _, rfl, ?_⟩
    rw [Node.named?]
    split <;> simp [Except.toOption, *]
  · cases binds

theorem bindByCommand_other {node : Node} (other : node.binds = false) (bound : Option Binding)
    (rest : List Node) :
    bindByCommand resolve source site bound (node :: rest) =
      (bindByCommand resolve source site bound rest).map fun (binding, left) => (binding, node :: left) := by
  rw [bindByCommand, bindingTarget_of_other other]
  cases bindByCommand resolve source site bound rest <;> rfl

theorem bindByCommand_other_eq_ok {node : Node} (other : node.binds = false)
    {bound chosen : Option Binding} {rest left : List Node} :
    bindByCommand resolve source site bound (node :: rest) = .ok (chosen, left) ↔
      ∃ kept, bindByCommand resolve source site bound rest = .ok (chosen, kept) ∧ left = node :: kept := by
  rw [bindByCommand_other other]
  cases bindByCommand resolve source site bound rest with
  | error => simp [Except.map]
  | ok result =>
    obtain ⟨binding, kept⟩ := result
    simp [Except.map, eq_comm, and_comm]

/-- What is bound already is bound by no command. -/
theorem bindByCommand_bound {binding : Binding} {nodes : List Node} :
    bindByCommand resolve source site (some binding) nodes = .ok result ↔
      result = (some binding, nodes) ∧ ∀ node ∈ nodes, node.binds = false := by
  induction nodes generalizing result with
  | nil => simp [bindByCommand, @eq_comm _ result]
  | cons node rest ih =>
    cases kind : node.binds with
    | true =>
      obtain ⟨command, line, target, chosen, _⟩ := @bindingTarget_of_binds resolve site node kind
      have refused : ¬ bindByCommand resolve source site (some binding) (node :: rest) = .ok result := by
        rw [bindByCommand, chosen]
        cases target <;> simp [Bind.bind, Except.bind]
      simp [refused, kind]
    | false =>
      obtain ⟨chosen, left⟩ := result
      simp only [bindByCommand_other_eq_ok kind, ih, Prod.mk.injEq, List.forall_mem_cons, kind, true_and]
      constructor
      · rintro ⟨_, ⟨⟨rfl, rfl⟩, nameless⟩, rfl⟩
        exact ⟨⟨rfl, rfl⟩, nameless⟩
      · rintro ⟨⟨rfl, rfl⟩, nameless⟩
        exact ⟨_, ⟨⟨rfl, rfl⟩, nameless⟩, rfl⟩

/-- The first command that binds gives a comment its target, if there is one of its name. -/
theorem bindByCommand_first {node : Node} (binds : node.binds = true) (rest : List Node) :
    bindByCommand resolve source site none (node :: rest) = .ok result ↔
      ∃ id, node.named? resolve site = some id ∧
        bindByCommand resolve source site (some (.declaration id)) rest = .ok result := by
  obtain ⟨command, line, target, chosen, known, _⟩ := @bindingTarget_of_binds resolve site node binds
  rw [bindByCommand, chosen]
  cases target with
  | error =>
    have unknown : node.named? resolve site = none := by simpa [Except.toOption] using known.symm
    simp [unknown, Bind.bind, Except.bind]
  | ok binding =>
    obtain ⟨id, found, rfl⟩ := Option.map_eq_some_iff.mp known.symm
    simp [found, Bind.bind, Except.bind]

/-- An unbound comment is bound by the only command that binds, or by none. -/
theorem bindByCommand_free {bound : Option Binding} {nodes left : List Node} :
    bindByCommand resolve source site none nodes = .ok (bound, left) ↔
      (bound = none ∧ left = nodes ∧ ∀ node ∈ nodes, node.binds = false) ∨
      ∃ before node after id, nodes = before ++ node :: after ∧ node.binds = true ∧
        (∀ other ∈ before ++ after, other.binds = false) ∧ node.named? resolve site = some id ∧
        bound = some (.declaration id) ∧ left = before ++ after := by
  induction nodes generalizing left with
  | nil =>
    constructor
    · rintro ⟨rfl⟩
      exact .inl ⟨rfl, rfl, by simp⟩
    · rintro (⟨rfl, rfl, _⟩ | ⟨_, _, _, _, split, _⟩)
      · rfl
      · simp at split
  | cons node rest ih =>
    cases kind : node.binds with
    | true =>
      have contradictory {others : List Node} (nameless : ∀ other ∈ node :: others, other.binds = false) :
          False := by
        have silent := nameless node List.mem_cons_self
        rw [kind] at silent
        cases silent
      rw [bindByCommand_first kind]
      simp only [bindByCommand_bound, Prod.mk.injEq]
      constructor
      · rintro ⟨id, named, ⟨rfl, rfl⟩, nameless⟩
        exact .inr ⟨[], node, left, id, rfl, kind, nameless, named, rfl, rfl⟩
      · rintro (⟨_, _, nameless⟩ | ⟨before, other, after, id, split, binds, only, named, rfl, rfl⟩)
        · cases contradictory nameless
        · rcases List.cons_eq_append_iff.mp split with ⟨rfl, same⟩ | ⟨before, rfl, _⟩
          · obtain ⟨rfl, rfl⟩ := List.cons.inj same
            exact ⟨id, named, ⟨rfl, rfl⟩, only⟩
          · cases contradictory only
    | false =>
      rw [bindByCommand_other_eq_ok kind]
      constructor
      · rintro ⟨kept, success, rfl⟩
        rcases ih.mp success with ⟨rfl, rfl, nameless⟩ |
          ⟨before, other, after, id, rfl, binds, only, named, rfl, rfl⟩
        · exact .inl ⟨rfl, rfl, List.forall_mem_cons.mpr ⟨kind, nameless⟩⟩
        · exact .inr ⟨node :: before, other, after, id, rfl, binds,
            List.forall_mem_cons.mpr ⟨kind, only⟩, named, rfl, rfl⟩
      · rintro (⟨rfl, rfl, nameless⟩ | ⟨before, other, after, id, split, binds, only, named, rfl, rfl⟩)
        · exact ⟨rest, ih.mpr (.inl ⟨rfl, rfl, (List.forall_mem_cons.mp nameless).2⟩), rfl⟩
        · rcases List.cons_eq_append_iff.mp split with ⟨rfl, same⟩ | ⟨before, rfl, rfl⟩
          · rw [(List.cons.inj same).1, kind] at binds
            cases binds
          · exact ⟨before ++ after, ih.mpr (.inr ⟨before, other, after, id, rfl, binds,
              (List.forall_mem_cons.mp only).2, named, rfl, rfl⟩), rfl⟩

/-- Every module command comes with a name. -/
def ModulesNamed (nodes : List Node) : Prop :=
  ∀ arguments line, .special .moduleName arguments line ∈ nodes → arguments ≠ []

theorem segment_modulesNamed (read : String → List Entity) (table : CommandTable) (text : String) :
    ModulesNamed (segment read table text) := by
  intro arguments line member
  obtain ⟨_, rest, taken⟩ := segment_special member
  exact SpecialCommand.arguments?_ne_nil taken (by simp)

theorem bindByModule_other {node : Node} (other : node.namesModule = false) (rest : List Node) :
    bindByModule (node :: rest) =
      (bindByModule rest).map fun (name, left) => (name, node :: left) := by
  rw [bindByModule]
  rintro name arguments line rfl
  cases other

theorem bindByModule_eq_some {name : String} {nodes left : List Node} (named : ModulesNamed nodes) :
    bindByModule nodes = some (name, left) ↔
      ∃ before arguments line after,
        nodes = before ++ .special .moduleName (name :: arguments) line :: after ∧
        (∀ other ∈ before, other.namesModule = false) ∧ left = before ++ after := by
  induction nodes generalizing left with
  | nil => simp [bindByModule]
  | cons node rest ih =>
    have later : ModulesNamed rest := fun arguments line member =>
      named arguments line (List.mem_cons_of_mem _ member)
    cases kind : node.namesModule with
    | true =>
      unfold Node.namesModule at kind
      split at kind
      · rename_i arguments line
        obtain ⟨own, others, rfl⟩ := List.exists_cons_of_ne_nil (named arguments line List.mem_cons_self)
        rw [bindByModule]
        constructor
        · rintro ⟨rfl, rfl⟩
          exact ⟨[], others, line, rest, rfl, by simp, rfl⟩
        · rintro ⟨before, arguments, number, after, split, first, rfl⟩
          rcases List.cons_eq_append_iff.mp split with ⟨rfl, same⟩ | ⟨before, rfl, _⟩
          · cases same
            rfl
          · cases first _ List.mem_cons_self
      · cases kind
    | false =>
      rw [bindByModule_other kind, Option.map_eq_some_iff]
      constructor
      · rintro ⟨⟨found, kept⟩, deeper, same⟩
        obtain ⟨rfl, rfl⟩ := Prod.mk.inj same
        obtain ⟨before, arguments, line, after, rfl, first, rfl⟩ := (ih later).mp deeper
        exact ⟨node :: before, arguments, line, after, rfl, List.forall_mem_cons.mpr ⟨kind, first⟩, rfl⟩
      · rintro ⟨before, arguments, line, after, split, first, rfl⟩
        rcases List.cons_eq_append_iff.mp split with ⟨rfl, same⟩ | ⟨before, rfl, rfl⟩
        · obtain ⟨rfl, _⟩ := List.cons.inj same
          cases kind
        · exact ⟨(name, before ++ after), (ih later).mpr ⟨before, arguments, line, after, rfl,
            (List.forall_mem_cons.mp first).2, rfl⟩, rfl⟩

theorem bindByModule_eq_none {nodes : List Node} (named : ModulesNamed nodes) :
    bindByModule nodes = none ↔ ∀ node ∈ nodes, node.namesModule = false := by
  induction nodes with
  | nil => simp [bindByModule]
  | cons node rest ih =>
    have later : ModulesNamed rest := fun arguments line member =>
      named arguments line (List.mem_cons_of_mem _ member)
    cases kind : node.namesModule with
    | true =>
      unfold Node.namesModule at kind
      split at kind
      · rename_i arguments line
        obtain ⟨own, others, rfl⟩ := List.exists_cons_of_ne_nil (named arguments line List.mem_cons_self)
        simp [bindByModule, Node.namesModule]
      · cases kind
    | false => simp [bindByModule_other kind, ih later, kind]

variable {freeFileBinding : Bool} {nodes left : List Node} {binding : Binding}

theorem bind_attached {id : DeclId} (stands : site.attached = some id) :
    bind resolve source freeFileBinding site nodes = .ok (binding, left) ↔
      binding = .declaration id ∧ left = nodes ∧ ∀ node ∈ nodes, node.binds = false := by
  simp only [bind, stands, Option.map_some, Except.bind_eq_ok, bindByCommand_bound]
  constructor
  · rintro ⟨_, ⟨rfl, nameless⟩, ⟨⟩⟩
    exact ⟨rfl, rfl, nameless⟩
  · rintro ⟨rfl, rfl, nameless⟩
    exact ⟨_, ⟨rfl, nameless⟩, rfl⟩

/-- Without a command that binds, a comment that stands at nothing is bound to a module or its file. -/
theorem bind_nameless (free : site.attached = none) (nameless : ∀ node ∈ nodes, node.binds = false) :
    bind resolve source freeFileBinding site nodes =
      match bindByModule nodes with
      | some (name, rest) => .ok (.moduleName name, rest)
      | none => match site.file with
        | some file => if freeFileBinding then .ok (.declaration file, nodes) else .error .unbound
        | none => .error .unbound := by
  have commands : bindByCommand resolve source site none nodes = .ok (none, nodes) :=
    bindByCommand_free.mpr (.inl ⟨rfl, rfl, nameless⟩)
  simp only [bind, free, Option.map_none, commands, Bind.bind, Except.bind]
  cases bindByModule nodes with
  | none =>
    cases site.file with
    | none => rfl
    | some file => cases freeFileBinding <;> rfl
  | some => rfl

/-- With a command that binds, a comment that stands at nothing is bound by it if it is the only one. -/
theorem bind_named (free : site.attached = none) (named : ∃ node ∈ nodes, node.binds = true) :
    bind resolve source freeFileBinding site nodes = .ok (binding, left) ↔
      ∃ before node after id, nodes = before ++ node :: after ∧ node.binds = true ∧
        (∀ other ∈ before ++ after, other.binds = false) ∧ node.named? resolve site = some id ∧
        binding = .declaration id ∧ left = before ++ after := by
  obtain ⟨node, member, binds⟩ := named
  have named {bound : Option Binding} {kept : List Node} :=
    (@bindByCommand_free resolve source site bound nodes kept).trans
      (or_iff_right fun unbound => by
        rw [unbound.2.2 node member] at binds
        cases binds)
  simp only [bind, free, Option.map_none, Except.bind_eq_ok]
  constructor
  · rintro ⟨⟨bound, kept⟩, commands, success⟩
    obtain ⟨before, node, after, id, split, binds, only, found, rfl, rfl⟩ := named.mp commands
    cases success
    exact ⟨before, node, after, id, split, binds, only, found, rfl, rfl⟩
  · rintro ⟨before, node, after, id, split, binds, only, found, rfl, rfl⟩
    exact ⟨_, named.mpr ⟨before, node, after, id, split, binds, only, found, rfl, rfl⟩, rfl⟩

theorem bind_eq_ok (named : ModulesNamed nodes) :
    bind resolve source freeFileBinding site nodes = .ok (binding, left) ↔
      Binds resolve freeFileBinding site nodes binding left := by
  cases stands : site.attached with
  | some id =>
    rw [bind_attached stands]
    constructor
    · rintro ⟨rfl, rfl, nameless⟩
      exact .attached stands nameless
    · rintro (⟨other, nameless⟩ | ⟨free⟩ | ⟨free⟩ | ⟨free⟩)
      · obtain rfl := Option.some.inj (stands.symm.trans other)
        exact ⟨rfl, rfl, nameless⟩
      all_goals cases stands.symm.trans free
  | none =>
    by_cases nameless : ∀ node ∈ nodes, node.binds = false
    · rw [bind_nameless stands nameless]
      constructor
      · intro success
        split at success
        · rename_i found
          cases success
          obtain ⟨before, arguments, line, after, split, first, rfl⟩ := (bindByModule_eq_some named).mp found
          exact .firstModule stands nameless split first
        · rename_i noModule
          split at success
          · split at success
            · rename_i inFile wanted
              cases success
              exact .file stands nameless ((bindByModule_eq_none named).mp noModule) wanted inFile
            · cases success
          · cases success
      · rintro (⟨other, _⟩ | ⟨_, rfl, binds, only, _⟩ | ⟨_, _, split, first⟩ | ⟨_, _, noModule, rfl, inFile⟩)
        · cases stands.symm.trans other
        · rw [nameless _ (by simp)] at binds
          cases binds
        · rw [(bindByModule_eq_some named).mpr ⟨_, _, _, _, split, first, rfl⟩]
        · rw [(bindByModule_eq_none named).mpr noModule, inFile]
          rfl
    · have named : ∃ node ∈ nodes, node.binds = true := by simpa using nameless
      rw [bind_named stands named]
      constructor
      · rintro ⟨before, node, after, id, split, binds, only, found, rfl, rfl⟩
        exact .command stands split binds only found
      · rintro (⟨other, _⟩ | ⟨_, split, binds, only, found⟩ | ⟨_, other, _⟩ | ⟨_, other, _⟩)
        · exact absurd ‹∀ node ∈ nodes, node.binds = false› nameless
        · exact ⟨_, _, _, _, split, binds, only, found, rfl, rfl⟩
        · exact absurd other nameless
        · exact absurd other nameless

theorem bindByCommand_ne_unbound (bound : Option Binding) (nodes : List Node) :
    bindByCommand resolve source site bound nodes ≠ .error .unbound := by
  induction nodes generalizing bound with
  | nil => simp [bindByCommand]
  | cons node rest ih =>
    cases kind : node.binds with
    | false =>
      rw [bindByCommand_other kind]
      have deeper := ih bound
      cases result : bindByCommand resolve source site bound rest with
      | error error =>
        rw [result] at deeper
        exact deeper
      | ok => simp [Except.map]
    | true =>
      obtain ⟨command, line, target, chosen, _, known⟩ := @bindingTarget_of_binds resolve site node kind
      rw [bindByCommand, chosen]
      cases target with
      | error error =>
        rintro ⟨⟩
        exact known rfl
      | ok binding =>
        cases bound with
        | none => exact ih _
        | some => simp [Bind.bind, Except.bind]

/-- A comment stays unbound if and only if nothing in it and nothing about its place binds it. -/
theorem bind_eq_unbound (named : ModulesNamed nodes) :
    bind resolve source freeFileBinding site nodes = .error .unbound ↔
      site.attached = none ∧ (∀ node ∈ nodes, node.binds = false ∧ node.namesModule = false) ∧
        (freeFileBinding = true → site.file = none) := by
  have known (bound : Option Binding) : bindByCommand resolve source site bound nodes ≠ .error .unbound :=
    bindByCommand_ne_unbound bound nodes
  constructor
  · intro unbound
    cases stands : site.attached with
    | some id =>
      simp only [bind, stands, Option.map_some, Bind.bind, Except.bind] at unbound
      split at unbound
      · rename_i failed
        cases unbound
        exact absurd failed (known _)
      · rename_i commands
        obtain ⟨rfl, _⟩ := bindByCommand_bound.mp commands
        cases unbound
    | none =>
      by_cases nameless : ∀ node ∈ nodes, node.binds = false
      · rw [bind_nameless stands nameless] at unbound
        split at unbound
        · cases unbound
        · rename_i noModule
          have modules := (bindByModule_eq_none named).mp noModule
          refine ⟨rfl, fun node member => ⟨nameless node member, modules node member⟩, fun wanted => ?_⟩
          cases inFile : site.file with
          | none => rfl
          | some file =>
            rw [inFile, wanted] at unbound
            cases unbound
      · simp only [bind, stands, Option.map_none, Bind.bind, Except.bind] at unbound
        split at unbound
        · rename_i failed
          cases unbound
          exact absurd failed (known _)
        · rename_i commands
          rcases bindByCommand_free.mp commands with ⟨_, _, nothing⟩ | ⟨_, _, _, _, _, _, _, _, bound, _⟩
          · exact absurd nothing nameless
          · rw [bound] at unbound
            cases unbound
  · rintro ⟨free, nothing, noFile⟩
    rw [bind_nameless free fun node member => (nothing node member).1,
      (bindByModule_eq_none named).mpr fun node member => (nothing node member).2]
    cases inFile : site.file with
    | none => rfl
    | some file =>
      have unwanted : freeFileBinding ≠ true := fun wanted => by
        rw [noFile wanted] at inFile
        cases inFile
      simp [unwanted]

/-- A comment is bound exactly as the precedence says, and if it is bound to nothing, it says so. -/
theorem bind_precedence (resolve : String → Option DeclId) (source : SourceTree) (freeFileBinding : Bool)
    (site : Site) (read : String → List Entity) (table : CommandTable) (text : String) :
    let nodes := segment read table text
    let result := bind resolve source freeFileBinding site nodes
    (∀ binding left, result = .ok (binding, left) ↔ Binds resolve freeFileBinding site nodes binding left) ∧
      (result = .error .unbound ↔
        site.attached = none ∧ (∀ node ∈ nodes, node.binds = false ∧ node.namesModule = false) ∧
          (freeFileBinding = true → site.file = none)) :=
  have named := segment_modulesNamed read table text
  ⟨fun _ _ => bind_eq_ok named, bind_eq_unbound named⟩

end DocComment.Comment
