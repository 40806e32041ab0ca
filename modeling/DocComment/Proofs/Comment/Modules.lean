import DocComment.Proofs.Comment.Metadata
import Mathlib.Data.List.Nodup

/-! Comments with more than one module command. The first binds the comment, and one more is metadata of
the module: the comment gives what it would give without that command, but for the metadata. -/
namespace DocComment.Comment

variable {source : SourceTree} {binding : Binding}

/-- Sets the module, and nothing else. -/
def Draft.withModule (name : Option String) (draft : Draft) : Draft :=
  { draft with fields := { draft.fields with moduleName := name } }

theorem Draft.special_withModule {command : SpecialCommand} (other : command ≠ .moduleName)
    (entity : String) (arguments : List String) (fields : Fields) (name : Option String) :
    Draft.special entity command arguments { fields with moduleName := name } =
      (Draft.special entity command arguments fields).map ({ · with moduleName := name }) := by
  cases command with
  | moduleName => exact absurd rfl other
  | endBlock | entity | file => rfl
  | exclude =>
    simp only [Draft.special]
    split <;> rfl
  | uniqueName | outputName | synopsis =>
    simp only [Draft.special]
    cases Draft.setOnce entity _ _ arguments.head? <;> rfl
  | outputSection =>
    simp only [Draft.special]
    split <;> rfl
  | group =>
    have named (group : String) (heading : Option String) :
        Draft.groupFields { fields with moduleName := name } group heading =
          { Draft.groupFields fields group heading with moduleName := name } := by
      unfold Draft.groupFields
      split <;> rfl
    simp only [Draft.special, named]
    split <;> rfl

/-- Nodes that name no module leave it alone. -/
theorem Draft.apply_withModule {node : Node} (other : node.namesModule = false) (draft : Draft)
    (name : Option String) :
    (draft.withModule name).apply source binding entity node =
      (draft.apply source binding entity node).map (Draft.withModule name) := by
  cases node with
  | markup | part => rfl
  | special command arguments line =>
    have command_ : command ≠ .moduleName := by
      intro same
      subst same
      cases other
    simp only [Draft.apply, Draft.withModule]
    rw [special_withModule command_]
    cases Draft.special entity command arguments draft.fields <;> rfl
  | inline command part content line =>
    cases binding with
    | moduleName => rfl
    | declaration owner =>
      have same : (draft.withModule name).parts = draft.parts := rfl
      simp only [Draft.apply, Draft.inline]
      cases source.subPart? owner command.partKind part with
      | none => rfl
      | some id =>
        dsimp only
        rw [same]
        by_cases twice : draft.parts.contains id = true
        · rw [if_pos twice, if_pos twice]
          rfl
        · rw [if_neg twice, if_neg twice]
          rfl

theorem Draft.applyAll_withModule {nodes : List Node} (others : ∀ node ∈ nodes, node.namesModule = false)
    (draft : Draft) (name : Option String) :
    nodes.foldlM (Draft.apply source binding entity) (draft.withModule name) =
      (nodes.foldlM (Draft.apply source binding entity) draft).map (Draft.withModule name) := by
  induction nodes generalizing draft with
  | nil => rfl
  | cons node rest ih =>
    obtain ⟨first, later⟩ := List.forall_mem_cons.mp others
    rw [List.foldlM_cons, List.foldlM_cons, apply_withModule first]
    cases draft.apply source binding entity node with
    | error => rfl
    | ok next => exact ih later next

/-- A module command among nodes that name no module sets the module of the draft. -/
theorem Draft.applyAll_module {before after : List Node}
    (others : ∀ node ∈ before ++ after, node.namesModule = false) {draft : Draft}
    (unset : draft.withModule none = draft) (name : String) (arguments : List String) (line : Nat) :
    (before ++ .special .moduleName (name :: arguments) line :: after).foldlM
        (Draft.apply source binding entity) draft =
      ((before ++ after).foldlM (Draft.apply source binding entity) draft).map
        (Draft.withModule (some name)) := by
  induction before generalizing draft with
  | nil =>
    have set : draft.apply source binding entity (.special .moduleName (name :: arguments) line) =
        .ok (draft.withModule (some name)) := by
      rw [← unset]
      rfl
    rw [List.nil_append, List.foldlM_cons, set]
    exact applyAll_withModule others draft (some name)
  | cons node rest ih =>
    obtain ⟨first, later⟩ := List.forall_mem_cons.mp others
    rw [List.cons_append, List.cons_append, List.foldlM_cons, List.foldlM_cons]
    have kept : (draft.withModule none).apply source binding entity node = _ :=
      apply_withModule first draft none
    rw [unset] at kept
    cases applied : draft.apply source binding entity node with
    | error => rfl
    | ok next =>
      rw [applied] at kept
      exact ih later (Except.ok.inj kept).symm

theorem ensureRequired_mapFields (source : SourceTree) (change : Fields → Fields) (entity : Entity) :
    ensureRequired source (entity.mapFields change) = (ensureRequired source entity).mapFields change := by
  cases entity with
  | leaf => rfl
  | node tag children => cases tag <;> simp [ensureRequired, Entity.mapFields]

/-- A module command is metadata, and apart from that the comment says the same without it. -/
theorem assemble_module {before after : List Node}
    (others : ∀ node ∈ before ++ after, node.namesModule = false) (name : String)
    (arguments : List String) (line : Nat) :
    assemble source binding (before ++ .special .moduleName (name :: arguments) line :: after) =
      (assemble source binding (before ++ after)).map
        (Entity.mapFields ({ · with moduleName := some name })) := by
  have brief : (before ++ .special .moduleName (name :: arguments) line :: after).any isBriefNode =
      (before ++ after).any isBriefNode := by
    simp [isBriefNode]
  rw [assemble_eq, assemble_eq, brief, Draft.applyAll_module others rfl]
  cases (before ++ after).foldlM (Draft.apply source binding (binding.describe source)) _ with
  | error => rfl
  | ok draft =>
    have same : Entity.node (binding.tag (draft.withModule (some name)).fields)
          draft.sections.briefFirst.entities =
        (Entity.node (binding.tag draft.fields) draft.sections.briefFirst.entities).mapFields
          ({ · with moduleName := some name }) := by
      cases binding <;> rfl
    have finished := ensureRequired_mapFields source ({ · with moduleName := some name })
      (.node (binding.tag draft.fields) draft.sections.briefFirst.entities)
    rw [← same] at finished
    exact congrArg Except.ok finished

theorem slot?_of_namesModule {node : Node} (names : node.namesModule = true) :
    node.slot? = some .moduleName := by
  unfold Node.namesModule at names
  split at names
  · rfl
  · cases names

/-- The names of modules come from the commands that name some. -/
theorem value?_of_other {node : Node} (other : node.namesModule = false) :
    node.value? .moduleName = none := by
  unfold Node.value?
  split
  · split
    · rename_i same
      subst same
      cases other
    · rfl
  · rfl

theorem filterMap_value?_of_others {nodes : List Node}
    (others : ∀ node ∈ nodes, node.namesModule = false) :
    nodes.filterMap (Node.value? .moduleName) = [] :=
  List.filterMap_eq_nil_iff.mpr fun node member => value?_of_other (others node member)

theorem filter_of_others {nodes : List Node} (others : ∀ node ∈ nodes, node.namesModule = false) :
    nodes.filter (!·.namesModule) = nodes :=
  List.filter_eq_self.mpr fun node member => by rw [others node member]; rfl

/-- The nodes around the first command that names a module. -/
structure FirstModule (nodes before : List Node) (name : String) (after : List Node) : Prop where
  split : ∃ arguments line, nodes = before ++ .special .moduleName (name :: arguments) line :: after
  first : ∀ node ∈ before, node.namesModule = false

theorem exists_firstModule {nodes : List Node} (named : ModulesNamed nodes)
    (positive : 1 ≤ nodes.countP Node.namesModule) :
    ∃ before name after, FirstModule nodes before name after ∧ ModulesNamed after := by
  cases found : bindByModule nodes with
  | none =>
    have unnamed := List.countP_eq_zero.mpr fun node member => by
      simpa using (bindByModule_eq_none named).mp found node member
    omega
  | some result =>
    obtain ⟨name, left⟩ := result
    obtain ⟨before, arguments, line, after, rfl, first, _⟩ := (bindByModule_eq_some named).mp found
    exact ⟨before, name, after, ⟨⟨arguments, line, rfl⟩, first⟩,
      fun arguments line member => named arguments line (by simp [member])⟩

namespace FirstModule

variable {nodes before after : List Node} {name : String} (first : FirstModule nodes before name after)
include first

theorem countP : nodes.countP Node.namesModule = after.countP Node.namesModule + 1 := by
  obtain ⟨⟨arguments, line, rfl⟩, unnamed⟩ := first
  have none := List.countP_eq_zero.mpr fun node member => by simpa using unnamed node member
  rw [List.countP_append, none, Nat.zero_add, List.countP_cons_of_pos rfl]

theorem names : nodes.filterMap (Node.value? .moduleName) =
    name :: after.filterMap (Node.value? .moduleName) := by
  obtain ⟨⟨arguments, line, rfl⟩, unnamed⟩ := first
  rw [List.filterMap_append, filterMap_value?_of_others unnamed]
  simp [Node.value?]

/-- Without commands that name modules. -/
theorem plain : nodes.filter (!·.namesModule) = before ++ after.filter (!·.namesModule) := by
  obtain ⟨⟨arguments, line, rfl⟩, unnamed⟩ := first
  rw [List.filter_append, filter_of_others unnamed, List.filter_cons_of_neg (by simp [Node.namesModule])]

/-- A comment that nothing else binds is bound by the first module. -/
theorem bind {resolve : String → Option DeclId} {freeFileBinding : Bool} {site : Site}
    (named : ModulesNamed nodes) (free : site.attached = none)
    (nameless : ∀ node ∈ nodes, node.binds = false) :
    Comment.bind resolve source freeFileBinding site nodes = .ok (.moduleName name, before ++ after) := by
  obtain ⟨⟨arguments, line, rfl⟩, unnamed⟩ := first
  exact (bind_eq_ok named).mpr (.firstModule free nameless rfl unnamed)

end FirstModule

/-- The names are as many as the commands. -/
theorem length_filterMap_value? {nodes : List Node} (named : ModulesNamed nodes) :
    (nodes.filterMap (Node.value? .moduleName)).length = nodes.countP Node.namesModule := by
  induction count : nodes.countP Node.namesModule generalizing nodes with
  | zero =>
    have unnamed : ∀ node ∈ nodes, node.namesModule = false := by simpa using List.countP_eq_zero.mp count
    rw [filterMap_value?_of_others unnamed]
    rfl
  | succ more ih =>
    obtain ⟨before, name, after, first, later⟩ := exists_firstModule named (by omega)
    rw [first.names, List.length_cons, ih later (by have := first.countP; omega)]

/-- Documentation is assembled with one module command at most. -/
theorem countP_of_assemble {nodes : List Node} {entity : Entity}
    (success : assemble source binding nodes = .ok entity) : nodes.countP Node.namesModule ≤ 1 := by
  have slots : (nodes.filterMap Node.slot?).count .moduleName ≤ 1 :=
    List.nodup_iff_count_le_one.mp (nodup_of_assemble success) .moduleName
  refine le_trans ?_ slots
  rw [List.count_filterMap]
  exact List.countP_mono_left fun node _ names => by simp [slot?_of_namesModule names]

/-- Beside the first module, one more is metadata, and two more are an error. -/
theorem assemble_modules {before after : List Node} (unnamed : ∀ node ∈ before, node.namesModule = false)
    (named : ModulesNamed after) (several : 1 ≤ after.countP Node.namesModule) (entity : Entity) :
    assemble source binding (before ++ after) = .ok entity ↔
      ∃ second plain, after.filterMap (Node.value? .moduleName) = [second] ∧
        assemble source binding (before ++ after.filter (!·.namesModule)) = .ok plain ∧
        entity = plain.mapFields ({ · with moduleName := some second }) := by
  obtain ⟨middle, second, rest, first, later⟩ := exists_firstModule named several
  by_cases lone : ∀ node ∈ rest, node.namesModule = false
  · have single : after.filterMap (Node.value? .moduleName) = [second] := by
      rw [first.names, filterMap_value?_of_others lone]
    have plain : before ++ after.filter (!·.namesModule) = before ++ middle ++ rest := by
      rw [first.plain, filter_of_others lone, List.append_assoc]
    obtain ⟨⟨arguments, line, rfl⟩, quiet⟩ := first
    rw [single, plain, ← List.append_assoc, assemble_module (List.forall_mem_append.mpr
      ⟨List.forall_mem_append.mpr ⟨unnamed, quiet⟩, lone⟩)]
    constructor
    · intro success
      cases assembled : assemble source binding (before ++ middle ++ rest) with
      | error =>
        rw [assembled] at success
        cases success
      | ok plain =>
        rw [assembled] at success
        exact ⟨second, plain, rfl, rfl, (Except.ok.inj success).symm⟩
    · rintro ⟨_, plain, ⟨rfl⟩, assembled, rfl⟩
      rw [assembled]
      rfl
  · have two : 2 ≤ after.countP Node.namesModule := by
      have one : 0 < rest.countP Node.namesModule := by
        rw [List.countP_pos_iff]
        simpa using lone
      have count := first.countP
      omega
    constructor
    · intro success
      have once := countP_of_assemble success
      rw [List.countP_append] at once
      omega
    · rintro ⟨_, _, single, _⟩
      have length := length_filterMap_value? named
      rw [single, List.length_singleton] at length
      omega

/-- A comment that stands at nothing and names neither a file nor an entity, but several modules, is
documentation of the first one. It can name one more, which becomes its metadata. -/
theorem compile_modules {compiler : Compiler} {resolve : String → Option DeclId} {source : SourceTree}
    {site : Site} {text : String} (free : site.attached = none)
    (nameless : ∀ node ∈ segment compiler.read compiler.table text, node.binds = false)
    (several : 2 ≤ (segment compiler.read compiler.table text).countP Node.namesModule) (entity : Entity) :
    compiler.compile resolve source site text = .ok entity ↔
      ∃ first second plain,
        (segment compiler.read compiler.table text).filterMap (Node.value? .moduleName) = [first, second] ∧
        assemble source (.moduleName first)
            ((segment compiler.read compiler.table text).filter (!·.namesModule)) = .ok plain ∧
        entity = plain.mapFields ({ · with moduleName := some second }) := by
  have named := segment_modulesNamed compiler.read compiler.table text
  obtain ⟨before, name, after, first, later⟩ := exists_firstModule named (by omega)
  have compiled : compiler.compile resolve source site text =
      assemble source (.moduleName name) (before ++ after) := by
    change (bind resolve source compiler.freeFileBinding site _).bind _ = _
    rw [first.bind named free nameless]
    rfl
  have more : 1 ≤ after.countP Node.namesModule := by
    have count := first.countP
    omega
  rw [compiled, assemble_modules first.first later more, first.names, first.plain]
  constructor
  · rintro ⟨second, plain, single, assembled, same⟩
    exact ⟨name, second, plain, by rw [single], assembled, same⟩
  · rintro ⟨_, second, plain, names, assembled, same⟩
    obtain ⟨rfl, single⟩ := List.cons.inj names
    exact ⟨second, plain, single, assembled, same⟩

/-- What a comment with two modules is compiled with, and its text. -/
def moduleCompiler : Compiler :=
  ⟨Markup.read, .ofCommands [.special .moduleName, .special .entity], false⟩

def twoModules : String :=
  "\\module io\nStreams.\n\\module core"

def twoModulesEntity : Entity :=
  .node (.moduleDoc "io" "" { moduleName := some "core" })
    [.part .brief [.paragraph [.text "Streams."]]]

theorem twoModules_compile :
    moduleCompiler.compile (fun _ => none) swapTree ⟨some 0, none⟩ twoModules = .ok twoModulesEntity := by
  have compiled : (moduleCompiler.compile (fun _ => none) swapTree ⟨some 0, none⟩ twoModules).toOption =
      some twoModulesEntity := by
    decide +kernel
  cases result : moduleCompiler.compile (fun _ => none) swapTree ⟨some 0, none⟩ twoModules with
  | error =>
    rw [result] at compiled
    cases compiled
  | ok =>
    rw [result] at compiled
    exact congrArg Except.ok (Option.some.inj compiled)

theorem twoModules_nodes :
    (∀ node ∈ segment Markup.read moduleCompiler.table twoModules, node.binds = false) ∧
      2 ≤ (segment Markup.read moduleCompiler.table twoModules).countP Node.namesModule := by
  decide +kernel

theorem compile_modules_io :
    (∀ node ∈ segment Markup.read moduleCompiler.table twoModules, node.binds = false) ∧
      2 ≤ (segment Markup.read moduleCompiler.table twoModules).countP Node.namesModule ∧
      ∃ first second plain,
        (segment Markup.read moduleCompiler.table twoModules).filterMap (Node.value? .moduleName) =
            [first, second] ∧
          assemble swapTree (.moduleName first)
              ((segment Markup.read moduleCompiler.table twoModules).filter (!·.namesModule)) = .ok plain ∧
          twoModulesEntity = plain.mapFields ({ · with moduleName := some second }) :=
  ⟨twoModules_nodes.1, twoModules_nodes.2,
    (@compile_modules moduleCompiler _ _ ⟨some 0, none⟩ _ rfl twoModules_nodes.1 twoModules_nodes.2
      twoModulesEntity).mp twoModules_compile⟩

/-- Two module commands give documentation of the first module. There is no error. -/
theorem second_module_is_metadata :
    ¬ ∀ (compiler : Compiler) (resolve : String → Option DeclId) (source : SourceTree) (site : Site)
      (text : String), site.attached = none →
      (∀ node ∈ segment compiler.read compiler.table text, node.binds = false) →
      2 ≤ (segment compiler.read compiler.table text).countP Node.namesModule →
        ∃ error, compiler.compile resolve source site text = .error error := by
  intro always
  obtain ⟨error, failed⟩ := always moduleCompiler (fun _ => none) swapTree ⟨some 0, none⟩ twoModules rfl
    twoModules_nodes.1 twoModules_nodes.2
  rw [twoModules_compile] at failed
  cases failed

end DocComment.Comment
