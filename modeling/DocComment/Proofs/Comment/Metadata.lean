import Mathlib.Data.List.Induction
import DocComment.Proofs.Comment.Binding

/-! Metadata of a comment. A comment compiles if and only if no node of it is at fault after the nodes
before it, and the metadata is then what its commands say. -/
namespace DocComment.Comment

/-- Metadata that is set at most once. A group and an output section count as one. -/
inductive Slot where
  | excludeMode
  | uniqueName
  | outputName
  | synopsis
  | moduleName
  | group
  deriving DecidableEq

def SpecialCommand.slot? : SpecialCommand → Option Slot
  | .exclude => some .excludeMode
  | .uniqueName => some .uniqueName
  | .outputName => some .outputName
  | .synopsis => some .synopsis
  | .moduleName => some .moduleName
  | .group | .outputSection => some .group
  | .endBlock | .entity | .file => none

namespace Node

def slot? : Node → Option Slot
  | .special command .. => command.slot?
  | _ => none

/-- The argument of a command. -/
def value? (command : SpecialCommand) : Node → Option String
  | .special other arguments _ => if other = command then arguments.head? else none
  | _ => none

def exclusion? : Node → Option ExcludeMode
  | .special .exclude arguments _ => some (SpecialCommand.excludeMode arguments.head?)
  | _ => none

/-- The group that a command names. A hyphen before the name is not part of it. -/
def group? : Node → Option String
  | .special .group (name :: _) _ =>
    match name.toList with
    | '-' :: group => some (String.ofList group)
    | _ => some name
  | _ => none

/-- The output section that a command names. For a group that is the heading, or else the name; a group
with a hyphen before its name has none. -/
def outputSection? : Node → Option String
  | .special .outputSection arguments _ => arguments.head?
  | .special .group (name :: heading) _ =>
    match name.toList with
    | '-' :: _ => none
    | _ => some (heading.head?.getD name)
  | _ => none

/-- The part of a declaration that a command documents. -/
def part? (source : SourceTree) (binding : Binding) : Node → Option DeclId
  | .inline command name .. =>
    match binding with
    | .declaration owner => source.subPart? owner command.partKind name
    | .moduleName _ => none
  | _ => none

end Node

/-- The metadata that the nodes of a comment ask for, each item as the first of them asks. -/
def stated (nodes : List Node) : Fields where
  synopsis := nodes.findSome? (Node.value? .synopsis)
  uniqueName := nodes.findSome? (Node.value? .uniqueName)
  outputName := nodes.findSome? (Node.value? .outputName)
  excludeMode := (nodes.findSome? Node.exclusion?).getD .include
  group := nodes.findSome? Node.group?
  outputSection := nodes.findSome? Node.outputSection?
  moduleName := nodes.findSome? (Node.value? .moduleName)

/-- Why a command that sets metadata cannot come after these nodes. -/
def commandFault? (entity : String) (before : List Node) (command : SpecialCommand)
    (arguments : List String) : Option CommentError :=
  match command with
  | .endBlock | .entity | .file =>
    some (.structure_ entity ("'\\" ++ command.name ++ "' left over after binding"))
  | .exclude =>
    (before.findSome? Node.exclusion?).map fun old =>
      .duplicateField entity .exclude old.title (SpecialCommand.excludeMode arguments.head?).title
  | .uniqueName | .outputName | .synopsis | .moduleName =>
    match arguments.head? with
    | none => some (Draft.missingArgument entity command)
    | some new => (before.findSome? (Node.value? command)).map fun old =>
      .duplicateField entity command old new
  | .group | .outputSection =>
    match (before.findSome? Node.group?).or (before.findSome? Node.outputSection?) with
    | some existing => some (.conflictingGroup entity command existing)
    | none => if arguments.isEmpty then some (Draft.missingArgument entity command) else none

/-- Why a node cannot come after these nodes. -/
def fault? (source : SourceTree) (binding : Binding) (before : List Node) : Node → Option CommentError
  | .markup _ | .part .. => none
  | .special command arguments _ => commandFault? (binding.describe source) before command arguments
  | .inline command name _ line =>
    match binding with
    | .moduleName moduleName => some (.inlineOnModule moduleName command name)
    | .declaration owner =>
      match source.subPart? owner command.partKind name with
      | none => some (.unresolvedSubEntity (binding.describe source) command name line)
      | some part =>
        if before.any (Node.part? source binding · == some part) then
          some (.duplicateSubEntity (binding.describe source) command name)
        else none

/-- No node is at fault. -/
def Faultless (source : SourceTree) (binding : Binding) (nodes : List Node) : Prop :=
  ∀ before node after, nodes = before ++ node :: after → fault? source binding before node = none

/-- The first node at fault, and why it is. -/
def FirstFault (source : SourceTree) (binding : Binding) (nodes : List Node) (error : CommentError) : Prop :=
  ∃ before node after, nodes = before ++ node :: after ∧ Faultless source binding before ∧
    fault? source binding before node = some error

variable {source : SourceTree} {binding : Binding}

/-- A draft made from these nodes. -/
structure Draft.MadeFrom (source : SourceTree) (binding : Binding) (nodes : List Node) (draft : Draft) :
    Prop where
  fields : draft.fields = stated nodes
  parts : ∀ part, part ∈ draft.parts ↔ ∃ node ∈ nodes, node.part? source binding = some part

theorem stated_quiet {node : Node} (quiet : node.slot? = none) (before : List Node) :
    stated (before ++ [node]) = stated before := by
  have value (command : SpecialCommand) (own : command.slot? ≠ none) : node.value? command = none := by
    unfold Node.value?
    split
    · split
      · rename_i same
        subst same
        exact absurd quiet own
      · rfl
    · rfl
  have exclusion : node.exclusion? = none := by
    unfold Node.exclusion?
    split
    · cases quiet
    · rfl
  have group : node.group? = none := by
    unfold Node.group?
    split
    · cases quiet
    · rfl
  have heading : node.outputSection? = none := by
    unfold Node.outputSection?
    split
    · cases quiet
    · cases quiet
    · rfl
  simp [stated, List.findSome?_append, value _ (by decide : SpecialCommand.synopsis.slot? ≠ none),
    value _ (by decide : SpecialCommand.uniqueName.slot? ≠ none),
    value _ (by decide : SpecialCommand.outputName.slot? ≠ none),
    value _ (by decide : SpecialCommand.moduleName.slot? ≠ none), exclusion, group, heading]

theorem excludeMode_ne_include (argument : Option String) :
    SpecialCommand.excludeMode argument ≠ .include := by
  unfold SpecialCommand.excludeMode
  split <;> decide

theorem exclusion?_ne_include {nodes : List Node} : nodes.findSome? Node.exclusion? ≠ some .include := by
  intro found
  obtain ⟨_, node, _, _, own, _⟩ := List.findSome?_eq_some_iff.mp found
  unfold Node.exclusion? at own
  split at own
  · exact excludeMode_ne_include _ (Option.some.inj own)
  · cases own

/-- A field that is set once, after the nodes before. -/
theorem setOnce_stated (entity : String) (before : List Node) (command : SpecialCommand)
    (arguments : List String) :
    Draft.setOnce entity command (before.findSome? (Node.value? command)) arguments.head? =
      match match arguments.head? with
        | none => some (Draft.missingArgument entity command)
        | some new => (before.findSome? (Node.value? command)).map fun old =>
          CommentError.duplicateField entity command old new with
      | some error => .error error
      | none => .ok ((before.findSome? (Node.value? command)).or arguments.head?) := by
  cases arguments with
  | nil => rfl
  | cons argument others => cases before.findSome? (Node.value? command) <;> rfl

/-- The group that a command asks for, after nodes that ask for none. -/
theorem groupFields_stated {before : List Node} (noGroup : before.findSome? Node.group? = none)
    (noSection : before.findSome? Node.outputSection? = none) (name : String) (others : List String)
    (line : Nat) :
    Draft.groupFields (stated before) name others.head? =
      stated (before ++ [.special .group (name :: others) line]) := by
  by_cases hyphen : ∃ group, name.toList = '-' :: group
  · obtain ⟨group, written⟩ := hyphen
    simp [stated, noGroup, noSection, Draft.groupFields, written, Node.value?, Node.exclusion?,
      Node.group?, Node.outputSection?]
  · have fields (base : Fields) : Draft.groupFields base name others.head? =
        { base with group := some name, outputSection := some (others.head?.getD name) } := by
      unfold Draft.groupFields
      split
      · exact absurd ⟨_, ‹_›⟩ hyphen
      · rfl
    have named : (Node.special .group (name :: others) line).group? = some name := by
      unfold Node.group?
      dsimp only
      split
      · exact absurd ⟨_, ‹_›⟩ hyphen
      · rfl
    have headed : (Node.special .group (name :: others) line).outputSection? =
        some (others.head?.getD name) := by
      unfold Node.outputSection?
      dsimp only
      split
      · exact absurd ⟨_, ‹_›⟩ hyphen
      · rfl
    simp [stated, noGroup, noSection, fields, named, headed, Node.value?, Node.exclusion?]

/-- A command that sets metadata is at fault, or else the metadata is as stated. -/
theorem special_stated (entity : String) (before : List Node) (command : SpecialCommand)
    (arguments : List String) (line : Nat) :
    Draft.special entity command arguments (stated before) =
      match commandFault? entity before command arguments with
      | some error => .error error
      | none => .ok (stated (before ++ [.special command arguments line])) := by
  cases command with
  | endBlock | entity | file => rfl
  | exclude =>
    cases found : before.findSome? Node.exclusion? with
    | none =>
      simp [Draft.special, commandFault?, stated, found, Node.value?, Node.exclusion?, Node.group?,
        Node.outputSection?]
    | some old =>
      have set : old ≠ .include := by
        intro same
        subst same
        exact exclusion?_ne_include found
      simp [Draft.special, commandFault?, stated, found, set]
  | uniqueName | outputName | synopsis | moduleName =>
    have once (command : SpecialCommand) := setOnce_stated entity before command arguments
    simp only [Draft.special, commandFault?, stated, once]
    split <;> simp_all [Bind.bind, Except.bind, pure, Except.pure, Node.value?, Node.exclusion?,
      Node.group?, Node.outputSection?]
  | outputSection =>
    simp only [Draft.special, commandFault?, stated]
    cases taken : (before.findSome? Node.group?).or (before.findSome? Node.outputSection?) with
    | some existing => rfl
    | none =>
      obtain ⟨noGroup, noSection⟩ := Option.or_eq_none_iff.mp taken
      cases arguments with
      | nil => rfl
      | cons name others =>
        simp [noGroup, noSection, Node.value?, Node.exclusion?, Node.group?, Node.outputSection?]
  | group =>
    have existing : (stated before).group.or (stated before).outputSection =
        (before.findSome? Node.group?).or (before.findSome? Node.outputSection?) := rfl
    simp only [Draft.special, commandFault?, existing]
    cases taken : (before.findSome? Node.group?).or (before.findSome? Node.outputSection?) with
    | some existing => rfl
    | none =>
      obtain ⟨noGroup, noSection⟩ := Option.or_eq_none_iff.mp taken
      cases arguments with
      | nil => rfl
      | cons name others =>
        have heading : (name :: others)[1]? = others.head? := List.head?_eq_getElem?.symm
        rw [heading, ← groupFields_stated noGroup noSection]
        rfl

theorem Draft.MadeFrom.start (wantsBrief : Bool) :
    Draft.MadeFrom source binding [] (Draft.mk {} [] wantsBrief []) :=
  ⟨rfl, by simp⟩

/-- A node at fault ends the draft with its error, and any other node becomes part of it. -/
theorem Draft.MadeFrom.apply {draft : Draft} {before : List Node}
    (made : draft.MadeFrom source binding before) (node : Node) :
    match fault? source binding before node with
    | some error => draft.apply source binding (binding.describe source) node = .error error
    | none => ∃ next, draft.apply source binding (binding.describe source) node = .ok next ∧
        next.MadeFrom source binding (before ++ [node]) := by
  obtain ⟨fields, parts⟩ := made
  cases node with
  | markup blocks =>
    exact ⟨_, rfl, by rw [stated_quiet rfl]; exact fields, by simp [parts, Node.part?]⟩
  | part kind content =>
    exact ⟨_, rfl, by rw [stated_quiet rfl]; exact fields, by simp [parts, Node.part?]⟩
  | special command arguments line =>
    have set := special_stated (binding.describe source) before command arguments line
    rw [← fields] at set
    simp only [fault?, Draft.apply, set]
    cases commandFault? (binding.describe source) before command arguments with
    | some error => rfl
    | none => exact ⟨_, rfl, rfl, by simp [parts, Node.part?]⟩
  | inline command name content line =>
    cases binding with
    | moduleName => rfl
    | declaration owner =>
      simp only [fault?, Draft.apply, Draft.inline]
      cases named : source.subPart? owner command.partKind name with
      | none => rfl
      | some part =>
        have documented : draft.parts.contains part =
            before.any (Node.part? source (.declaration owner) · == some part) := by
          rw [Bool.eq_iff_iff]
          simp [parts]
        have own (other : DeclId) : (Node.inline command name content line).part? source
            (.declaration owner) = some other ↔ other = part := by
          rw [Node.part?, named, Option.some.injEq, eq_comm]
        simp only [documented]
        cases before.any (Node.part? source (.declaration owner) · == some part) with
        | true => rfl
        | false =>
          refine ⟨_, rfl, by rw [stated_quiet rfl]; exact fields, fun other => ?_⟩
          simp [parts, own, or_comm]

theorem Faultless.prefix_ {before after : List Node}
    (faultless : Faultless source binding (before ++ after)) : Faultless source binding before :=
  fun earlier node later split => faultless earlier node (later ++ after) (by rw [split]; simp)

theorem Faultless.concat {before : List Node} {node : Node} (faultless : Faultless source binding before)
    (fine : fault? source binding before node = none) : Faultless source binding (before ++ [node]) := by
  intro earlier other later split
  rcases List.eq_nil_or_concat' later with rfl | ⟨start, final, rfl⟩
  · obtain ⟨rfl, same⟩ := List.append_inj' split rfl
    obtain ⟨rfl, _⟩ := List.cons.inj same
    exact fine
  · have parts : before ++ [node] = (earlier ++ other :: start) ++ [final] := by simp [split]
    exact faultless earlier other start (List.append_inj' parts rfl).1

/-- Nodes are without fault, or there is a first one at fault. -/
theorem faultless_or_firstFault (source : SourceTree) (binding : Binding) (nodes : List Node) :
    Faultless source binding nodes ∨ ∃ error, FirstFault source binding nodes error := by
  induction nodes using List.reverseRecOn with
  | nil => exact .inl fun before node after split => by simp at split
  | append_singleton nodes node ih =>
    rcases ih with faultless | ⟨error, before, other, after, rfl, fine, fault⟩
    · cases fault : fault? source binding nodes node with
      | none => exact .inl (faultless.concat fault)
      | some error => exact .inr ⟨error, nodes, node, [], rfl, faultless, fault⟩
    · exact .inr ⟨error, before, other, after ++ [node], by simp, fine, fault⟩

theorem applyAll_of_faultless {nodes : List Node} (faultless : Faultless source binding nodes)
    (wantsBrief : Bool) :
    ∃ final, nodes.foldlM (Draft.apply source binding (binding.describe source))
        (Draft.mk {} [] wantsBrief []) = .ok final ∧ final.MadeFrom source binding nodes := by
  induction nodes using List.reverseRecOn with
  | nil => exact ⟨_, rfl, .start wantsBrief⟩
  | append_singleton nodes node ih =>
    obtain ⟨draft, drafted, made⟩ := ih faultless.prefix_
    have applied := made.apply node
    rw [faultless nodes node [] rfl] at applied
    obtain ⟨final, same, all⟩ := applied
    refine ⟨final, ?_, all⟩
    rw [List.foldlM_append, drafted]
    exact congrArg (· >>= pure) same

theorem applyAll_of_firstFault {nodes : List Node} (fault : FirstFault source binding nodes error)
    (wantsBrief : Bool) :
    nodes.foldlM (Draft.apply source binding (binding.describe source))
      (Draft.mk {} [] wantsBrief []) = .error error := by
  obtain ⟨before, node, after, rfl, faultless, own⟩ := fault
  obtain ⟨draft, drafted, made⟩ := applyAll_of_faultless faultless wantsBrief
  have applied := made.apply node
  rw [own] at applied
  rw [List.foldlM_append, drafted]
  simp [Bind.bind, Except.bind, applied]

/-- Whether an item of metadata is set. -/
def Slot.isSet (fields : Fields) : Slot → Bool
  | .excludeMode => fields.excludeMode != .include
  | .uniqueName => fields.uniqueName.isSome
  | .outputName => fields.outputName.isSome
  | .synopsis => fields.synopsis.isSome
  | .moduleName => fields.moduleName.isSome
  | .group => (fields.group.or fields.outputSection).isSome

theorem Slot.isSet_append {slot : Slot} {before : List Node} (set : slot.isSet (stated before) = true)
    (after : List Node) : slot.isSet (stated (before ++ after)) = true := by
  have kept {α : Type} {find : Node → Option α} (found : (before.findSome? find).isSome = true) :
      ((before ++ after).findSome? find) = before.findSome? find := by
    obtain ⟨value, same⟩ := Option.isSome_iff_exists.mp found
    rw [List.findSome?_append, same, Option.some_or]
  cases slot with
  | excludeMode =>
    have found : (before.findSome? Node.exclusion?).isSome = true := by
      cases found : before.findSome? Node.exclusion? with
      | none => simp [isSet, stated, found] at set
      | some => rfl
    simp only [isSet, stated] at set ⊢
    rwa [kept found]
  | uniqueName | outputName | synopsis | moduleName =>
    simp only [isSet, stated] at set ⊢
    rwa [kept set]
  | group =>
    simp only [isSet, stated, Option.isSome_or, Bool.or_eq_true] at set ⊢
    exact set.imp (fun found => by rwa [kept found]) fun found => by rwa [kept found]

/-- A command sets what was not set before. -/
theorem Slot.isSet_of_fine {slot : Slot} {before : List Node} {node : Node} (own : node.slot? = some slot)
    (fine : fault? source binding before node = none) :
    slot.isSet (stated before) = false ∧ slot.isSet (stated (before ++ [node])) = true := by
  cases node with
  | markup | part | inline => cases own
  | special command arguments line =>
    cases command with
    | endBlock | entity | file => cases own
    | exclude =>
      obtain rfl := Option.some.inj own
      cases found : before.findSome? Node.exclusion? with
      | some => simp [fault?, commandFault?, found] at fine
      | none =>
        simp [isSet, stated, found, Node.exclusion?, excludeMode_ne_include]
    | uniqueName | outputName | synopsis | moduleName =>
      obtain rfl := Option.some.inj own
      cases arguments with
      | nil => cases fine
      | cons argument others =>
        simp only [fault?, commandFault?, List.head?_cons, Option.map_eq_none_iff] at fine
        simp only [isSet, stated, List.findSome?_append, fine]
        simp [Node.value?]
    | group | outputSection =>
      obtain rfl := Option.some.inj own
      simp only [fault?, commandFault?] at fine
      split at fine
      · cases fine
      · rename_i unset
        cases arguments with
        | nil => cases fine
        | cons name others =>
          obtain ⟨noGroup, noSection⟩ := Option.or_eq_none_iff.mp unset
          simp only [isSet, stated, List.findSome?_append, noGroup, noSection]
          simp [Node.group?, Node.outputSection?] <;> split <;> simp

/-- Without a fault each item of metadata is set at most once. -/
theorem Faultless.nodup {nodes : List Node} (faultless : Faultless source binding nodes) :
    (nodes.filterMap Node.slot?).Nodup ∧
      ∀ slot ∈ nodes.filterMap Node.slot?, slot.isSet (stated nodes) = true := by
  induction nodes using List.reverseRecOn with
  | nil => exact ⟨List.nodup_nil, by simp⟩
  | append_singleton nodes node ih =>
    obtain ⟨once, set⟩ := ih faultless.prefix_
    have fine := faultless nodes node [] rfl
    have kept : ∀ slot ∈ nodes.filterMap Node.slot?, slot.isSet (stated (nodes ++ [node])) = true :=
      fun slot member => Slot.isSet_append (set slot member) [node]
    rw [List.filterMap_append, List.forall_mem_append]
    cases own : node.slot? with
    | none =>
      have nothing : [node].filterMap Node.slot? = [] := by simp [own]
      rw [nothing, List.append_nil]
      exact ⟨once, kept, by simp⟩
    | some slot =>
      obtain ⟨unset, now⟩ := Slot.isSet_of_fine own fine
      have alone : [node].filterMap Node.slot? = [slot] := by simp [own]
      have fresh : slot ∉ nodes.filterMap Node.slot? := fun member => by
        rw [set slot member] at unset
        cases unset
      rw [alone]
      refine ⟨List.nodup_append.mpr ⟨once, by simp, ?_⟩, kept, by simpa using now⟩
      intro other member last own same
      rw [List.mem_singleton.mp own] at same
      exact fresh (same ▸ member)

theorem ensureRequired_fields? (source : SourceTree) (entity : Entity) :
    (ensureRequired source entity).fields? = entity.fields? := by
  cases entity with
  | leaf => rfl
  | node tag children => cases tag <;> simp [ensureRequired, Entity.fields?]

/-- Documentation from the draft that the nodes give. -/
theorem assemble_eq (source : SourceTree) (binding : Binding) (nodes : List Node) :
    assemble source binding nodes =
      (nodes.foldlM (Draft.apply source binding (binding.describe source))
        (Draft.mk {} [] (!nodes.any isBriefNode) [])).map fun draft =>
          ensureRequired source (.node (binding.tag draft.fields) draft.sections.briefFirst.entities) := by
  simp only [assemble]
  cases nodes.foldlM (Draft.apply source binding (binding.describe source))
      (Draft.mk {} [] (!nodes.any isBriefNode) []) with
  | error => rfl
  | ok draft => cases binding <;> rfl

theorem assemble_of_faultless {nodes : List Node} (faultless : Faultless source binding nodes) :
    ∃ entity, assemble source binding nodes = .ok entity ∧ entity.fields? = some (stated nodes) := by
  obtain ⟨draft, drafted, made⟩ := applyAll_of_faultless faultless (!nodes.any isBriefNode)
  rw [assemble_eq, drafted]
  refine ⟨_, rfl, ?_⟩
  rw [ensureRequired_fields?, ← made.fields]
  cases binding <;> rfl

theorem assemble_of_firstFault {nodes : List Node} (fault : FirstFault source binding nodes error) :
    assemble source binding nodes = .error error := by
  rw [assemble_eq, applyAll_of_firstFault fault]
  rfl

/-- No item of metadata is set twice in a comment that compiles. -/
theorem nodup_of_assemble {nodes : List Node} {entity : Entity}
    (success : assemble source binding nodes = .ok entity) : (nodes.filterMap Node.slot?).Nodup := by
  rcases faultless_or_firstFault source binding nodes with faultless | ⟨error, fault⟩
  · exact faultless.nodup.1
  · rw [assemble_of_firstFault fault] at success
    cases success

/-- A comment compiles if and only if no node is at fault, and the error is that of the first node that
is. It does not compile if an item of metadata is set twice. If it compiles, the metadata is what its
commands say, and nothing else. -/
theorem assemble_metadata (source : SourceTree) (binding : Binding) (nodes : List Node) :
    (∀ entity, assemble source binding nodes = .ok entity →
      (nodes.filterMap Node.slot?).Nodup ∧ entity.fields? = some (stated nodes)) ∧
    (¬ (nodes.filterMap Node.slot?).Nodup → ∃ error, assemble source binding nodes = .error error) ∧
    ∀ error, assemble source binding nodes = .error error ↔ FirstFault source binding nodes error := by
  rcases faultless_or_firstFault source binding nodes with faultless | ⟨error, fault⟩
  · obtain ⟨entity, assembled, fields⟩ := assemble_of_faultless faultless
    have once := faultless.nodup.1
    rw [assembled]
    refine ⟨?_, fun twice => absurd once twice, fun error => ⟨nofun, fun fault => ?_⟩⟩
    · rintro _ ⟨rfl⟩
      exact ⟨once, fields⟩
    · obtain ⟨before, node, after, split, _, own⟩ := fault
      rw [faultless before node after split] at own
      cases own
  · have failed := assemble_of_firstFault fault
    rw [failed]
    refine ⟨nofun, fun _ => ⟨error, rfl⟩, fun other => ⟨?_, fun second => ?_⟩⟩
    · rintro ⟨rfl⟩
      exact fault
    · exact failed.symm.trans (assemble_of_firstFault second)

end DocComment.Comment
