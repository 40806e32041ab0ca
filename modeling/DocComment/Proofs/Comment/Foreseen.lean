import DocComment.Proofs.Comment.InPlace

/-! Assembly only ever meets commands that it is made for. The grammar gives metadata commands their
arguments, segmentation uses up the ends of commands, and binding uses up the commands that bind. -/
namespace DocComment.Comment

/-- Not an error about a command that should not have come so far. -/
def Foreseen (result : Except CommentError α) : Prop :=
  ∀ entity problem, result ≠ .error (.structure_ entity problem)

theorem Foreseen.ok (value : α) : Foreseen (.ok value) := by
  simp [Foreseen]

theorem Foreseen.bind {first : Except CommentError α} {next : α → Except CommentError β}
    (foreseen : Foreseen first) (later : ∀ value, first = .ok value → Foreseen (next value)) :
    Foreseen (first >>= next) := by
  cases first with
  | error error =>
    rintro entity problem ⟨⟩
    exact foreseen entity problem rfl
  | ok value => exact later value rfl

/-- Neither ends a command nor binds the comment, and has an argument if it needs one. -/
def Node.Applicable : Node → Prop
  | .special command arguments _ =>
    command ≠ .endBlock ∧ command ≠ .entity ∧ command ≠ .file ∧ (command = .exclude ∨ arguments ≠ [])
  | _ => True

theorem SpecialCommand.arguments?_ne_nil {command : SpecialCommand} {rest : List Char}
    (taken : command.arguments? rest = some arguments)
    (needed : command ≠ .endBlock ∧ command ≠ .file ∧ command ≠ .exclude) : arguments ≠ [] := by
  rintro rfl
  cases command with
  | endBlock => exact needed.1 rfl
  | file => exact needed.2.1 rfl
  | exclude => exact needed.2.2 rfl
  | group =>
    simp only [arguments?] at taken
    repeat' split at taken
    all_goals simp at taken
  | uniqueName | outputName | synopsis | moduleName | outputSection | entity =>
    simp only [arguments?] at taken
    split at taken <;> cases taken

theorem segment_special {read : String → List Entity} {table : CommandTable} {text : String}
    (member : .special command arguments line ∈ segment read table text) :
    command ≠ .endBlock ∧ ∃ rest, command.arguments? rest = some arguments := by
  rw [segment_eq] at member
  obtain ⟨stretch, present, inside⟩ := List.mem_flatMap.mp member
  cases stretch with
  | markup marks =>
    simp only [Stretch.nodes, Stretch.markupNodes] at inside
    split at inside
    · cases inside
    · split at inside <;> simp at inside
  | part | inline => simp [Stretch.nodes] at inside
  | special mark own taken =>
    simp only [Stretch.nodes, List.mem_singleton, Node.special.injEq] at inside
    obtain ⟨rfl, rfl, _⟩ := inside
    have start : (Stretch.markup []).WellFormed := by simp [Stretch.WellFormed]
    have role : mark.role = .special command arguments := Stretch.cut_wellFormed start _ _ present
    have listed : mark ∈ marks table text := by
      rw [← stretches_marks]
      exact List.mem_flatMap.mpr ⟨_, present, List.mem_cons_self⟩
    have fits := mark_fits listed
    simp only [Mark.Fits, role] at fits
    obtain ⟨inner, _, _, parsed⟩ := fits
    exact ⟨inner, _, parsed⟩

/-- No command that binds is left over. -/
theorem bindByCommand_unbinding {bound : Option Binding} {nodes : List Node}
    (success : bindByCommand resolve source site bound nodes = .ok (binding, left)) :
    ∀ node ∈ left, bindingTarget resolve site node = none := by
  induction nodes generalizing bound left with
  | nil => cases success; simp
  | cons node rest ih =>
    rcases bindByCommand_cons success with ⟨other, kept, deeper, rfl⟩ | ⟨target, deeper⟩
    · exact List.forall_mem_cons.mpr ⟨other, ih deeper⟩
    · exact ih deeper

theorem bind_unbinding {nodes : List Node}
    (success : bind resolve source freeFileBinding site nodes = .ok (binding, left)) :
    ∀ node ∈ left, bindingTarget resolve site node = none := by
  obtain ⟨bound, kept, commands, rfl | ⟨name, named⟩⟩ := bind_cases success
  · exact bindByCommand_unbinding commands
  · exact fun node member => bindByCommand_unbinding commands node (bindByModule_left named member)

theorem bound_applicable {read : String → List Entity} {table : CommandTable} {text : String}
    (success : bind resolve source freeFileBinding site (segment read table text) =
      .ok (binding, left)) : ∀ node ∈ left, node.Applicable := by
  intro node member
  cases node with
  | markup | part | inline => trivial
  | special command arguments line =>
    obtain ⟨inner, rest, taken⟩ := segment_special (bind_left success member)
    have unbinding := bind_unbinding success _ member
    have noEntity : command ≠ .entity := by rintro rfl; simp [bindingTarget] at unbinding
    have noFile : command ≠ .file := by rintro rfl; simp [bindingTarget] at unbinding
    by_cases exclusion : command = .exclude
    · exact ⟨inner, noEntity, noFile, .inl exclusion⟩
    · exact ⟨inner, noEntity, noFile,
        .inr (SpecialCommand.arguments?_ne_nil taken ⟨inner, noFile, exclusion⟩)⟩

theorem bindByCommand_foreseen (bound : Option Binding) (nodes : List Node) :
    Foreseen (bindByCommand resolve source site bound nodes) := by
  induction nodes generalizing bound with
  | nil => exact .ok _
  | cons node rest ih =>
    unfold bindByCommand
    split
    · exact (ih bound).bind fun _ _ => .ok _
    · rename_i command line target chosen
      have known : Foreseen target := by
        unfold bindingTarget at chosen
        split at chosen
        · obtain ⟨_, _, rfl⟩ := Option.some.inj chosen
          split <;> simp [Foreseen]
        · obtain ⟨_, _, rfl⟩ := Option.some.inj chosen
          split <;> simp [Foreseen]
        · cases chosen
      refine known.bind fun binding _ => ?_
      split
      · simp [Foreseen]
      · exact ih _

theorem bind_foreseen (nodes : List Node) : Foreseen (bind resolve source freeFileBinding site nodes) := by
  refine (bindByCommand_foreseen _ nodes).bind ?_
  rintro ⟨bound, left⟩ _
  dsimp only
  repeat' split
  all_goals rintro entity problem ⟨⟩

theorem Draft.setOnce_foreseen (entity : String) (command : SpecialCommand) (old : Option String)
    (new : String) : Foreseen (Draft.setOnce entity command old (some new)) := by
  cases old <;> rintro _ _ ⟨⟩

theorem Draft.special_foreseen {arguments : List String} (entity : String) (fields : Fields)
    (applicable : Node.Applicable (.special command arguments line)) :
    Foreseen (Draft.special entity command arguments fields) := by
  obtain ⟨inner, noEntity, noFile, given⟩ := applicable
  cases arguments with
  | nil =>
    have exclusion : command = .exclude := given.resolve_right (by simp)
    subst exclusion
    simp only [Draft.special]
    split <;> simp [Foreseen]
  | cons argument others =>
    have set := fun old => (setOnce_foreseen entity command old argument)
    cases command with
    | endBlock => exact absurd rfl inner
    | entity => exact absurd rfl noEntity
    | file => exact absurd rfl noFile
    | exclude =>
      simp only [Draft.special]
      split <;> simp [Foreseen]
    | uniqueName | outputName | synopsis | moduleName => exact (set _).bind fun _ _ => .ok _
    | group | outputSection =>
      simp only [Draft.special, List.head?_cons]
      split
      · simp [Foreseen]
      · contradiction
      · split <;> simp [Foreseen]

theorem Draft.apply_foreseen {node : Node} (draft : Draft) (applicable : node.Applicable) :
    Foreseen (draft.apply source binding entity node) := by
  cases node with
  | markup | part => exact .ok _
  | special => exact (special_foreseen _ _ applicable).bind fun _ _ => .ok _
  | inline =>
    cases binding with
    | moduleName => rintro _ _ ⟨⟩
    | declaration =>
      simp only [Draft.apply, Draft.inline]
      split
      · simp [Foreseen]
      · split <;> simp [Foreseen]

theorem Draft.applyAll_foreseen {nodes : List Node} (draft : Draft)
    (applicable : ∀ node ∈ nodes, node.Applicable) :
    Foreseen (nodes.foldlM (Draft.apply source binding entity) draft) := by
  induction nodes generalizing draft with
  | nil => exact .ok _
  | cons node rest ih =>
    obtain ⟨first, later⟩ := List.forall_mem_cons.mp applicable
    rw [List.foldlM_cons]
    exact (draft.apply_foreseen first).bind fun next _ => ih next later

theorem assemble_foreseen {nodes : List Node} (applicable : ∀ node ∈ nodes, node.Applicable) :
    Foreseen (assemble source binding nodes) :=
  (Draft.applyAll_foreseen _ applicable).bind fun _ _ => .ok _

/-- Has metadata, and takes content under every section. -/
def Accepts (entity : Entity) : Prop :=
  entity.fields?.isSome = true ∧
    ∀ name kind content, ∃ filed, fileUnder name kind content entity = .ok filed

theorem Draft.builder_accepts (binding : Binding) (draft : Draft) :
    Accepts (draft.builder binding).entity := by
  refine ⟨by cases binding <;> rfl, fun name kind content => ⟨_, fileUnder_entities ..⟩⟩

theorem build_accepts {done rest : List Node}
    (reached : done.foldlM (Builder.apply source binding) (Builder.start binding (done ++ rest)) =
      .ok builder) : Accepts builder.entity := by
  rw [Builder.start_eq, Draft.applyAll_builder] at reached
  cases drafted : done.foldlM (Draft.apply source binding (binding.describe source))
      { wantsBrief := !(done ++ rest).any isBriefNode } with
  | error =>
    rw [drafted] at reached
    cases reached
  | ok draft =>
    rw [drafted] at reached
    cases reached
    exact draft.builder_accepts binding

/-- Whatever the patterns of commands are, no comment makes the assembly meet a command that it is
not made for. What binding leaves has its arguments and binds nothing, and the entity built from it
takes every section and all metadata at every step. -/
theorem compile_foreseen (compiler : Compiler) (resolve : String → Option DeclId) (source : SourceTree)
    (site : Site) (text : String) :
    Foreseen (compiler.compile resolve source site text) ∧
      ∀ binding left,
        bind resolve source compiler.freeFileBinding site
            (segment compiler.read compiler.table text) = .ok (binding, left) →
          (∀ node ∈ left, node.Applicable) ∧
          compiler.compile resolve source site text = build source binding left ∧
          ∀ done rest builder, left = done ++ rest →
            done.foldlM (Builder.apply source binding) (Builder.start binding left) = .ok builder →
              Accepts builder.entity := by
  refine ⟨?_, fun binding left bound => ⟨bound_applicable bound, ?_, ?_⟩⟩
  · refine (bind_foreseen _).bind ?_
    rintro ⟨binding, left⟩ bound
    exact assemble_foreseen (bound_applicable bound)
  · rw [build_eq_assemble]
    simp only [Compiler.compile, bound]
    rfl
  · rintro done rest builder rfl reached
    exact build_accepts reached

set_option maxRecDepth 4000 in
/-- A command without its argument is text, and an end is used up. -/
theorem compile_foreseen_swap :
    let table := CommandTable.ofCommands
      [.special .endBlock, .special .entity, .special .group, .special .uniqueName]
    let text := "\\entity swap\n\\group swaps Swaps\n\\end\n\\unique_name"
    let left := [Node.special .group ["swaps", "Swaps"] 2, .markup [.paragraph [.text "\\unique_name"]]]
    bind (fun _ => some 1) swapTree false ⟨some 0, none⟩ (segment Markup.read table text) =
        .ok (.declaration 1, left) ∧
      (∀ node ∈ left, node.Applicable) ∧
      (Compiler.mk Markup.read table false).compile (fun _ => some 1) swapTree ⟨some 0, none⟩ text =
        build swapTree (.declaration 1) left := by
  intro table text left
  have bound : (bind (fun _ => some 1) swapTree false ⟨some 0, none⟩
      (segment Markup.read table text)).toOption = some (.declaration 1, left) := by
    decide +kernel
  have bound : bind (fun _ => some 1) swapTree false ⟨some 0, none⟩
      (segment Markup.read table text) = .ok (.declaration 1, left) := by
    generalize bind .. = result at bound ⊢
    cases result with
    | error => cases bound
    | ok => exact congrArg Except.ok (Option.some.inj bound)
  obtain ⟨applicable, built, _⟩ := (compile_foreseen (Compiler.mk Markup.read table false)
    (fun _ => some 1) swapTree ⟨some 0, none⟩ text).2 _ left bound
  exact ⟨bound, applicable, built⟩

end DocComment.Comment
