import DocComment.Proofs.Source.Tree

/-! The names of a source tree. Every declaration comes after its parent, so that a walk up the tree ends,
and what was added later changes no name. What is listed while the tree grows, the children of a
declaration and the first declaration of each name, is what a scan of the finished tree finds. -/
namespace DocComment.SourceTree

/-- Whether an edit names only declarations that are there. -/
def Edit.Known (tree : SourceTree) : Edit → Prop
  | .file _ => True
  | .declaration parent _ _ => parent < tree.size
  | .comment id _ => id < tree.size
  | .access id _ => id < tree.size
  | .freeComment _ _ => True

/-- The trees that are made by edits of what is there. -/
inductive Built : SourceTree → Prop where
  | empty : Built {}
  | edit {tree : SourceTree} (built : Built tree) (edit : Edit) (known : edit.Known tree) :
      Built (edit.apply tree)

/-- Whether a declaration is found by its qualified name: it is neither a file nor a part. -/
def isNamed (tree : SourceTree) (id : DeclId) : Bool :=
  !((tree.kind id).isSubPart || tree.kind id == .file)

/-- Every parent comes before its children. -/
def Ordered (tree : SourceTree) : Prop :=
  ∀ id parent, tree.parent id = some parent → parent < id

variable {tree other : SourceTree}

/-- Outside of the tree all is the file without a name. -/
theorem decl_of_ge {id : DeclId} (outside : tree.size ≤ id) : tree.decl id = {} := by
  rw [decl, List.getElem?_eq_none outside]
  rfl

theorem lt_size_of_parent {id parent : DeclId} (found : tree.parent id = some parent) :
    id < tree.size := by
  by_contra outside
  rw [SourceTree.parent, decl_of_ge (Nat.le_of_not_lt outside)] at found
  cases found

section Walks

/- A walk up the tree: what it gives where the tree ends, and what a declaration adds to it. -/
variable {α : Type} (walk : Nat → Option DeclId → α) (step : DeclId → α → α) {last : α}

/-- A walk needs no more steps than there are declarations up to where it starts. -/
theorem Ordered.walk_eq (ordered : tree.Ordered) (ends : ∀ fuel, walk fuel none = last)
    (up : ∀ fuel id, walk (fuel + 1) (some id) = step id (walk fuel (tree.parent id)))
    {id : DeclId} {fuel : Nat} (enough : id < fuel) :
    walk fuel (some id) = walk (id + 1) (some id) := by
  induction id using Nat.strongRecOn generalizing fuel with
  | ind id ih =>
    obtain ⟨fuel, rfl⟩ := Nat.exists_eq_succ_of_ne_zero (Nat.ne_of_gt (Nat.zero_lt_of_lt enough))
    rw [up, up]
    cases found : tree.parent id with
    | none => rw [ends, ends]
    | some parent =>
      have before := ordered id parent found
      rw [ih parent before (Nat.lt_of_lt_of_le before (Nat.le_of_lt_succ enough)),
        ih parent before before]

/-- With one step for each declaration of the tree and one more, a walk goes on until it ends. -/
theorem Ordered.walk_step (ordered : tree.Ordered) (ends : ∀ fuel, walk fuel none = last)
    (up : ∀ fuel id, walk (fuel + 1) (some id) = step id (walk fuel (tree.parent id))) (id : DeclId) :
    walk (tree.size + 1) (some id) =
      step id (((tree.parent id).map fun parent => walk (tree.size + 1) (some parent)).getD last) := by
  rw [up]
  cases found : tree.parent id with
  | none => rw [ends, Option.map_none, Option.getD_none]
  | some parent =>
    have inside := Nat.lt_trans (ordered id parent found) (lt_size_of_parent found)
    rw [Option.map_some, Option.getD_some, ordered.walk_eq walk step ends up inside,
      ordered.walk_eq walk step ends up (Nat.lt_succ_of_lt inside)]

end Walks

/-- One step of the walk up the scopes. -/
theorem Ordered.scopes_eq (ordered : tree.Ordered) (id : DeclId) :
    tree.scopes id =
      if tree.kind id == .file then [] else id :: ((tree.parent id).map tree.scopes).getD [] :=
  ordered.walk_step tree.scopesFrom
    (fun id outer => if tree.kind id == .file then [] else id :: outer)
    (fun fuel => by cases fuel <;> rfl) (fun _ _ => rfl) id

/-- One step of the walk up to the file. -/
theorem Ordered.enclosingFile?_eq (ordered : tree.Ordered) (id : DeclId) :
    tree.enclosingFile? id =
      if tree.kind id == .file then some id else (tree.parent id).bind tree.enclosingFile? := by
  have ends (fuel : Nat) : tree.enclosingFileFrom fuel none = none := by cases fuel <;> rfl
  rw [enclosingFile?, ordered.walk_step tree.enclosingFileFrom
    (fun id outer => if tree.kind id == .file then some id else outer) ends (fun _ _ => rfl) id]
  cases tree.parent id <;> rfl

theorem scopes_of_file {id : DeclId} (file : tree.kind id = .file) : tree.scopes id = [] := by
  rw [scopes, scopesFrom, file]
  rfl

/-- A qualified name is the name itself, after that of the scope around it if there is one. -/
theorem Ordered.qualifiedName_eq (ordered : tree.Ordered) {id : DeclId} (named : tree.kind id ≠ .file) :
    tree.qualifiedName id =
      match tree.parent id with
      | none => tree.name id
      | some parent =>
        if tree.kind parent = .file then tree.name id
        else tree.qualifiedName parent ++ "::" ++ tree.name id := by
  simp only [qualifiedName, ordered.scopes_eq id, beq_iff_eq, named, if_false]
  cases found : tree.parent id with
  | none => simp
  | some parent =>
    by_cases top : tree.kind parent = .file
    · simp [scopes_of_file top, top]
    · have nonempty : (tree.scopes parent).reverse.map tree.name ≠ [] := by
        rw [ordered.scopes_eq]
        simp [top]
      simp only [Option.map_some, Option.getD_some, top, if_false, List.reverse_cons, List.map_append,
        List.map_cons, List.map_nil]
      rw [String.intercalate_append_of_ne_nil nonempty (List.cons_ne_nil _ _),
        String.intercalate_singleton]

/-- A second tree has all declarations of the first, except for their comments, access and children. -/
structure Extends (tree other : SourceTree) : Prop where
  size : tree.size ≤ other.size
  kind : ∀ id < tree.size, other.kind id = tree.kind id
  name : ∀ id < tree.size, other.name id = tree.name id
  parent : ∀ id < tree.size, other.parent id = tree.parent id

/-- Names stay. -/
theorem Extends.qualifiedName (within : tree.Extends other) (ordered : tree.Ordered)
    (later : other.Ordered) {id : DeclId} (present : id < tree.size) :
    other.qualifiedName id = tree.qualifiedName id := by
  induction id using Nat.strongRecOn with
  | ind id ih =>
    have sort := within.kind id present
    by_cases file : tree.kind id = .file
    · simp only [SourceTree.qualifiedName, sort, file, within.name id present]
      rfl
    · rw [ordered.qualifiedName_eq file, later.qualifiedName_eq (sort ▸ file), within.parent id present,
        within.name id present]
      cases found : tree.parent id with
      | none => rfl
      | some parent =>
        have before := ordered id parent found
        have inside := Nat.lt_trans before present
        simp only [within.kind parent inside, ih parent before inside]

theorem Extends.isNamed (within : tree.Extends other) {id : DeclId} (present : id < tree.size) :
    other.isNamed id = tree.isNamed id := by
  rw [SourceTree.isNamed, SourceTree.isNamed, within.kind id present]

/-- The lists of a tree are what scans find: the children of a declaration, and the first declaration of
each name. -/
structure Listed (tree : SourceTree) : Prop where
  ordered : tree.Ordered
  children : ∀ owner, tree.children owner = tree.ids.filter fun id => tree.parent id == some owner
  named : ∀ qualified, tree.byQualifiedName.lookup qualified =
    tree.ids.find? fun id => tree.isNamed id && tree.qualifiedName id == qualified

theorem find?_congr_mem {entries : List α} {first second : α → Bool}
    (same : ∀ entry ∈ entries, first entry = second entry) :
    entries.find? first = entries.find? second := by
  induction entries with
  | nil => rfl
  | cons entry rest ih =>
    obtain ⟨here, later⟩ := List.forall_mem_cons.mp same
    rw [List.find?_cons, List.find?_cons, here, ih later]

theorem Extends.find_named (within : tree.Extends other) (ordered : tree.Ordered)
    (later : other.Ordered) (qualified : String) :
    (tree.ids.find? fun id => other.isNamed id && other.qualifiedName id == qualified) =
      tree.ids.find? fun id => tree.isNamed id && tree.qualifiedName id == qualified := by
  refine find?_congr_mem fun id member => ?_
  have present : id < tree.size := List.mem_range.mp member
  rw [within.isNamed present, within.qualifiedName ordered later present]

/-- Comments and access are not listed. -/
theorem Listed.of_same (listed : tree.Listed) (within : tree.Extends other)
    (size : other.size = tree.size) (children : ∀ id, other.children id = tree.children id)
    (table : other.byQualifiedName = tree.byQualifiedName) : other.Listed := by
  have parents (id : DeclId) : other.parent id = tree.parent id := by
    rcases Nat.lt_or_ge id tree.size with present | outside
    · exact within.parent id present
    · rw [SourceTree.parent, SourceTree.parent, decl_of_ge outside, decl_of_ge (size ▸ outside)]
  have ids : other.ids = tree.ids := by rw [SourceTree.ids, SourceTree.ids, size]
  have later : other.Ordered := fun id parent found => listed.ordered id parent (parents id ▸ found)
  refine ⟨later, fun owner => ?_, fun qualified => ?_⟩
  · rw [children, listed.children, ids]
    simp only [parents]
  · rw [table, listed.named, ids, within.find_named listed.ordered later]

theorem Listed.modify (listed : tree.Listed) (id : DeclId) {change : Decl → Decl}
    (same : ∀ decl, (change decl).kind = decl.kind ∧ (change decl).name = decl.name ∧
      (change decl).parent = decl.parent ∧ (change decl).children = decl.children) :
    Listed { tree with decls := tree.decls.modify id change } := by
  have kept (place : DeclId) {β : Type} {read : Decl → β} (unread : ∀ decl, read (change decl) = read decl) :
      read (SourceTree.decl { tree with decls := tree.decls.modify id change } place) =
        read (tree.decl place) := by
    simp only [decl, List.getElem?_modify]
    cases tree.decls[place]? with
    | none => rfl
    | some found =>
      by_cases own : id = place
      · simp [own, unread]
      · simp [own]
  refine listed.of_same ⟨?_, ?_, ?_, ?_⟩ ?_ ?_ rfl
  · simp [SourceTree.size]
  · exact fun place _ => kept place fun decl => (same decl).1
  · exact fun place _ => kept place fun decl => (same decl).2.1
  · exact fun place _ => kept place fun decl => (same decl).2.2.1
  · simp [SourceTree.size]
  · exact fun place => kept place fun decl => (same decl).2.2.2

section Push

variable (kind : DeclKind) (name : String) {parent : Option DeclId}

theorem push_decl (known : ∀ owner, parent = some owner → owner < tree.size) (id : DeclId) :
    (tree.push kind name parent).decl id =
      if id = tree.size then { kind, name, parent }
      else if parent = some id then
        { tree.decl id with children := (tree.decl id).children ++ [tree.size] }
      else tree.decl id := by
  have base : (tree.decls ++ [Decl.mk kind name parent [] .public_ none])[id]?.getD {} =
      if id = tree.size then { kind, name, parent } else tree.decl id := by
    rcases Nat.lt_trichotomy id tree.size with before | same | after
    · rw [List.getElem?_append_left before, if_neg (Nat.ne_of_lt before)]
      rfl
    · simp [same, SourceTree.size]
    · rw [List.getElem?_eq_none (by rw [List.length_append]; exact after), if_neg (Nat.ne_of_gt after),
        decl_of_ge (Nat.le_of_lt after)]
      rfl
  rw [decl, push_decls]
  cases parent with
  | none => simpa using base
  | some owner =>
    have inside := known owner rfl
    simp only [List.getElem?_modify, Option.some.injEq]
    by_cases own : owner = id
    · subst own
      have present : (tree.decls ++ [Decl.mk kind name (some owner) [] .public_ none])[owner]? =
          some (tree.decl owner) := by
        rw [List.getElem?_append_left inside, decl]
        simp [List.getElem?_eq_getElem (show owner < tree.decls.length from inside)]
      simp [present, Nat.ne_of_lt inside]
    · simpa [own] using base

theorem push_extends (known : ∀ owner, parent = some owner → owner < tree.size) :
    tree.Extends (tree.push kind name parent) := by
  have kept (id : DeclId) (present : id < tree.size) {β : Type} {read : Decl → β}
      (unread : ∀ decl children, read { decl with children } = read decl) :
      read ((tree.push kind name parent).decl id) = read (tree.decl id) := by
    rw [push_decl kind name known, if_neg (Nat.ne_of_lt present)]
    split
    · exact unread _ _
    · rfl
  exact ⟨by simp [push_size], fun id present => kept id present fun _ _ => rfl,
    fun id present => kept id present fun _ _ => rfl, fun id present => kept id present fun _ _ => rfl⟩

theorem push_new (known : ∀ owner, parent = some owner → owner < tree.size) :
    (tree.push kind name parent).decl tree.size = { kind, name, parent } := by
  rw [push_decl kind name known, if_pos rfl]

theorem Ordered.push (ordered : tree.Ordered)
    (known : ∀ owner, parent = some owner → owner < tree.size) :
    (tree.push kind name parent).Ordered := by
  intro id outer found
  rcases Nat.lt_or_ge id tree.size with before | after
  · rw [(push_extends kind name known).parent id before] at found
    exact ordered id outer found
  · have inside := lt_size_of_parent found
    rw [push_size] at inside
    obtain rfl : id = tree.size := Nat.le_antisymm (Nat.le_of_lt_succ inside) after
    rw [SourceTree.parent, push_new kind name known] at found
    exact known outer found

theorem push_ids : (tree.push kind name parent).ids = tree.ids ++ [tree.size] := by
  rw [ids, push_size, List.range_succ]
  rfl

/-- The table of names has no part in them. -/
theorem qualifiedName_table (decls : List Decl) (comments : List (DeclId × String))
    (table added : List (String × DeclId)) (id : DeclId) :
    qualifiedName ⟨decls, comments, table ++ added⟩ id = qualifiedName ⟨decls, comments, table⟩ id := by
  have walk (fuel : Nat) (start : Option DeclId) :
      scopesFrom ⟨decls, comments, table ++ added⟩ fuel start =
        scopesFrom ⟨decls, comments, table⟩ fuel start := by
    induction fuel generalizing start with
    | zero => rfl
    | succ fuel ih =>
      cases start with
      | none => rfl
      | some id => exact congrArg (ite _ [] <| id :: ·) (ih _)
  unfold qualifiedName scopes
  rw [walk]
  rfl

theorem lookup_entered (table : List (String × DeclId)) (name wanted : String) (id : DeclId) :
    (if (table.lookup name).isSome then table else table ++ [(name, id)]).lookup wanted =
      (table.lookup wanted).or (if name == wanted then some id else none) := by
  by_cases same : name = wanted
  · subst same
    cases found : table.lookup name <;> simp [found, List.lookup_append]
  · have apart : (wanted == name) = false := beq_false_of_ne (Ne.symm same)
    split <;> simp [List.lookup_append, List.lookup_cons, same, apart]

/-- The new name is entered if it is the first of its kind. -/
theorem push_table (known : ∀ owner, parent = some owner → owner < tree.size) :
    (tree.push kind name parent).byQualifiedName =
    if (tree.push kind name parent).isNamed tree.size then
      if (tree.byQualifiedName.lookup ((tree.push kind name parent).qualifiedName tree.size)).isSome then
        tree.byQualifiedName
      else tree.byQualifiedName ++ [((tree.push kind name parent).qualifiedName tree.size, tree.size)]
    else tree.byQualifiedName := by
  have sort : (tree.push kind name parent).isNamed tree.size = !(kind.isSubPart || kind == .file) := by
    rw [isNamed, SourceTree.kind, push_new kind name known]
  rw [sort]
  unfold SourceTree.push
  dsimp only
  cases unnamed : kind.isSubPart || kind == .file with
  | true => rfl
  | false =>
    simp only [Bool.false_eq_true, if_false, Bool.not_false, if_true]
    split
    case isTrue => rfl
    case isFalse free => simp only [qualifiedName_table, free, if_false, Bool.false_eq_true]

theorem Listed.push (listed : tree.Listed)
    (known : ∀ owner, parent = some owner → owner < tree.size) :
    (tree.push kind name parent).Listed := by
  have within : tree.Extends (tree.push kind name parent) := push_extends kind name known
  have later := listed.ordered.push kind name known
  refine ⟨later, fun owner => ?_, fun qualified => ?_⟩
  · have old : (tree.ids.filter fun id => (tree.push kind name parent).parent id == some owner) =
        tree.children owner := by
      rw [listed.children]
      refine List.filter_congr fun id member => ?_
      rw [within.parent id (List.mem_range.mp member)]
    have new : (tree.push kind name parent).parent tree.size = parent := by
      rw [SourceTree.parent, push_new kind name known]
    rw [push_ids kind name, List.filter_append, old, List.filter_singleton, new, SourceTree.children, push_decl kind name known]
    by_cases own : parent = some owner
    · simp [own, Nat.ne_of_lt (known owner own), SourceTree.children]
    · have apart : (parent == some owner) = false := beq_false_of_ne own
      by_cases fresh : owner = tree.size
      · subst fresh
        simp [apart, SourceTree.children, decl_of_ge (Nat.le_refl tree.size)]
      · simp [apart, own, fresh, SourceTree.children]
  · have old := within.find_named listed.ordered later qualified
    rw [push_ids kind name, List.find?_append, old, ← listed.named, push_table kind name known, List.find?_singleton]
    cases named : (tree.push kind name parent).isNamed tree.size with
    | false => simp
    | true =>
      simp only [if_true, Bool.true_and, lookup_entered]

end Push

theorem Built.listed (built : tree.Built) : tree.Listed := by
  induction built with
  | empty => exact ⟨fun id parent found => (by cases found), fun owner => rfl, fun qualified => rfl⟩
  | edit built edit known listed =>
    cases edit with
    | file path => exact listed.push .file path fun owner none => nomatch none
    | declaration parent kind name =>
      exact listed.push kind name fun owner same => Option.some.inj same ▸ known
    | comment id text => exact listed.modify id fun decl => ⟨rfl, rfl, rfl, rfl⟩
    | access id level => exact listed.modify id fun decl => ⟨rfl, rfl, rfl, rfl⟩
    | freeComment owner text =>
      exact listed.of_same ⟨Nat.le_refl _, fun _ _ => rfl, fun _ _ => rfl, fun _ _ => rfl⟩ rfl
        (fun _ => rfl) rfl

/-- In a tree that was made by edits every parent comes before its children. So the walks up to the scopes
and to the file go on until they end; the children of a declaration are those with it as their parent, in
their order; and a lookup finds the first declaration of the name that is neither a file nor a part, or
else the first file of the name. -/
theorem Built.lists_scanned (built : tree.Built) :
    (∀ id parent, tree.parent id = some parent → parent < id) ∧
    (∀ id, tree.enclosingFile? id =
      if tree.kind id = .file then some id else (tree.parent id).bind tree.enclosingFile?) ∧
    (∀ id, tree.qualifiedName id =
      match (if tree.kind id = .file then none else tree.parent id) with
      | none => tree.name id
      | some parent =>
        if tree.kind parent = .file then tree.name id
        else tree.qualifiedName parent ++ "::" ++ tree.name id) ∧
    (∀ owner, tree.children owner = tree.ids.filter fun id => tree.parent id = some owner) ∧
    ∀ name, tree.lookup? name =
      (tree.ids.find? fun id => tree.kind id ≠ .file ∧ (tree.kind id).isSubPart = false ∧
        tree.qualifiedName id = name).or
      (tree.ids.find? fun id => tree.kind id = .file ∧ tree.name id = name) := by
  obtain ⟨ordered, children, named⟩ := built.listed
  refine ⟨ordered, fun id => ?_, fun id => ?_, fun owner => ?_, fun name => ?_⟩
  · simpa using ordered.enclosingFile?_eq id
  · by_cases file : tree.kind id = .file
    · simp [qualifiedName, file]
    · simp only [file, if_false]
      exact ordered.qualifiedName_eq file
  · rw [children]
    exact List.filter_congr fun id _ => beq_eq_decide _ _
  · rw [lookup?, named]
    congr 2
    · funext id
      simp [isNamed, beq_eq_decide, Bool.and_assoc, Bool.and_left_comm]
    · funext id
      simp [beq_eq_decide]

/-- Two declarations of one name, and a file of the same name after them. -/
theorem lists_scanned_overloaded :
    let tree := ofEdits [.file "a.hpp", .declaration 0 .namespace_ "ns", .declaration 1 .function "f",
      .declaration 1 .function "f", .file "ns::f"]
    tree.Built ∧ tree.children 1 = [2, 3] ∧ tree.lookup? "ns::f" = some 2 := by
  intro tree
  have built : tree.Built :=
    .edit (.edit (.edit (.edit (.edit .empty (.file "a.hpp") trivial)
      (.declaration 0 .namespace_ "ns") (Nat.zero_lt_one)) (.declaration 1 .function "f") (Nat.one_lt_two))
      (.declaration 1 .function "f") (Nat.lt_of_sub_pos Nat.zero_lt_two)) (.file "ns::f") trivial
  obtain ⟨_, _, _, children, lookup⟩ := built.lists_scanned
  refine ⟨built, ?_, ?_⟩
  · rw [children]
    decide
  · rw [lookup]
    decide

end DocComment.SourceTree
