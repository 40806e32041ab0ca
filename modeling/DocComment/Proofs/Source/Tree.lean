import DocComment.Source.Basic
import Mathlib.Data.List.Nodup
import Mathlib.Data.List.Perm.Subperm

/-! Source trees: no declaration of a tree as it is built is twice among the children of another, and the
walk up any tree finds all scopes of a declaration, since a way from a declaration to a scope can do without
loops and is then no longer than the list of declarations. -/
namespace DocComment.SourceTree

/-- What may be done to a source tree. -/
inductive Edit where
  | file (path : String)
  | declaration (parent : DeclId) (kind : DeclKind) (name : String)
  | comment (id : DeclId) (text : String)
  | access (id : DeclId) (level : Access)
  | freeComment (owner : DeclId) (text : String)

def Edit.apply (tree : SourceTree) : Edit → SourceTree
  | .file path => tree.addFile path
  | .declaration parent kind name => tree.add parent kind name
  | .comment id text => tree.setComment id text
  | .access id level => tree.setAccess id level
  | .freeComment owner text => tree.addFreeComment owner text

/-- The tree that edits make. -/
def ofEdits (edits : List Edit) : SourceTree :=
  edits.foldl Edit.apply {}

/-- Children are declared, and each is listed once. -/
def Arranged (tree : SourceTree) : Prop :=
  ∀ decl ∈ tree.decls, decl.children.Nodup ∧ ∀ child ∈ decl.children, child < tree.size

theorem mem_modify {entities : List α} {change : α → α}
    (member : new ∈ entities.modify position change) :
    new ∈ entities ∨ ∃ old ∈ entities, new = change old := by
  obtain ⟨place, found⟩ := List.getElem?_of_mem member
  rw [List.getElem?_modify] at found
  cases present : entities[place]? with
  | none => simp [present] at found
  | some old =>
    have inside := List.mem_of_getElem? present
    simp only [present, Option.map_eq_map, Option.map_some, Option.some.injEq] at found
    split at found
    · exact .inr ⟨old, inside, found.symm⟩
    · exact .inl (found ▸ inside)

/-- A change of one declaration that leaves its children. -/
theorem Arranged.modify {tree : SourceTree} (arranged : tree.Arranged) (id : DeclId)
    {change : Decl → Decl} (same : ∀ decl, (change decl).children = decl.children) :
    Arranged { tree with decls := tree.decls.modify id change } := by
  intro decl member
  simp only [size, List.length_modify]
  rcases mem_modify member with old | ⟨old, present, rfl⟩
  · exact arranged decl old
  · rw [same]
    exact arranged old present

theorem push_decls (tree : SourceTree) (kind : DeclKind) (name : String) (parent : Option DeclId) :
    (tree.push kind name parent).decls =
      match parent with
      | none => tree.decls ++ [Decl.mk kind name none [] .public_ none]
      | some owner => (tree.decls ++ [Decl.mk kind name parent [] .public_ none]).modify owner
          fun decl => { decl with children := decl.children ++ [tree.size] } := by
  unfold SourceTree.push
  dsimp only
  cases parent <;> (split; · rfl) <;> (split <;> rfl)

theorem push_size (tree : SourceTree) (kind : DeclKind) (name : String) (parent : Option DeclId) :
    (tree.push kind name parent).size = tree.size + 1 := by
  rw [size, push_decls]
  cases parent <;> simp [size]

/-- A new declaration has a number that no list of children holds yet. -/
theorem Arranged.push {tree : SourceTree} (arranged : tree.Arranged) (kind : DeclKind) (name : String)
    (parent : Option DeclId) : (tree.push kind name parent).Arranged := by
  have added : ∀ decl ∈ tree.decls ++ [Decl.mk kind name parent [] .public_ none],
      decl.children.Nodup ∧ ∀ child ∈ decl.children, child < tree.size := by
    intro decl member
    rcases List.mem_append.mp member with old | new
    · exact arranged decl old
    · rw [List.mem_singleton.mp new]
      simp
  have later : ∀ decl ∈ tree.decls ++ [Decl.mk kind name parent [] .public_ none],
      decl.children.Nodup ∧ ∀ child ∈ decl.children, child < tree.size + 1 := fun decl member =>
    ⟨(added decl member).1, fun child inside => Nat.lt_succ_of_lt ((added decl member).2 child inside)⟩
  intro decl member
  rw [push_size]
  rw [push_decls] at member
  cases parent with
  | none => exact later decl member
  | some owner =>
    rcases mem_modify member with old | ⟨old, present, rfl⟩
    · exact later decl old
    · obtain ⟨distinct, below⟩ := added old present
      refine ⟨?_, fun child inside => ?_⟩
      · refine List.nodup_append.mpr ⟨distinct, by simp, fun child inside last new same => ?_⟩
        rw [List.mem_singleton.mp new] at same
        exact Nat.lt_irrefl _ (same ▸ below child inside)
      · rcases List.mem_append.mp inside with before | new
        · exact (later old present).2 child before
        · rw [List.mem_singleton.mp new]
          exact Nat.lt_succ_self _

theorem Edit.apply_arranged {tree : SourceTree} (arranged : tree.Arranged) (edit : Edit) :
    (edit.apply tree).Arranged := by
  cases edit with
  | file path => exact arranged.push .file path none
  | declaration parent kind name => exact arranged.push kind name (some parent)
  | comment id text => exact arranged.modify id fun _ => rfl
  | access id level => exact arranged.modify id fun _ => rfl
  | freeComment owner text => exact arranged

theorem ofEdits_arranged (edits : List Edit) : (ofEdits edits).Arranged := by
  have run (edits : List Edit) {tree : SourceTree} (arranged : tree.Arranged) :
      (edits.foldl Edit.apply tree).Arranged := by
    induction edits generalizing tree with
    | nil => exact arranged
    | cons edit rest ih => exact ih (edit.apply_arranged arranged)
  exact run edits fun _ member => by cases member

theorem Arranged.childrenOfKind_nodup {tree : SourceTree} (arranged : tree.Arranged) (id : DeclId)
    (kind : DeclKind) : (tree.childrenOfKind id kind).Nodup := by
  refine List.Nodup.filter _ ?_
  unfold children decl
  cases found : tree.decls[id]? with
  | none => exact List.nodup_nil
  | some declared => exact (arranged declared (List.mem_of_getElem? found)).1

/-- The first declaration is the second one or a scope around it, and neither of them nor any
declaration between them is a file. -/
inductive Encloses (tree : SourceTree) (scope : DeclId) : DeclId → Prop where
  | self (named : tree.kind scope ≠ .file) : Encloses tree scope scope
  | inner {id outer : DeclId} (named : tree.kind id ≠ .file) (parent : tree.parent id = some outer)
      (around : Encloses tree scope outer) : Encloses tree scope id

/-- The declarations on the way up to a scope, both ends included. -/
inductive Chain (tree : SourceTree) (scope : DeclId) : List DeclId → Prop where
  | last (named : tree.kind scope ≠ .file) : Chain tree scope [scope]
  | up {id outer : DeclId} {later : List DeclId} (named : tree.kind id ≠ .file)
      (parent : tree.parent id = some outer) (rest : Chain tree scope (outer :: later)) :
      Chain tree scope (id :: outer :: later)

variable {tree : SourceTree} {scope id : DeclId}

theorem Encloses.trans {middle : DeclId} (outer : tree.Encloses scope middle)
    (inner : tree.Encloses middle id) : tree.Encloses scope id := by
  induction inner with
  | self => exact outer
  | inner named parent _ ih => exact .inner named parent ih

namespace Chain

theorem of_append {before after : List DeclId} (chain : tree.Chain scope (before ++ id :: after)) :
    tree.Chain scope (id :: after) := by
  induction before with
  | nil => exact chain
  | cons first others ih =>
    refine ih ?_
    cases others <;> (cases chain with | up _ _ rest => exact rest)

theorem named {ids : List DeclId} (chain : tree.Chain scope ids) :
    ∀ id ∈ ids, tree.kind id ≠ .file := by
  induction chain with
  | last named => simpa using named
  | up named _ _ ih => exact List.forall_mem_cons.mpr ⟨named, ih⟩

/-- All that is no file is declared. -/
theorem length_le {ids : List DeclId} (chain : tree.Chain scope ids) (distinct : ids.Nodup) :
    ids.length ≤ tree.size := by
  have declared : ids ⊆ List.range tree.size := by
    intro id member
    rw [List.mem_range]
    by_contra missing
    refine chain.named id member ?_
    rw [kind, decl, List.getElem?_eq_none (Nat.le_of_not_lt missing)]
    rfl
  simpa using (List.subperm_of_subset distinct declared).length_le

theorem mem_scopesFrom {ids : List DeclId} (chain : tree.Chain scope ids) {fuel : Nat}
    (enough : ids.length ≤ fuel) : scope ∈ tree.scopesFrom fuel ids.head? := by
  induction chain generalizing fuel with
  | last named =>
    cases fuel with
    | zero => cases enough
    | succ fuel => simp [scopesFrom, named]
  | up named parent _ ih =>
    cases fuel with
    | zero => cases enough
    | succ fuel =>
      have around := ih (Nat.le_of_succ_le_succ enough)
      simp only [List.head?_cons] at around
      simp [scopesFrom, named, parent, around]

end Chain

/-- A way up without loops. -/
theorem Encloses.exists_chain (encloses : tree.Encloses scope id) :
    ∃ later, tree.Chain scope (id :: later) ∧ (id :: later).Nodup := by
  induction encloses with
  | self named => exact ⟨[], .last named, List.nodup_singleton scope⟩
  | @inner id outer named parent _ ih =>
    obtain ⟨later, chain, distinct⟩ := ih
    by_cases again : id ∈ outer :: later
    · obtain ⟨before, after, same⟩ := List.append_of_mem again
      rw [same] at chain distinct
      exact ⟨after, chain.of_append, (List.nodup_append.mp distinct).2.1⟩
    · exact ⟨outer :: later, .up named parent chain, List.nodup_cons.mpr ⟨again, distinct⟩⟩

theorem encloses_of_mem_scopesFrom {fuel : Nat} (member : scope ∈ tree.scopesFrom fuel (some id)) :
    tree.Encloses scope id := by
  induction fuel generalizing id with
  | zero => cases member
  | succ fuel ih =>
    unfold scopesFrom at member
    split at member
    · cases member
    · rename_i noFile
      have named : tree.kind id ≠ .file := by simpa using noFile
      rcases List.mem_cons.mp member with rfl | around
      · exact .self named
      · cases parent : tree.parent id with
        | none =>
          rw [parent] at around
          cases fuel <;> cases around
        | some outer =>
          rw [parent] at around
          exact .inner named parent (ih around)

theorem mem_scopes_iff : scope ∈ tree.scopes id ↔ tree.Encloses scope id := by
  constructor
  · exact encloses_of_mem_scopesFrom
  · intro encloses
    obtain ⟨later, chain, distinct⟩ := encloses.exists_chain
    exact chain.mem_scopesFrom (Nat.le_succ_of_le (chain.length_le distinct))

end DocComment.SourceTree
