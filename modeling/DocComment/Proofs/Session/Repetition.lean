import DocComment.Collect
import DocComment.Proofs.Pass.Anchors
import DocComment.Proofs.Pass.Members
import DocComment.Proofs.Pass.Stability

namespace DocComment

open Entity (IsMarkup preorderAll)

namespace Pipeline

variable {synthesis : Synthesis} {options : PipelineOptions} {pool : Pool} {index : Index}
  {order : SetOrder}

theorem anchored_eq_self_iff : anchored index = index ↔
    ∀ node ∈ preorderAll index.entities, Anchors.Kept node := by
  have entities : anchored index = index ↔ ∀ entity ∈ index.entities, Anchors.apply entity = entity := by
    constructor
    · intro same
      exact List.map_inj_left.mp ((congrArg Index.entities same).trans (List.map_id _).symm)
    · intro each
      rw [anchored, Entity.map_unchanged each]
  rw [entities]
  constructor
  · intro each node member
    obtain ⟨entity, present, inside⟩ := Entity.mem_preorderAll.mp member
    exact Anchors.apply_eq_self_iff.mp (each entity present) node inside
  · intro kept entity present
    exact Anchors.apply_eq_self_iff.mpr fun node inside =>
      kept node (Entity.mem_preorderAll.mpr ⟨entity, present, inside⟩)

/-- Every entity keeps its anchor if no heading that is to give one has a link without text. -/
theorem passes_kept (markup : ∀ text, ∀ entity ∈ synthesis.read text, IsMarkup entity)
    (succeed : AllSucceed pool index (passes synthesis options order))
    (written : ∀ node ∈ preorderAll (indexAfter pool index
      ((passes synthesis options order).take 5)).entities, Anchors.Written node) :
    ∀ node ∈ preorderAll (indexAfter pool index (passes synthesis options order)).entities,
      Anchors.Kept node := by
  obtain ⟨_, _, anchored, internal, external, filled, _⟩ := succeed
  simp only [passes, List.take, indexAfter, List.foldl_cons, List.foldl_nil] at written ⊢
  intro node below
  obtain ⟨entity, member, inside⟩ := Entity.mem_preorderAll.mp below
  refine Anchors.apply_eq_self_iff.mp ?_ node inside
  obtain ⟨fifth, present, rfl, _⟩ := filled.mem_entities member
  have own : ∀ node ∈ fifth.preorder, Anchors.Written node := by
    intro node among
    exact written node (Entity.mem_preorderAll.mpr ⟨fifth, present, among⟩)
  obtain ⟨fourth, was, rfl, _⟩ := external.mem_entities present
  obtain ⟨third, before, rfl, _⟩ := internal.mem_entities was
  obtain ⟨second, _, rfl, _⟩ := anchored.mem_entities before
  refine Anchors.apply_linkText markup _ _ ?_ own
  exact Anchors.apply_mapUnresolved (Anchors.apply_mapUnresolved (Anchors.apply_apply second))

/-- If nothing fails when all passes run, nothing fails when they run again, whatever the order of modules
then, and all that the second run changes are anchors. It changes nothing if and only if every entity keeps its anchor. That is so if no
entity without an anchor starts with a heading that has a link without text when texts are filled in. -/
theorem transform_twice (source : SourceTree) (formatter : Formatter) (options : PipelineOptions)
    (pool : Pool) (index : Index) (diagnostics later : Diagnostics) (order next : SetOrder)
    (regular : Regular ⟨source, Markup.read, formatter⟩ options pool index order)
    (fine : (transform ⟨source, Markup.read, formatter⟩ options pool index diagnostics order).2.2 = 0) :
    let synthesis : Synthesis := ⟨source, Markup.read, formatter⟩
    let first := (transform synthesis options pool index diagnostics order).1
    let second := transform synthesis options pool first later next
    second.2.2 = 0 ∧ second.1 = anchored first ∧
      (second.1 = first ↔ ∀ node ∈ preorderAll first.entities, Anchors.Kept node) ∧
      ((∀ node ∈ preorderAll (indexAfter pool index
          ((passes synthesis options order).take 5)).entities, Anchors.Written node) →
        second.1 = first) := by
  intro synthesis first second
  have markup := Synthesis.read_markup source formatter
  have succeed := runAll_failures.mp fine
  have stable := passes_stable markup regular succeed
  have index_first : first = indexAfter pool index (passes synthesis options order) :=
    runAll_index source pool index diagnostics _
  rw [← index_first] at stable
  have runs : ∀ entity ∈ first.entities, pool.fate = .run := by
    intro entity member
    obtain ⟨_, _, _, _, _, filled, _⟩ := succeed
    rw [index_first] at member
    obtain ⟨old, present, _⟩ := filled.mem_entities member
    exact (filled old present).1
  obtain ⟨again, same⟩ := stable.passes_eq runs next
  have index_second : second.1 = anchored first := by
    rw [← same]
    exact runAll_index source pool first later _
  have unchanged : second.1 = first ↔ ∀ node ∈ preorderAll first.entities, Anchors.Kept node := by
    rw [index_second, anchored_eq_self_iff]
  refine ⟨runAll_failures.mpr again, index_second, unchanged, fun written => unchanged.mpr ?_⟩
  rw [index_first]
  exact passes_kept markup succeed written

/-- A file with one function. -/
def guideTree : SourceTree :=
  ({} : SourceTree).addFile "a.hpp" |>.add 0 .function "swap"

/-- The normalized index of that file and of a document. -/
def guideIndex (text : String) : Index :=
  (Normalize.run guideTree
    (Collect.documents ⟨Markup.read, ⟨[]⟩, false⟩ [⟨"Guide", ⟨"guide.md"⟩, text⟩] .synchronous {} {}).1
    {}).1

theorem transform_twice_guide :
    let index := guideIndex "# Guide\n\nSee [](<> \"*swap\")."
    let first := (transform ⟨guideTree, Markup.read, Formatter.template⟩ {} .synchronous index {}).1
    Regular ⟨guideTree, Markup.read, Formatter.template⟩ {} .synchronous index ∧
      (transform ⟨guideTree, Markup.read, Formatter.template⟩ {} .synchronous index {}).2.2 = 0 ∧
      (transform ⟨guideTree, Markup.read, Formatter.template⟩ {} .synchronous first {}).2.2 = 0 ∧
      (transform ⟨guideTree, Markup.read, Formatter.template⟩ {} .synchronous first {}).1 = first := by
  obtain ⟨regular, fine, written⟩ :
      Regular ⟨guideTree, Markup.read, Formatter.template⟩ {} .synchronous
          (guideIndex "# Guide\n\nSee [](<> \"*swap\").") ∧
        (transform ⟨guideTree, Markup.read, Formatter.template⟩ {} .synchronous
          (guideIndex "# Guide\n\nSee [](<> \"*swap\").") {}).2.2 = 0 ∧
        ∀ node ∈ preorderAll (indexAfter .synchronous (guideIndex "# Guide\n\nSee [](<> \"*swap\").")
          ((passes ⟨guideTree, Markup.read, Formatter.template⟩ {}).take 5)).entities,
          Anchors.Written node := by
    decide +kernel
  obtain ⟨none, _, _, same⟩ :=
    transform_twice guideTree Formatter.template {} .synchronous _ {} {} .arrival .arrival regular fine
  exact ⟨regular, fine, none, same written⟩

/-- The heading is empty but for a link without text, which gets its text after the anchors are made. So
the second time the heading gives an anchor. -/
theorem late_heading_text_changes_anchor :
    let synthesis : Synthesis := ⟨guideTree, Markup.read, Formatter.template⟩
    let index := guideIndex "# [](<> \"*swap\")"
    let first := (transform synthesis {} .synchronous index {}).1
    let second := transform synthesis {} .synchronous first {}
    Regular synthesis {} .synchronous index ∧
      (transform synthesis {} .synchronous index {}).2.2 = 0 ∧ second.2.2 = 0 ∧
      first.entities.head?.bind Entity.anchor? = some "" ∧
      second.1.entities.head?.bind Entity.anchor? = some "swap" := by
  decide +kernel

end Pipeline

end DocComment
