import DocComment.Markup.Read
import DocComment.Proofs.Markup.BlockReading
import DocComment.Proofs.Markup.InlineBuilds

namespace DocComment.Markup

mutual

/-- A block without its inline content. -/
def skeleton : Entity → Entity
  | .leaf leaf => .leaf leaf
  | .node tag children =>
    match tag with
    | .paragraph => .node .paragraph []
    | .heading level => .node (.heading level) []
    | tag => .node tag (skeletonAll false children)

/-- Blocks without their inline content. Inline content on its own, as in an item of a tight list, counts
as a paragraph; `inline` says that it does so already. -/
def skeletonAll (inline : Bool) : List Entity → List Entity
  | [] => []
  | entity :: rest =>
    if entity.isBlock then skeleton entity :: skeletonAll false rest
    else if inline then skeletonAll true rest
    else .node .paragraph [] :: skeletonAll true rest

end

mutual

/-- The structure of what is built for a block. -/
def Block.skeleton : Block → Entity
  | .paragraph _ | .html _ => .node .paragraph []
  | .heading level _ => .node (.heading level) []
  | .rule => .leaf .thematicBreak
  | .code info text => .leaf (.codeBlock (String.ofList info) (String.ofList text))
  | .quote children => .node .blockQuote (skeletons children)
  | .list ordered _ items => .node (.list ordered) (skeletons items)
  | .item children => .node .listItem (skeletons children)

def Block.skeletons : List Block → List Entity
  | [] => []
  | block :: rest => block.skeleton :: skeletons rest

end

theorem skeletonAll_blocks {entities : List Entity} (blocks : ∀ entity ∈ entities, entity.isBlock = true)
    (inline : Bool) : skeletonAll inline entities = entities.map skeleton := by
  induction entities generalizing inline with
  | nil => rfl
  | cons entity rest ih =>
    obtain ⟨first, others⟩ := List.forall_mem_cons.mp blocks
    rw [skeletonAll, if_pos first, ih others, List.map_cons]

theorem skeletonAll_append {entities more : List Entity}
    (blocks : ∀ entity ∈ entities, entity.isBlock = true) (blocksMore : ∀ entity ∈ more, entity.isBlock = true) :
    skeletonAll false (entities ++ more) = skeletonAll false entities ++ skeletonAll false more := by
  rw [skeletonAll_blocks (List.forall_mem_append.mpr ⟨blocks, blocksMore⟩), List.map_append,
    skeletonAll_blocks blocks, skeletonAll_blocks blocksMore]

/-- Inline content in a row is one paragraph. -/
theorem skeletonAll_inline {content : List Entity} (inline : ∀ entity ∈ content, entity.isBlock = false)
    (rest : List Entity) : skeletonAll true (content ++ rest) = skeletonAll true rest := by
  induction content with
  | nil => rfl
  | cons entity others ih =>
    obtain ⟨first, more⟩ := List.forall_mem_cons.mp inline
    rw [List.cons_append, skeletonAll, if_neg (by simp [first]), if_pos rfl, ih more]

theorem skeletonAll_content {content : List Entity} (nonempty : content ≠ [])
    (inline : ∀ entity ∈ content, entity.isBlock = false) (rest : List Entity) :
    skeletonAll false (content ++ rest) = .node .paragraph [] :: skeletonAll true rest := by
  obtain ⟨entity, others, rfl⟩ := List.exists_cons_of_ne_nil nonempty
  obtain ⟨first, more⟩ := List.forall_mem_cons.mp inline
  rw [List.cons_append, skeletonAll, if_neg (by simp [first]), if_neg Bool.false_ne_true,
    skeletonAll_inline more]

theorem gather_blocks {entities : List Entity} (blocks : ∀ entity ∈ entities, entity.isBlock = true) :
    gather entities = entities := by
  have push : ∀ (entities children : List Entity), (∀ entity ∈ entities, entity.isBlock = true) →
      entities.foldl pushChild children = entities.reverse ++ children := by
    intro entities
    induction entities with
    | nil => exact fun _ _ => rfl
    | cons entity rest ih =>
      intro children blocks
      obtain ⟨first, others⟩ := List.forall_mem_cons.mp blocks
      have apart : pushChild children entity = entity :: children := by
        unfold pushChild
        split
        · cases first
        · rfl
      rw [List.foldl_cons, apart, ih _ others]
      simp
  rw [gather, push entities [] blocks, List.append_nil, List.reverse_reverse]

theorem gather_inline {content : List Entity} (inline : ∀ entity ∈ content, entity.isBlock = false) :
    (∀ entity ∈ gather content, entity.isBlock = false) ∧ (content ≠ [] → gather content ≠ []) := by
  have push (children : List Entity) (entity : Entity) (own : entity.isBlock = false)
      (inline : ∀ child ∈ children, child.isBlock = false) :
      (∀ child ∈ pushChild children entity, child.isBlock = false) ∧ pushChild children entity ≠ [] := by
    unfold pushChild
    split
    · obtain ⟨_, others⟩ := List.forall_mem_cons.mp inline
      exact ⟨List.forall_mem_cons.mpr ⟨rfl, others⟩, List.cons_ne_nil _ _⟩
    · exact ⟨List.forall_mem_cons.mpr ⟨own, inline⟩, List.cons_ne_nil _ _⟩
  have all : ∀ (content children : List Entity), (∀ entity ∈ content, entity.isBlock = false) →
      (∀ child ∈ children, child.isBlock = false) →
      (∀ child ∈ content.foldl pushChild children, child.isBlock = false) ∧
        (content ≠ [] ∨ children ≠ [] → content.foldl pushChild children ≠ []) := by
    intro content
    induction content with
    | nil => exact fun children _ inline => ⟨inline, fun nonempty => by simpa using nonempty⟩
    | cons entity rest ih =>
      intro children own inline
      obtain ⟨first, others⟩ := List.forall_mem_cons.mp own
      obtain ⟨next, nonempty⟩ := push children entity first inline
      obtain ⟨last, shown⟩ := ih _ others next
      exact ⟨last, fun _ => shown (.inr nonempty)⟩
  obtain ⟨last, shown⟩ := all content [] inline (by simp)
  refine ⟨fun entity member => last entity (List.mem_reverse.mp member), fun nonempty => ?_⟩
  simpa [gather] using shown (.inl nonempty)

theorem skeleton_alone {entity : Entity} (isBlock : entity.isBlock = true) :
    skeletonAll false (gather [entity]) = [skeleton entity] := by
  have block : ∀ other ∈ [entity], other.isBlock = true := by simpa using isBlock
  rw [gather_blocks block, skeletonAll_blocks block]
  rfl

/-- What is built for a block outside of tight lists. -/
theorem LeafLines.builds {block : Block} {lines : List (List Char)} (leaf : LeafLines block lines) :
    ∃ entity, Builds (blockEvents [] false block) [entity] ∧ entity.isBlock = true ∧
      skeleton entity = block.skeleton := by
  cases leaf with
  | paragraph =>
    obtain ⟨⟨entities, builds, _⟩, _⟩ := inlineEvents_inlined [] (Text.joinLines _)
    exact ⟨_, builds.enclosed .paragraph, rfl, by simp [skeleton, Block.skeleton]⟩
  | heading =>
    obtain ⟨⟨entities, builds, _⟩, _⟩ := inlineEvents_inlined [] (headingText _)
    exact ⟨_, builds.enclosed (.heading _), rfl, by simp [skeleton, Block.skeleton]⟩
  | rule => exact ⟨.leaf .thematicBreak, fun _ => rfl, rfl, by simp [skeleton, Block.skeleton]⟩
  | code =>
    refine ⟨_, (Builds.text _).enclosed (.codeBlock _), rfl, ?_⟩
    simp [gather, pushChild, Entity.plainTextAll, Entity.plainText, skeleton, Block.skeleton]

theorem LeafLines.builds_tight {block : Block} {lines : List (List Char)} (leaf : LeafLines block lines) :
    ∃ entities, Builds (blockEvents [] true block) entities ∧
      skeletonAll false (gather entities) = [block.skeleton] := by
  have built := leaf.builds
  cases leaf with
  | @paragraph first others inert defines =>
    obtain ⟨c, rest, rfl, inked, _⟩ := (inert first List.mem_cons_self).first
    obtain ⟨⟨entities, builds, inline, empty, _⟩, shown⟩ :=
      inlineEvents_inlined [] (Text.joinLines ((c :: rest) :: others))
    have nonempty : entities ≠ [] := fun none =>
      shown c _ (joinLines_longer c rest others) inked (empty none)
    obtain ⟨inlineGathered, someGathered⟩ := gather_inline inline
    refine ⟨entities, by simpa [blockEvents] using builds, ?_⟩
    have content := skeletonAll_content (someGathered nonempty) inlineGathered []
    rw [List.append_nil] at content
    rw [content]
    simp [skeletonAll, Block.skeleton]
  | heading | rule | code =>
    obtain ⟨entity, builds, isBlock, same⟩ := built
    exact ⟨[entity], by simpa [blockEvents] using builds, by rw [skeleton_alone isBlock, same]⟩

/-- What is built for blocks or items has their structure. -/
def Series.Builds : Series → List Block → Prop
  | .blocks, children => ∀ tight, (tight = true → children.length ≤ 1) →
      ∃ entities, Markup.Builds (allBlockEvents [] tight children) entities ∧
        skeletonAll false (gather entities) = Block.skeletons children ∧
        (tight = false → ∀ entity ∈ entities, entity.isBlock = true)
  | .items .., parts => ∀ tight, (tight = true → isTight parts = true) →
      ∃ entities, Markup.Builds (allBlockEvents [] tight parts) entities ∧
        skeletonAll false entities = Block.skeletons parts ∧
        ∀ entity ∈ entities, entity.isBlock = true

theorem BlockLines.builds {kind : Series} {blocks : List Block} {lines : List (List Char)}
    (spelled : BlockLines kind blocks lines) : kind.Builds blocks := by
  induction spelled with
  | @leaf block _ leaf =>
    intro tight few
    have single (tight : Bool) : allBlockEvents [] tight [block] = blockEvents [] tight block :=
      List.append_nil _
    cases tight with
    | true =>
      obtain ⟨entities, builds, same⟩ := leaf.builds_tight
      exact ⟨entities, single true ▸ builds, same, by simp⟩
    | false =>
      obtain ⟨entity, builds, isBlock, same⟩ := leaf.builds
      refine ⟨[entity], single false ▸ builds, ?_, fun _ => by simpa using isBlock⟩
      rw [skeleton_alone isBlock, same]
      rfl
  | @quote children _ inner gap closes ih =>
    intro tight few
    obtain ⟨entities, builds, same, _⟩ := ih false (by simp)
    have built := builds.enclosed .blockQuote
    refine ⟨[.node .blockQuote (gather entities)], ?_, ?_, by simp [Entity.isBlock]⟩
    · simpa [allBlockEvents, blockEvents, closeOpening] using built
    · rw [skeleton_alone rfl]
      simp [skeleton, same, Block.skeletons, Block.skeleton]
  | @list ordered items _ inner ih =>
    intro tight few
    obtain ⟨entities, builds, same, blocks⟩ := ih (isTight items) id
    have built := builds.enclosed (.list ordered)
    refine ⟨[.node (.list ordered) (gather entities)], ?_, ?_, by simp [Entity.isBlock]⟩
    · simpa [allBlockEvents, blockEvents, closeOpening] using built
    · rw [skeleton_alone rfl, gather_blocks blocks]
      simp [skeleton, same, Block.skeletons, Block.skeleton]
  | @next block blocks _ _ first gap apart others ihFirst ihOthers =>
    intro tight few
    obtain ⟨next, rest, rfl⟩ := List.exists_cons_of_ne_nil others.ne_nil
    obtain rfl : tight = false := by
      by_contra set_
      simpa using few (by simpa using set_)
    obtain ⟨entities, builds, same, own⟩ := ihFirst false (by simp)
    obtain ⟨more, buildsMore, sameMore, ownMore⟩ := ihOthers false (by simp)
    have blocks := own rfl
    have all := List.forall_mem_append.mpr ⟨blocks, ownMore rfl⟩
    rw [gather_blocks blocks] at same
    rw [gather_blocks (ownMore rfl)] at sameMore
    refine ⟨entities ++ more, ?_, ?_, fun _ => all⟩
    · simpa [allBlockEvents] using builds.append buildsMore
    · rw [gather_blocks all, skeletonAll_append blocks (ownMore rfl), same, sameMore]
      rfl
  | @item ordered number children _ _ short noRule inner ih =>
    intro tight few
    obtain ⟨entities, builds, same, _⟩ := ih tight fun set_ => by simpa [isTight] using few set_
    have built := builds.enclosed .item
    refine ⟨[.node .listItem (gather entities)], ?_, ?_, by simp [Entity.isBlock]⟩
    · simpa [allBlockEvents, blockEvents, closeOpening] using built
    · simp [skeletonAll, Entity.isBlock, skeleton, same, Block.skeletons, Block.skeleton]
  | @nextItem ordered number item items _ _ first others ihFirst ihOthers =>
    intro tight few
    have split : tight = true → isTight [item] = true ∧ isTight items = true := fun set_ => by
      have all := few set_
      rw [← List.singleton_append, isTight, List.all_append, Bool.and_eq_true] at all
      exact all
    obtain ⟨entities, builds, same, own⟩ := ihFirst tight fun set_ => (split set_).1
    obtain ⟨more, buildsMore, sameMore, ownMore⟩ := ihOthers tight fun set_ => (split set_).2
    refine ⟨entities ++ more, ?_, ?_, List.forall_mem_append.mpr ⟨own, ownMore⟩⟩
    · simpa [allBlockEvents] using builds.append buildsMore
    · rw [skeletonAll_append own ownMore, same, sameMore]
      rfl

/-- What is read from lines that spell blocks has the structure of the blocks. -/
theorem BlockLines.skeleton_read {blocks : List Block} {lines : List (List Char)}
    (spelled : BlockLines .blocks blocks lines) {text : List Char} (gap : Nat)
    (same : contents text = lines ++ List.replicate gap []) (plain : ∀ c ∈ text, c ≠ '\r') :
    skeletonAll false (read (String.ofList text)) = Block.skeletons blocks := by
  obtain ⟨entities, builds, structure_, _⟩ := spelled.builds false (by simp)
  have events : Markup.events text = allBlockEvents [] false blocks := by
    rw [Markup.events, spelled.blocksOf gap same plain]
  rw [read, String.toList_ofList, events, builds.treeOf, structure_]

end DocComment.Markup
