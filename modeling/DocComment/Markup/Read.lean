import DocComment.Markup.Block
import DocComment.Markup.Inline
import DocComment.Markup.Tree

namespace DocComment.Markup

mutual

/-- The events of a block. A paragraph of a tight list item has no events of its own. -/
def blockEvents (definitions : List Definition) (tight : Bool) : Block → List Event
  | .paragraph text =>
    let inner := inlineEvents definitions text
    if tight then inner else .enter .paragraph :: inner ++ [.leave]
  | .heading level text => .enter (.heading level) :: inlineEvents definitions text ++ [.leave]
  | .rule => [.rule]
  | .code info text => [.enter (.codeBlock (String.ofList info)), .text (String.ofList text), .leave]
  | .html text => [.enter .htmlBlock, .text (String.ofList text), .leave]
  | .quote children => .enter .blockQuote :: allBlockEvents definitions false children ++ [.leave]
  | .list ordered tight items =>
    .enter (.list ordered) :: allBlockEvents definitions tight items ++ [.leave]
  | .item children => .enter .item :: allBlockEvents definitions tight children ++ [.leave]

def allBlockEvents (definitions : List Definition) (tight : Bool) : List Block → List Event
  | [] => []
  | block :: rest => blockEvents definitions tight block ++ allBlockEvents definitions tight rest

end

def events (text : List Char) : List Event :=
  let (blocks, definitions) := blocksOf text
  allBlockEvents definitions false blocks

/-- The block-level entities of a text. Anything without a node of its own stays as text. -/
def read (text : String) : List Entity :=
  treeOf (events text.toList)

end DocComment.Markup
