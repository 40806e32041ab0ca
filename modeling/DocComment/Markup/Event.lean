/-! Markup as a flat sequence of openings, leaves and closings, and what of it is known of the reports of a
reader of CommonMark with all its extensions. -/
namespace DocComment.Markup

/-- What an opening event starts. -/
inductive Opening where
  | paragraph
  | heading (level : Nat)
  | blockQuote
  | codeBlock (info : String)
  | htmlBlock
  | list (ordered : Bool)
  | item
  | emphasis
  | strong
  | link (destination : String) (title : String)
  | image (destination : String) (title : String)
  /-- A construct without a node of its own; its content joins the surroundings. -/
  | transparent
  deriving Repr, DecidableEq, Inhabited

inductive Event where
  | enter (opening : Opening)
  | leave
  /-- Literal text, raw markup included. -/
  | text (text : String)
  | code (text : String)
  | softBreak
  | hardBreak
  | rule
  deriving Repr, DecidableEq, Inhabited

/-- What a reader finds in a text. -/
inductive Construct where
  | paragraph
  | heading (level : Nat)
  | blockQuote
  | fencedCode (info : String)
  | indentedCode
  | htmlBlock
  /-- An ordered list has a number that it starts with. -/
  | list (start : Option Nat)
  | item
  | emphasis
  | strong
  | link (destination : String) (title : String)
  | image (destination : String) (title : String)
  /-- A table, a footnote, a struck text or another extension, or a part of one. -/
  | extension
  deriving Repr, DecidableEq

def Construct.opening : Construct → Opening
  | .paragraph => .paragraph
  | .heading level => .heading level
  | .blockQuote => .blockQuote
  | .fencedCode info => .codeBlock info
  | .indentedCode => .codeBlock ""
  | .htmlBlock => .htmlBlock
  | .list start => .list start.isSome
  | .item => .item
  | .emphasis => .emphasis
  | .strong => .strong
  | .link destination title => .link destination title
  | .image destination title => .image destination title
  | .extension => .transparent

inductive Report where
  | start (construct : Construct)
  | finish
  | text (written : String)
  | html (written : String)
  | inlineHtml (written : String)
  | code (written : String)
  | inlineMath (written : String)
  | displayMath (written : String)
  | softBreak
  | hardBreak
  | rule
  | footnote (name : String)
  | task (done : Bool)
  deriving Repr, DecidableEq

def Report.event : Report → Event
  | .start construct => .enter construct.opening
  | .finish => .leave
  | .text written | .html written | .inlineHtml written => .text written
  | .code written | .inlineMath written | .displayMath written => .code written
  | .softBreak => .softBreak
  | .hardBreak => .hardBreak
  | .rule => .rule
  | .footnote name => .text ("[^" ++ name ++ "]")
  | .task done => .text (if done then "[x] " else "[ ] ")

end DocComment.Markup
