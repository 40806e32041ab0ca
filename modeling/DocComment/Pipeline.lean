import DocComment.Pass.Anchors
import DocComment.Pass.Exclusion
import DocComment.Pass.LinkText
import DocComment.Pass.Targets

namespace DocComment

structure Templates where
  heading : HeadingTemplates := {}
  link : LinkTemplates := {}
  deriving Repr, DecidableEq

structure PipelineOptions where
  exclusion : ExclusionOptions := {}
  templates : Templates := {}
  inventories : List Inventory := []

namespace Pipeline

def exclusion (synthesis : Synthesis) (options : PipelineOptions) : Pass :=
  Exclusion.pass synthesis.source options.exclusion

def headings (synthesis : Synthesis) (options : PipelineOptions) : Pass :=
  Headings.pass synthesis options.templates.heading

def linkText (synthesis : Synthesis) (options : PipelineOptions) : Pass :=
  LinkText.pass synthesis options.templates.link

/-- The passes in the order in which they run. -/
def passes (synthesis : Synthesis) (options : PipelineOptions) (order : SetOrder := .arrival) :
    List Pass :=
  [exclusion synthesis options, headings synthesis options, Anchors.pass,
   Targets.internalPass synthesis.source order, Targets.externalPass synthesis.source options.inventories,
   linkText synthesis options]

/-- Runs passes one after the other and adds up the failures. -/
def runAll (source : SourceTree) (pool : Pool) (index : Index) (diagnostics : Diagnostics)
    (passes : List Pass) : Index × Diagnostics × Nat :=
  passes.foldl (fun (index, diagnostics, failed) pass =>
    let (index, diagnostics, more) := pass.run source pool index diagnostics
    (index, diagnostics, failed + more)) (index, diagnostics, 0)

/-- Runs every pass. Also gives the number of failures. -/
def transform (synthesis : Synthesis) (options : PipelineOptions) (pool : Pool) (index : Index)
    (diagnostics : Diagnostics) (order : SetOrder := .arrival) : Index × Diagnostics × Nat :=
  runAll synthesis.source pool index diagnostics (passes synthesis options order)

end Pipeline

end DocComment
