import DocComment.Pass.Basic
import DocComment.Pattern.Match
import DocComment.Pattern.Parse

/-! Excluding entities by pattern, by access, and for want of a comment. A top-level entity stays with
its mode set; nested documentation is removed. -/
namespace DocComment

structure ExclusionOptions where
  /-- Patterns for qualified names and names of modules. -/
  patterns : List Pattern.Regex := []
  excludePrivate : Bool := true
  excludeUncommented : Bool := false

namespace Exclusion

def matchesName (options : ExclusionOptions) (name : String) : Bool :=
  options.patterns.any fun pattern => pattern.occursIn name.toList

/-- A declaration is excluded with any of its scopes. -/
def excludesDeclaration (source : SourceTree) (options : ExclusionOptions) (id : DeclId) : Bool :=
  (source.scopes id).any fun scope =>
    (options.excludePrivate && source.access scope == .private_) ||
      matchesName options (source.qualifiedName scope)

def excludesByMode (options : ExclusionOptions) : ExcludeMode → Bool
  | .exclude => true
  | .uncommented => options.excludeUncommented
  | _ => false

def excludes (source : SourceTree) (options : ExclusionOptions) (entity : Entity) : Bool :=
  match entity.fields? with
  | none => false
  | some fields =>
    excludesByMode options fields.excludeMode ||
      match entity with
      | .node (.declaration id ..) _ => excludesDeclaration source options id
      | .node (.moduleDoc name ..) _ => matchesName options name
      | _ => false

mutual

/-- Removes what is excluded below an entity. -/
def prune (source : SourceTree) (options : ExclusionOptions) : Entity → Entity
  | .leaf content => .leaf content
  | .node tag children => .node tag (pruneAll source options children)

def pruneAll (source : SourceTree) (options : ExclusionOptions) : List Entity → List Entity
  | [] => []
  | entity :: rest =>
    if excludes source options entity then pruneAll source options rest
    else prune source options entity :: pruneAll source options rest

end

def setExcluded (entity : Entity) : Entity :=
  entity.mapFields fun fields => { fields with excludeMode := .exclude }

/-- A group is excluded once it has no member left. -/
def apply (source : SourceTree) (options : ExclusionOptions) (entity : Entity) : Entity :=
  match entity with
  | .node (.group name id fields) children =>
    match children.filter fun member => !excludes source options member with
    | [] => setExcluded (.node (.group name id fields) [])
    | kept => prune source options (.node (.group name id fields) kept)
  | other => if excludes source options other then setExcluded other else prune source options other

def pass (source : SourceTree) (options : ExclusionOptions) : Pass :=
  ⟨"filter", fun _ entity => { entity := apply source options entity }⟩

end Exclusion

end DocComment
