import DocComment.Carrier
import DocComment.Collect
import DocComment.Comment.Assembly
import DocComment.Comment.Binding
import DocComment.Comment.Command
import DocComment.Comment.CommandTable
import DocComment.Comment.Compile
import DocComment.Comment.Line
import DocComment.Comment.Segment
import DocComment.Comment.Sentence
import DocComment.Config.Basic
import DocComment.Config.Files
import DocComment.Config.Options
import DocComment.Config.Read
import DocComment.Config.Write
import DocComment.Diagnostics
import DocComment.Entity.Basic
import DocComment.Entity.Fields
import DocComment.Entity.Index
import DocComment.Entity.Key
import DocComment.Entity.Sections
import DocComment.FileTree
import DocComment.Formatter
import DocComment.Glob.Basic
import DocComment.Inventory
import DocComment.Json.Basic
import DocComment.Json.Read
import DocComment.LinkTable
import DocComment.Markup.Block
import DocComment.Markup.CharacterReference
import DocComment.Markup.Emphasis
import DocComment.Markup.Event
import DocComment.Markup.Html
import DocComment.Markup.Inline
import DocComment.Markup.LineMarks
import DocComment.Markup.Link
import DocComment.Markup.Read
import DocComment.Markup.Tree
import DocComment.Markup.Write
import DocComment.Normalize
import DocComment.Pass.Anchors
import DocComment.Pass.Basic
import DocComment.Pass.Exclusion
import DocComment.Pass.Headings
import DocComment.Pass.LinkText
import DocComment.Pass.Targets
import DocComment.Path
import DocComment.Pattern.Basic
import DocComment.Pattern.Match
import DocComment.Pattern.Parse
import DocComment.Pipeline
import DocComment.Pool.Task
import DocComment.Projection
import DocComment.Proofs.Comment.LineRole
import DocComment.Proofs.Comment.Sections
import DocComment.Proofs.Comment.Segmentation
import DocComment.Proofs.Comment.Shape
import DocComment.Proofs.Entity.Sections
import DocComment.Proofs.Entity.Tree
import DocComment.Proofs.Index.Identity
import DocComment.Proofs.Markup.Tree
import DocComment.Proofs.Normalize.Grouping
import DocComment.Proofs.Normalize.Idempotence
import DocComment.Proofs.Normalize.Identity
import DocComment.Proofs.Normalize.Lookup
import DocComment.Proofs.Pass.Anchors
import DocComment.Proofs.Pass.Exclusion
import DocComment.Proofs.Pass.Headings
import DocComment.Proofs.Pass.Identity
import DocComment.Proofs.Pass.Links
import DocComment.Proofs.Pass.Members
import DocComment.Proofs.Pass.Outline
import DocComment.Proofs.Pass.Run
import DocComment.Proofs.Pass.Stability
import DocComment.Proofs.Session.Completeness
import DocComment.Proofs.Session.Lookup
import DocComment.Proofs.Session.Preservation
import DocComment.Proofs.Session.Repetition
import DocComment.Session
import DocComment.Source.Basic
import DocComment.Template.Expression
import DocComment.Template.Filter
import DocComment.Template.Operator
import DocComment.Template.Parse
import DocComment.Template.Render
import DocComment.Template.Token
import DocComment.Template.Value
import DocComment.Text.Basic
import DocComment.Text.Decimal
import DocComment.Text.Percent
import DocComment.Text.Slug
import DocComment.TextMap
import DocComment.Toml.Basic
import DocComment.Toml.Moment
import DocComment.Toml.Number
import DocComment.Toml.Read
import DocComment.Toml.Table
import DocComment.Toml.Unquoting
import DocComment.Toml.Write
import DocComment.Unicode.Case
import DocComment.Unicode.Punctuation
import DocComment.Unicode.Ranges
import DocComment.Unicode.Word
import DocComment.Url.Basic
import DocComment.Url.Host
import DocComment.Url.Parse
import DocComment.Url.Punycode
import DocComment.Pool.Workers
import DocComment.Proofs.Pool.Ledger
import DocComment.Proofs.Pool.Wakeup
import DocComment.Proofs.Pool.Progress
import DocComment.Proofs.Pool.Jobs
import DocComment.Pool.Schedule
import DocComment.Proofs.Pool.Endings
import DocComment.Proofs.Pool.Completion
import DocComment.Proofs.Session.Schedules
import DocComment.Proofs.Session.Accounting
import DocComment.Proofs.Pattern.Spots
import DocComment.Proofs.Text.Trim
import DocComment.Proofs.Unicode.Lowercase
import DocComment.Proofs.Text.Slug
import DocComment.Proofs.Comment.BlockStart
import DocComment.Proofs.Comment.Fences
import DocComment.Proofs.Markup.Escaping
import DocComment.Proofs.Markup.RoundTrip
import DocComment.Proofs.Carrier
import DocComment.Proofs.Text.Percent
import DocComment.Proofs.Text.Digits
import DocComment.Proofs.Json.RoundTrip
import DocComment.Proofs.Comment.InPlace
import DocComment.Proofs.Comment.Foreseen
import DocComment.Proofs.Template.Plain
import DocComment.Proofs.Markup.Titles
import DocComment.Proofs.Pass.Titles
import DocComment.Proofs.Markup.Containers
import DocComment.Proofs.Markup.LeafBlocks
import DocComment.Proofs.Markup.Nesting
import DocComment.Proofs.Markup.BlockLines
import DocComment.Proofs.Markup.BlockReading
import DocComment.Proofs.Markup.InlineBuilds
import DocComment.Proofs.Markup.Skeleton
import DocComment.Proofs.Comment.Binding
import DocComment.Proofs.Comment.Metadata
import DocComment.Proofs.Comment.Modules
import DocComment.Proofs.Markup.Sturdy
import DocComment.Proofs.Pass.TextInText
import DocComment.Proofs.Comment.Sentence
import DocComment.Proofs.Comment.Filing
import DocComment.Proofs.Normalize.Gathering
import DocComment.Proofs.Source.Tree
import DocComment.Proofs.Pass.Policy
import DocComment.Proofs.LinkTable.Tables
import DocComment.Proofs.LinkTable.Resolution
import DocComment.Proofs.Json.Extent
import DocComment.Proofs.Pass.Settling
import DocComment.Proofs.Pass.Retargeting
import DocComment.Proofs.Markup.HeadingLevels
import DocComment.Proofs.Pass.HeadingPlaces
import DocComment.Proofs.Template.Dialogue
import DocComment.Proofs.Formatter
import DocComment.Proofs.Comment.ListEnds
import DocComment.Proofs.Comment.ItemFences
import DocComment.Proofs.Comment.CodeBlocks
import DocComment.Proofs.Markup.KeptText
import DocComment.Proofs.Markup.LinkRoundTrip
import DocComment.Proofs.Index.Distinct
import DocComment.Proofs.Source.Names
import DocComment.Proofs.Toml.Quotes
import DocComment.Proofs.Toml.Values
import DocComment.Proofs.Toml.Tables
import DocComment.Proofs.FileTree
import DocComment.Proofs.Config.Sections
import DocComment.Proofs.Config.RoundTrip
import DocComment.Proofs.Pattern.Reading
import DocComment.Proofs.Pattern.Classes
import DocComment.Proofs.Pattern.Extension
import DocComment.Proofs.Comment.Recognition
import DocComment.Proofs.Comment.Overrides
import DocComment.Proofs.Pass.DefaultTemplates
