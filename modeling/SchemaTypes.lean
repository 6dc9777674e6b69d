import SchemaTypes.Command.Arguments
import SchemaTypes.Command.Execution
import SchemaTypes.Comment
import SchemaTypes.Config
import SchemaTypes.Declaration.Block
import SchemaTypes.Declaration.Emit
import SchemaTypes.Declaration.Environment
import SchemaTypes.Declaration.TypeExpression
import SchemaTypes.DocTable.Basic
import SchemaTypes.DocTable.Correlator
import SchemaTypes.DocTable.Directory
import SchemaTypes.DocTable.Likelihood
import SchemaTypes.DocTable.Markdown
import SchemaTypes.Entries
import SchemaTypes.FileTree
import SchemaTypes.Generation
import SchemaTypes.Identifier.Basic
import SchemaTypes.Identifier.Initialism
import SchemaTypes.Identifier.Word
import SchemaTypes.Json.Basic
import SchemaTypes.Json.Literal
import SchemaTypes.Json.Mismatch
import SchemaTypes.Json.Parser
import SchemaTypes.Json.Writer
import SchemaTypes.Log
import SchemaTypes.Main
import SchemaTypes.Number.Binary64
import SchemaTypes.Number.Fixed
import SchemaTypes.Number.Shortest
import SchemaTypes.Path
import SchemaTypes.Run.Act
import SchemaTypes.Run.Issue
import SchemaTypes.Run.Schedule
import SchemaTypes.Run.State
import SchemaTypes.Schema.Basic
import SchemaTypes.Schema.Canonical
import SchemaTypes.Schema.Document
import SchemaTypes.Schema.Loader
import SchemaTypes.Schema.PrimaryType
import SchemaTypes.Snowflake.Curated
import SchemaTypes.Snowflake.Table
import SchemaTypes.Text.Affix
import SchemaTypes.Text.Blank
import SchemaTypes.Text.CaseTable
import SchemaTypes.Text.CommonStretch
import SchemaTypes.Text.ControlSequence
import SchemaTypes.Text.Diff
import SchemaTypes.Text.Digest
import SchemaTypes.Text.EditDistance
import SchemaTypes.Text.Hex
import SchemaTypes.Text.Letter
import SchemaTypes.Text.LetterTable
import SchemaTypes.Text.Lines
import SchemaTypes.Text.Order
import SchemaTypes.Text.PrintableTable
import SchemaTypes.Text.Quoted
import SchemaTypes.Text.Ranges
import SchemaTypes.Text.Resemblance
import SchemaTypes.Text.Wrap
import SchemaTypes.Proofs.Emission.Closure
import SchemaTypes.Proofs.Emission.Isolation
import SchemaTypes.Proofs.Emission.Tellings
import SchemaTypes.Proofs.Run.Collection
import SchemaTypes.Proofs.Run.Performance
import SchemaTypes.Proofs.Schema.Leading
import SchemaTypes.Proofs.Schema.Nesting
import SchemaTypes.Proofs.Text.Order
import SchemaTypes.Proofs.Run.Order
import SchemaTypes.Proofs.Run.Schedule
import SchemaTypes.Proofs.Generation.Steps
import SchemaTypes.Proofs.Generation.Course
import SchemaTypes.Proofs.Generation.Account
import SchemaTypes.Proofs.Generation.Blocks
import SchemaTypes.Proofs.Generation.Orders
import SchemaTypes.Proofs.Generation.Mentions
import SchemaTypes.Proofs.Schema.Numbering
import SchemaTypes.Proofs.Emission.Agreement
import SchemaTypes.Proofs.Schema.Catalogue
import SchemaTypes.Proofs.Generation.Reordering
import SchemaTypes.Proofs.Text.Remarks
import SchemaTypes.Proofs.Schema.Textual
import SchemaTypes.Proofs.DocTable.Textual
import SchemaTypes.Proofs.Emission.Reliable
import SchemaTypes.Proofs.Emission.Commenting
import SchemaTypes.Proofs.Schema.WellTyped
import SchemaTypes.Proofs.Emission.Completion
import SchemaTypes.Proofs.Settings
import SchemaTypes.Proofs.Generation.Totality
import SchemaTypes.Proofs.DocTable.History
import SchemaTypes.Proofs.Identifier.Letters
import SchemaTypes.Proofs.Identifier.PathNames
import SchemaTypes.Proofs.Emission.Places
import SchemaTypes.Proofs.Emission.Hoisting
import SchemaTypes.Proofs.Emission.Aliases
import SchemaTypes.Proofs.Generation.Collisions
import SchemaTypes.Proofs.Schema.Rereading
import SchemaTypes.Proofs.Number.Shortest
import SchemaTypes.Proofs.Number.Text
import SchemaTypes.Proofs.Json.Decoded
import SchemaTypes.Proofs.Json.Strings
import SchemaTypes.Proofs.Json.Canonical
import SchemaTypes.Proofs.Schema.Shape
import SchemaTypes.Proofs.Emission.Outputs
import SchemaTypes.Proofs.Snowflake.Guesses
import SchemaTypes.Proofs.Snowflake.CatchAlls
import SchemaTypes.Proofs.Emission.Pointers
import SchemaTypes.Proofs.Emission.Variants
import SchemaTypes.Proofs.Emission.VariantDeclarations
import SchemaTypes.Proofs.Generation.Ignoring
import SchemaTypes.Proofs.Identifier.Likeness
import SchemaTypes.Proofs.Generation.Trimming
import SchemaTypes.Proofs.FileTree
import SchemaTypes.Proofs.Command.Execution
import SchemaTypes.Proofs.Text.Stretches
import SchemaTypes.Proofs.Text.Sentences
import SchemaTypes.Proofs.Emission.Wording
import SchemaTypes.Proofs.Emission.Fields
import SchemaTypes.Proofs.Emission.Constants
import SchemaTypes.Proofs.Emission.Packages
import SchemaTypes.Proofs.Emission.Requirements
import SchemaTypes.Proofs.Emission.Memory
import SchemaTypes.Proofs.Generation.Imports
import SchemaTypes.Proofs.Text.Brackets
import SchemaTypes.Proofs.Json.Brackets
import SchemaTypes.Proofs.Schema.Keeping
import SchemaTypes.Proofs.Emission.Brackets
import SchemaTypes.Proofs.Generation.Brackets
import SchemaTypes.Proofs.Identifier.Exporting
import SchemaTypes.Proofs.Schema.Dereferencing
import SchemaTypes.Proofs.Schema.Respelling
import SchemaTypes.Proofs.Schema.Succession
import SchemaTypes.Proofs.Identifier.Scanning
import SchemaTypes.Proofs.Identifier.Spelling
import SchemaTypes.Proofs.Identifier.Reconversion
import SchemaTypes.Proofs.Identifier.SyntheticSteps
import SchemaTypes.Proofs.Text.Blanks
import SchemaTypes.Proofs.Text.Boundaries
import SchemaTypes.Proofs.Text.Filling
import SchemaTypes.Proofs.Comment.Layout
import SchemaTypes.Proofs.Comment.Description
import SchemaTypes.Proofs.DocTable.Lines
import SchemaTypes.Proofs.DocTable.Sections
import SchemaTypes.Proofs.DocTable.Rows
import SchemaTypes.Proofs.DocTable.Passages
import SchemaTypes.Proofs.DocTable.Rendering
import SchemaTypes.Proofs.DocTable.Ranking
import SchemaTypes.Proofs.Text.EditDistance
import SchemaTypes.Proofs.DocTable.Likelihood
import SchemaTypes.Proofs.Run.Registry
import SchemaTypes.Proofs.Generation.Tasks
import SchemaTypes.Proofs.Text.CommentEnds
import SchemaTypes.Proofs.Text.Literals
import SchemaTypes.Proofs.Emission.Tags
import SchemaTypes.Proofs.Emission.TextConstants
import SchemaTypes.Proofs.Emission.Placeholders
import SchemaTypes.Proofs.Settings.Keys
import SchemaTypes.Proofs.Command.Arguments
import SchemaTypes.Proofs.Command.Independence
