import ApiDoc.Checker.Basic
import ApiDoc.Checker.Flags
import ApiDoc.Checker.SyntaxKind
import ApiDoc.Comment.Block
import ApiDoc.Comment.Locator
import ApiDoc.Comment.Range
import ApiDoc.Config
import ApiDoc.Config.Reader
import ApiDoc.Doc.Documentation
import ApiDoc.Doc.FileFacts
import ApiDoc.Doc.NamedTexts
import ApiDoc.Doc.ParamTag
import ApiDoc.Doc.TagFacts
import ApiDoc.Doc.Visibility
import ApiDoc.Error
import ApiDoc.Json.Decode
import ApiDoc.Json.Printer
import ApiDoc.Json.Reader
import ApiDoc.Json.Value
import ApiDoc.Model.Arena
import ApiDoc.Model.EnumValue
import ApiDoc.Model.Member
import ApiDoc.Model.Project
import ApiDoc.Model.Sharing
import ApiDoc.Model.TypeNode
import ApiDoc.Number.Binary64
import ApiDoc.Number.Layout
import ApiDoc.Number.Reader
import ApiDoc.Number.Shortest
import ApiDoc.Program.Builder
import ApiDoc.Program.Step
import ApiDoc.Program.Tables
import ApiDoc.Proofs.Backfill
import ApiDoc.Proofs.Backfill.Containers
import ApiDoc.Proofs.Backfill.Lockstep
import ApiDoc.Proofs.Backfill.Members
import ApiDoc.Proofs.Backfill.Texts
import ApiDoc.Proofs.Backfill.Twins
import ApiDoc.Proofs.Backfill.Types
import ApiDoc.Proofs.Bounds
import ApiDoc.Proofs.ClassProperties
import ApiDoc.Proofs.Comment.Layout
import ApiDoc.Proofs.Comment.Leading
import ApiDoc.Proofs.Comment.Readers
import ApiDoc.Proofs.Comment.Sequence
import ApiDoc.Proofs.Comment.Tags
import ApiDoc.Proofs.Completion
import ApiDoc.Proofs.Contents.Containers
import ApiDoc.Proofs.Contents.Fields
import ApiDoc.Proofs.Contents.Members
import ApiDoc.Proofs.Contents.Methods
import ApiDoc.Proofs.Contents.Overloads
import ApiDoc.Proofs.Contents.Ranges
import ApiDoc.Proofs.Contents.Safe
import ApiDoc.Proofs.Contents.Tidy
import ApiDoc.Proofs.Contents.Types
import ApiDoc.Proofs.Failure.Inquiry
import ApiDoc.Proofs.Failure.Knowledge
import ApiDoc.Proofs.Failure.Leftovers
import ApiDoc.Proofs.Failure.Members
import ApiDoc.Proofs.Failure.Refusals
import ApiDoc.Proofs.Failure.Scripts
import ApiDoc.Proofs.Gaps
import ApiDoc.Proofs.Inheritance
import ApiDoc.Proofs.Interrupted
import ApiDoc.Proofs.Memos
import ApiDoc.Proofs.Origin.Containers
import ApiDoc.Proofs.Origin.Continuing
import ApiDoc.Proofs.Origin.Members
import ApiDoc.Proofs.Origin.Methods
import ApiDoc.Proofs.Origin.Retelling
import ApiDoc.Proofs.Origin.Trace
import ApiDoc.Proofs.Origin.Types
import ApiDoc.Proofs.OverloadSets
import ApiDoc.Proofs.Overriding
import ApiDoc.Proofs.Ownership
import ApiDoc.Proofs.Program.Declarations
import ApiDoc.Proofs.Program.Edits
import ApiDoc.Proofs.Program.EnumMembers
import ApiDoc.Proofs.Program.Enums
import ApiDoc.Proofs.Program.Outline
import ApiDoc.Proofs.Program.Placement
import ApiDoc.Proofs.Program.Properties
import ApiDoc.Proofs.Program.WellFormed
import ApiDoc.Proofs.References
import ApiDoc.Proofs.Render.Alike
import ApiDoc.Proofs.Render.Discretion
import ApiDoc.Proofs.Render.Equality
import ApiDoc.Proofs.Render.Expansion
import ApiDoc.Proofs.Render.Guards
import ApiDoc.Proofs.Render.Hidden
import ApiDoc.Proofs.Render.Reading
import ApiDoc.Proofs.Render.Revealing
import ApiDoc.Proofs.Render.Settled
import ApiDoc.Proofs.Render.Shapes
import ApiDoc.Proofs.Render.Stacks
import ApiDoc.Proofs.Render.Texts
import ApiDoc.Proofs.Render.TreeText
import ApiDoc.Proofs.Render.Trees
import ApiDoc.Proofs.Render.Unfolding
import ApiDoc.Proofs.Run.Answers
import ApiDoc.Proofs.Run.Containers
import ApiDoc.Proofs.Run.Depiction
import ApiDoc.Proofs.Run.Exec
import ApiDoc.Proofs.Run.Machine
import ApiDoc.Proofs.Run.Members
import ApiDoc.Proofs.Run.Memory
import ApiDoc.Proofs.Run.Mentions
import ApiDoc.Proofs.Run.Methods
import ApiDoc.Proofs.Run.Queries
import ApiDoc.Proofs.Run.Requests
import ApiDoc.Proofs.Run.Sound
import ApiDoc.Proofs.Run.Types
import ApiDoc.Proofs.Sharing
import ApiDoc.Proofs.Source
import ApiDoc.Proofs.Termination
import ApiDoc.Proofs.TypeImage
import ApiDoc.Render.Tree
import ApiDoc.Render.TypeText
import ApiDoc.Resolve.Containers
import ApiDoc.Resolve.Fields
import ApiDoc.Resolve.Files
import ApiDoc.Resolve.Members
import ApiDoc.Resolve.Methods
import ApiDoc.Resolve.Session
import ApiDoc.Resolve.Source
import ApiDoc.Resolve.Types
import ApiDoc.Text.Blank
import ApiDoc.Text.Fill
import ApiDoc.Text.Lines
import ApiDoc.Text.Position
import ApiDoc.Text.Quoted
import ApiDoc.Text.Utf8
import ApiDoc.Text.Visible
import ApiDoc.Text.Word
import ApiDoc.Proofs.Doc.Chains
import ApiDoc.Proofs.Doc.Folding
import ApiDoc.Proofs.EnumLiterals
import ApiDoc.Proofs.EnumTypes
import ApiDoc.Proofs.Doc.ParamSpellings
import ApiDoc.Proofs.Numerals
import ApiDoc.Proofs.TypeParameters
import ApiDoc.Proofs.Positions
import ApiDoc.Proofs.Json.RoundTrip
import ApiDoc.Proofs.Json.Records
import ApiDoc.Proofs.Json.Flattening
import ApiDoc.Proofs.Program.Frames
import ApiDoc.Proofs.Program.Growth
import ApiDoc.Proofs.Program.Making
import ApiDoc.Proofs.Program.Written
import ApiDoc.Proofs.Program.Threading
import ApiDoc.Proofs.Program.Places
