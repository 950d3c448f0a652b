import ApiPages.Catalog.Basic
import ApiPages.Catalog.Category
import ApiPages.Command.Arguments
import ApiPages.Command.Files
import ApiPages.Command.Listing
import ApiPages.Command.Path
import ApiPages.Command.Run
import ApiPages.Command.Workspace
import ApiPages.Comment.Basic
import ApiPages.Comment.Callout
import ApiPages.Comment.Reader
import ApiPages.Declaration.Access
import ApiPages.Declaration.Basic
import ApiPages.Declaration.Kind
import ApiPages.Declaration.Merge
import ApiPages.Declaration.Structure
import ApiPages.Declaration.Visibility
import ApiPages.Documents
import ApiPages.Inventory.Basic
import ApiPages.Inventory.Record
import ApiPages.Json.Basic
import ApiPages.Json.Numeral
import ApiPages.Json.Reader
import ApiPages.Main
import ApiPages.Page.Anchor
import ApiPages.Page.Block
import ApiPages.Page.Footer
import ApiPages.Page.Heading
import ApiPages.Page.Index
import ApiPages.Page.Link
import ApiPages.Page.Path
import ApiPages.Page.Readme
import ApiPages.Page.Writer
import ApiPages.Settings.Basic
import ApiPages.Settings.File
import ApiPages.Settings.Reader
import ApiPages.Text.Blank
import ApiPages.Text.CodePoints
import ApiPages.Text.Fence
import ApiPages.Text.Hex
import ApiPages.Text.Letters
import ApiPages.Text.Lines
import ApiPages.Text.Percent
import ApiPages.Proofs.Catalog.Distinct
import ApiPages.Proofs.Catalog.Entries
import ApiPages.Proofs.Catalog.ExtensionMembers
import ApiPages.Proofs.Catalog.Group
import ApiPages.Proofs.Catalog.LastOfName
import ApiPages.Proofs.Catalog.Rivals
import ApiPages.Proofs.Command.CleanRun
import ApiPages.Proofs.Command.Containment
import ApiPages.Proofs.Command.Delivery
import ApiPages.Proofs.Command.Hindrance
import ApiPages.Proofs.Command.LinkEnding
import ApiPages.Proofs.Command.PagePlaces
import ApiPages.Proofs.Command.Paths
import ApiPages.Proofs.Command.Places
import ApiPages.Proofs.Command.Plan
import ApiPages.Proofs.Command.Removal
import ApiPages.Proofs.Command.Repetition
import ApiPages.Proofs.Command.Writing
import ApiPages.Proofs.Comment.CalloutLine
import ApiPages.Proofs.Comment.Code
import ApiPages.Proofs.Comment.KeptText
import ApiPages.Proofs.Comment.Markup
import ApiPages.Proofs.Comment.OpenList
import ApiPages.Proofs.Comment.Reading
import ApiPages.Proofs.Comment.Spellings
import ApiPages.Proofs.Comment.WellFormed
import ApiPages.Proofs.Declaration.Nodes
import ApiPages.Proofs.Declaration.Placement
import ApiPages.Proofs.Declaration.Position
import ApiPages.Proofs.Declaration.Pruned
import ApiPages.Proofs.Declaration.Thinned
import ApiPages.Proofs.Declaration.Visible
import ApiPages.Proofs.Declaration.Walk
import ApiPages.Proofs.Documents.CollapsedAnchors
import ApiPages.Proofs.Documents.ContentsList
import ApiPages.Proofs.Documents.DocumentSet
import ApiPages.Proofs.Documents.HiddenLeaves
import ApiPages.Proofs.Documents.InputOrder
import ApiPages.Proofs.Documents.LinkTargets
import ApiPages.Proofs.Documents.Lookup
import ApiPages.Proofs.Documents.Ordered
import ApiPages.Proofs.Documents.Outlines
import ApiPages.Proofs.Documents.PageLookup
import ApiPages.Proofs.Documents.Pages
import ApiPages.Proofs.Documents.SwappedExtensions
import ApiPages.Proofs.Documents.Widening
import ApiPages.Proofs.Inventory.Accepted
import ApiPages.Proofs.Inventory.ExternalVisibility
import ApiPages.Proofs.Inventory.Faults
import ApiPages.Proofs.Inventory.FirstFault
import ApiPages.Proofs.Inventory.ImpliedAccess
import ApiPages.Proofs.Inventory.RecordPath
import ApiPages.Proofs.Merge.Completeness
import ApiPages.Proofs.Merge.Conservation
import ApiPages.Proofs.Merge.Everywhere
import ApiPages.Proofs.Merge.External
import ApiPages.Proofs.Merge.FullNames
import ApiPages.Proofs.Merge.Growth
import ApiPages.Proofs.Merge.InputOrder
import ApiPages.Proofs.Merge.Kept
import ApiPages.Proofs.Merge.Placement
import ApiPages.Proofs.Merge.Pruned
import ApiPages.Proofs.Merge.QualifiedNames
import ApiPages.Proofs.Merge.Steps
import ApiPages.Proofs.Merge.Swapped
import ApiPages.Proofs.Merge.Targets
import ApiPages.Proofs.Merge.Types
import ApiPages.Proofs.Page.Anchors
import ApiPages.Proofs.Page.Assembly
import ApiPages.Proofs.Page.CodeSpans
import ApiPages.Proofs.Page.LinkedSpans
import ApiPages.Proofs.Page.Links
import ApiPages.Proofs.Page.Outline
import ApiPages.Proofs.Page.PageOutline
import ApiPages.Proofs.Page.Paths
import ApiPages.Proofs.Page.Plain
import ApiPages.Proofs.Page.Relinking
import ApiPages.Proofs.Page.RepeatedHeadings
import ApiPages.Proofs.Page.Resolution
import ApiPages.Proofs.Page.SafeBlocks
import ApiPages.Proofs.Page.SharedDocument
import ApiPages.Proofs.Page.Supertypes
import ApiPages.Proofs.Page.TopAnchors
import ApiPages.Proofs.Page.TreeOutline
import ApiPages.Proofs.Text.ByteOrder
import ApiPages.Proofs.Text.CodeLines
import ApiPages.Proofs.Text.FencedBlocks
import ApiPages.Proofs.Text.FileName
import ApiPages.Proofs.Text.Marks
import ApiPages.Proofs.Text.Ordered
import ApiPages.Proofs.Text.Pieces
import ApiPages.Proofs.Text.Trimmed
import ApiPages.Proofs.Text.Unescape
import ApiPages.Proofs.Merge.StandingTargets
import ApiPages.Proofs.Documents.MemberFolds
import ApiPages.Proofs.Documents.ReadmeLists
