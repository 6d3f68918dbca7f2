import FencedCode.Command
import FencedCode.Config
import FencedCode.ContainerPrefix
import FencedCode.Diagnostic
import FencedCode.Diagnostic.Json
import FencedCode.Directive
import FencedCode.Directive.Pending
import FencedCode.Document
import FencedCode.Extraction
import FencedCode.Fence
import FencedCode.Fragment
import FencedCode.Fragment.Json
import FencedCode.Fragment.Map
import FencedCode.Fragment.Source
import FencedCode.Json
import FencedCode.Json.Reader
import FencedCode.Json.Record
import FencedCode.Json.Writer
import FencedCode.LineIndex
import FencedCode.Main
import FencedCode.Markdown.Autolink
import FencedCode.Markdown.Block
import FencedCode.Markdown.BlockStart
import FencedCode.Markdown.BlockTree
import FencedCode.Markdown.Container
import FencedCode.Markdown.Cursor
import FencedCode.Markdown.Definition
import FencedCode.Markdown.Emphasis
import FencedCode.Markdown.Entity
import FencedCode.Markdown.EntityTable
import FencedCode.Markdown.Event
import FencedCode.Markdown.Event.OfText
import FencedCode.Markdown.Html
import FencedCode.Markdown.Inline
import FencedCode.Markdown.Interrupt
import FencedCode.Markdown.Leaf
import FencedCode.Markdown.Link
import FencedCode.Markdown.OpenContainers
import FencedCode.Markdown.TableHead
import FencedCode.Markdown.Token
import FencedCode.Node
import FencedCode.Node.OfEvents
import FencedCode.Node.Place
import FencedCode.Node.Walk
import FencedCode.PathExpansion
import FencedCode.Position
import FencedCode.PositionMap
import FencedCode.Proofs.Config
import FencedCode.Proofs.ContainerPrefix
import FencedCode.Proofs.Diagnostic.Json
import FencedCode.Proofs.Directive.Grammar
import FencedCode.Proofs.Extraction.BlockComments
import FencedCode.Proofs.Extraction.Comments
import FencedCode.Proofs.Extraction.Entry
import FencedCode.Proofs.Extraction.Failures
import FencedCode.Proofs.Extraction.HostLines
import FencedCode.Proofs.Extraction.Numbering
import FencedCode.Proofs.Extraction.Outcomes
import FencedCode.Proofs.Extraction.Runs
import FencedCode.Proofs.Extraction.Selections
import FencedCode.Proofs.Fence
import FencedCode.Proofs.Fragment.CodeLines
import FencedCode.Proofs.Fragment.CodeText
import FencedCode.Proofs.Fragment.ContainerIndent
import FencedCode.Proofs.Fragment.ContentBytes
import FencedCode.Proofs.Fragment.ContentOrder
import FencedCode.Proofs.Fragment.Correspondence
import FencedCode.Proofs.Fragment.DirectiveText
import FencedCode.Proofs.Fragment.Draft
import FencedCode.Proofs.Fragment.Edit
import FencedCode.Proofs.Fragment.Errors
import FencedCode.Proofs.Fragment.Indent
import FencedCode.Proofs.Fragment.Offsets
import FencedCode.Proofs.Fragment.Slices
import FencedCode.Proofs.Fragment.Source
import FencedCode.Proofs.Fragment.Success
import FencedCode.Proofs.Json.Records
import FencedCode.Proofs.Json.Tokens
import FencedCode.Proofs.Json.Values
import FencedCode.Proofs.LineIndex.Edit
import FencedCode.Proofs.LineIndex.Lines
import FencedCode.Proofs.LineIndex.Offsets
import FencedCode.Proofs.LineIndex.Partition
import FencedCode.Proofs.LineIndex.Places
import FencedCode.Proofs.Markdown.Blocks
import FencedCode.Proofs.Markdown.Cursors
import FencedCode.Proofs.Markdown.Fenced
import FencedCode.Proofs.Markdown.FencedLines
import FencedCode.Proofs.Markdown.Inlines
import FencedCode.Proofs.Markdown.Readers
import FencedCode.Proofs.Node.Events
import FencedCode.Proofs.Node.Fenced
import FencedCode.Proofs.Node.FencedPlace
import FencedCode.Proofs.Node.Place
import FencedCode.Proofs.Node.Trees
import FencedCode.Proofs.Node.Walk
import FencedCode.Proofs.Outcome
import FencedCode.Proofs.PositionMap.Lookup
import FencedCode.Proofs.PositionMap.Offers
import FencedCode.Proofs.PositionMap.Refusals
import FencedCode.Proofs.PositionMap.Stretches
import FencedCode.Proofs.Registry.Changes
import FencedCode.Proofs.Registry.Entries
import FencedCode.Proofs.Registry.History
import FencedCode.Proofs.Relocation.ByIdentity
import FencedCode.Proofs.Relocation.Edits
import FencedCode.Proofs.Relocation.Ends
import FencedCode.Proofs.Relocation.Fixes
import FencedCode.Proofs.Relocation.Outcomes
import FencedCode.Proofs.Text.Blank
import FencedCode.Proofs.Text.Bytes
import FencedCode.Proofs.Text.Lines
import FencedCode.Proofs.Toml.Documents
import FencedCode.Proofs.Toml.Strings
import FencedCode.Reading
import FencedCode.Registry
import FencedCode.Relocation
import FencedCode.Text.Alphabetic
import FencedCode.Text.Blank
import FencedCode.Text.Bytes
import FencedCode.Text.CaseFold
import FencedCode.Text.Lines
import FencedCode.Text.Number
import FencedCode.Text.Numeral
import FencedCode.Text.Punctuation
import FencedCode.Text.Word
import FencedCode.Toml
import FencedCode.Toml.Quoted
import FencedCode.Toml.Reader
import FencedCode.Toml.Scalar
import FencedCode.Toml.Table
import FencedCode.Toml.Writer
import FencedCode.Word
