import DeclOutline.Access.KeywordTable
import DeclOutline.Access.Level
import DeclOutline.ByteSpan
import DeclOutline.Declaration
import DeclOutline.Excerpt
import DeclOutline.Expectation
import DeclOutline.Extent
import DeclOutline.Json.Basic
import DeclOutline.Lexeme
import DeclOutline.Location
import DeclOutline.Nesting
import DeclOutline.Notice
import DeclOutline.Outline
import DeclOutline.Overflow
import DeclOutline.ParameterList.Basic
import DeclOutline.ParameterList.FullType
import DeclOutline.ParameterList.Queries
import DeclOutline.Profile.Basic
import DeclOutline.Profile.Document
import DeclOutline.Release
import DeclOutline.Role
import DeclOutline.Sample
import DeclOutline.Summary.Basic
import DeclOutline.Summary.Json
import DeclOutline.TaggedText.Basic
import DeclOutline.TaggedText.Builder
import DeclOutline.TaggedText.Edit
import DeclOutline.Text.Blank
import DeclOutline.Text.CaseData
import DeclOutline.Text.Lowercase
import DeclOutline.Text.Numeral
import DeclOutline.Text.PrintableData
import DeclOutline.Text.Quoted
import DeclOutline.Toml.Node
import DeclOutline.Toml.Numbers
import DeclOutline.Toml.Reader
import DeclOutline.Toml.Strings
import DeclOutline.Toml.Writer
import DeclOutline.Verbosity
import DeclOutline.WordMap
import DeclOutline.Proofs.Sectioning
import DeclOutline.Proofs.Cutting
import DeclOutline.Proofs.Containment
import DeclOutline.Proofs.Transport
import DeclOutline.Proofs.Answers
import DeclOutline.Proofs.Layout
import DeclOutline.Proofs.Passages
import DeclOutline.Proofs.Placement
import DeclOutline.Proofs.Lexing
import DeclOutline.Proofs.Moving
import DeclOutline.Proofs.Composition
import DeclOutline.Proofs.Readings
import DeclOutline.Proofs.Signatures
import DeclOutline.Proofs.RoundTrip
import DeclOutline.Proofs.Heads
import DeclOutline.Proofs.Keywords
import DeclOutline.Proofs.Lines
import DeclOutline.Proofs.Relexing
import DeclOutline.Proofs.Quoting
import DeclOutline.Proofs.Rendering
import DeclOutline.Proofs.Grouping
import DeclOutline.Proofs.Stitching
import DeclOutline.Proofs.FirstRuns
import DeclOutline.Proofs.BaseTypes
import DeclOutline.Proofs.ImpliedTypes
import DeclOutline.Proofs.InheritedTypes
import DeclOutline.Proofs.Seams
import DeclOutline.Proofs.Stretches
import DeclOutline.Proofs.Flags
import DeclOutline.Proofs.InnerLists
import DeclOutline.Proofs.Stripping
import DeclOutline.Proofs.Detaching
import DeclOutline.Proofs.Columns
import DeclOutline.Proofs.ByteOrder
import DeclOutline.Proofs.FirstFaults
import DeclOutline.Proofs.LetterCase
import DeclOutline.Proofs.Lookups
import DeclOutline.Proofs.CaseVariants
import DeclOutline.Proofs.Depths
import DeclOutline.Proofs.Checks
import DeclOutline.Proofs.Printing
import DeclOutline.Proofs.Documents
