import GraphPattern.Error
import GraphPattern.OrderedMap
import GraphPattern.Collection
import GraphPattern.Pattern.Effective
import GraphPattern.Pattern.Pass
import GraphPattern.Builder.Call
import GraphPattern.Config
import GraphPattern.Pattern.Isomorphism
import GraphPattern.Query
import GraphPattern.Shorthand
import GraphPattern.Shorthand.Lexeme
import GraphPattern.Pattern.Substitution
import GraphPattern.Text.Alphabetic
import GraphPattern.Text.CodeRanges
import GraphPattern.Text.DefaultIgnorable
import GraphPattern.Text.GraphemeExtend
import GraphPattern.Text.Numeric
import GraphPattern.Text.Offset
import GraphPattern.Text.Printable
import GraphPattern.Text.Quoted
import GraphPattern.Text.Whitespace
import GraphPattern.Proofs.Steps
import GraphPattern.Proofs.OrderedMap
import GraphPattern.Proofs.Prefixes
import GraphPattern.Proofs.Collection
import GraphPattern.Proofs.Labels
import GraphPattern.Proofs.Allocation
import GraphPattern.Proofs.SharedCounter
import GraphPattern.Proofs.Listing
import GraphPattern.Proofs.Pattern.SlotMap
import GraphPattern.Proofs.Pattern.Collapse
import GraphPattern.Proofs.Pattern.Growth
import GraphPattern.Proofs.Pattern.Pass
import GraphPattern.Proofs.Pattern.Substitution
import GraphPattern.Proofs.Pattern.SubstitutionCount
import GraphPattern.Proofs.Pattern.FoundValue
import GraphPattern.Proofs.Shorthand.Kinds
import GraphPattern.Proofs.Shorthand.Spelling
import GraphPattern.Proofs.Shorthand.Plain
import GraphPattern.Proofs.Shorthand.Levels
import GraphPattern.Proofs.Shorthand.Grammar
import GraphPattern.Proofs.Shorthand.Yields
import GraphPattern.Proofs.Shorthand.Open
import GraphPattern.Proofs.Shorthand.Lexing
import GraphPattern.Proofs.Shorthand.Bare
import GraphPattern.Proofs.Shorthand.Rendering
import GraphPattern.Proofs.Shorthand.Reading
import GraphPattern.Proofs.Shorthand.Recognition
import GraphPattern.Proofs.Shorthand.Readable
import GraphPattern.Proofs.Shorthand.RoundTrip
import GraphPattern.Proofs.Shorthand.Sound
import GraphPattern.Proofs.Shorthand.Respelling
import GraphPattern.Proofs.Shorthand.Garbling
import GraphPattern.Proofs.Shorthand.Terms
import GraphPattern.Proofs.Shorthand.Jamming
import GraphPattern.Proofs.Shorthand.Reprinting
import GraphPattern.Proofs.Shorthand.Slices
import GraphPattern.Proofs.Shorthand.Tiling
import GraphPattern.Proofs.Shorthand.Spacing
import GraphPattern.Proofs.Shorthand.Pointing
import GraphPattern.Proofs.Builder.Argument
import GraphPattern.Proofs.Builder.Session
import GraphPattern.Proofs.Builder.Outcome
import GraphPattern.Proofs.Builder.Resolution
import GraphPattern.Proofs.Builder.Emission
import GraphPattern.Proofs.Pattern.Relabel
import GraphPattern.Proofs.Pattern.Normal
import GraphPattern.Proofs.Pattern.Isomorphism
import GraphPattern.Proofs.Pattern.Effective
import GraphPattern.Proofs.Pattern.Shape
import GraphPattern.Proofs.Path
import GraphPattern.Proofs.Shorthand.PathGrammar
import GraphPattern.Proofs.Shorthand.Paths
import GraphPattern.Proofs.Pattern.Runs
import GraphPattern.Proofs.Pattern.Disjoint
import GraphPattern.Proofs.Builder.Failure
import GraphPattern.Proofs.Builder.Attachment
import GraphPattern.Proofs.Builder.Freshness
import GraphPattern.Proofs.Builder.Commutation
import GraphPattern.Proofs.Builder.Computed
import GraphPattern.Proofs.Builder.Projection
import GraphPattern.Proofs.Builder.Merging
import GraphPattern.Proofs.Builder.Shape
import GraphPattern.Proofs.Pattern.Blocks
import GraphPattern.Proofs.Layout.Terms
import GraphPattern.Proofs.Layout.Operands
import GraphPattern.Proofs.Layout.Expressions
import GraphPattern.Proofs.Layout.Parts
import GraphPattern.Proofs.Layout.Lines
import GraphPattern.Proofs.Layout.Patterns
import GraphPattern.Proofs.Layout.Breaks
