import Signatures.Main
import Signatures.Codec.Catalog
import Signatures.Proofs.Shape.Viable
import Signatures.Proofs.Lexeme.Spelling
import Signatures.Proofs.Catalog.Reachable
import Signatures.Proofs.Signature.WellFormed
import Signatures.Proofs.Signature.Rendering
import Signatures.Proofs.Signature.Parsing
import Signatures.Proofs.Signature.RoundTrip
import Signatures.Proofs.Signature.Acceptance
import Signatures.Proofs.Signature.FirstFault
import Signatures.Proofs.Signature.Agreement
import Signatures.Proofs.Signature.ErrorSpan
import Signatures.Proofs.Text.Lines
import Signatures.Proofs.ArgType.Rule
import Signatures.Proofs.ArgType.Resolving
import Signatures.Proofs.ArgType.FirstOffence
import Signatures.Proofs.ArgType.WellFormed
import Signatures.Proofs.ArgType.RoundTrip
import Signatures.Proofs.Listing.Errors
import Signatures.Proofs.Listing.Duplicates
import Signatures.Proofs.Catalog.Extending
import Signatures.Proofs.Catalog.History
import Signatures.Proofs.Lexeme.Layout
import Signatures.Proofs.Text.LineRanges
import Signatures.Proofs.Diagnostic.InBounds
import Signatures.Proofs.Lexeme.Run
import Signatures.Proofs.Lexeme.RunFault
import Signatures.Proofs.Signature.SameTokens
import Signatures.Proofs.Signature.Composition
import Signatures.Proofs.ArgType.Wildcard
import Signatures.Proofs.Signature.OversizedLiteral
import Signatures.Proofs.Shape.Brackets
import Signatures.Proofs.Signature.BracketHint
import Signatures.Proofs.Diagnostic.Underline
import Signatures.Proofs.Listing.Concatenation
import Signatures.Proofs.Listing.LineEnds
import Signatures.Proofs.ArgType.Nullability
import Signatures.Proofs.Signature.FreeNames
import Signatures.Proofs.Catalog.Extensions
import Signatures.Proofs.Text.Coordinates
import Signatures.Proofs.Diagnostic.Snippet
import Signatures.Proofs.CommandLine.Batch
import Signatures.Proofs.CommandLine.Trees
import Signatures.Proofs.Shape.Place
import Signatures.Proofs.Signature.Names
import Signatures.Proofs.Signature.Classifying
