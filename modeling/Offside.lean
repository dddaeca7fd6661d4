import Offside.CommandLine
import Offside.Diagnostic.Render
import Offside.Main
import Offside.Parse.Parser
import Offside.Program.Print
import Offside.Source
import Offside.Token.Lexer
import Offside.Proofs.Comparison
import Offside.Proofs.Levels
import Offside.Proofs.Grammar
import Offside.Proofs.Derivation
import Offside.Proofs.Repetition
import Offside.Proofs.Soundness
import Offside.Proofs.Completeness
import Offside.Proofs.Acceptance
import Offside.Proofs.LineEnds
import Offside.Proofs.Canonical
import Offside.Proofs.Lexemes
import Offside.Proofs.Moves
import Offside.Proofs.Spelling
import Offside.Proofs.Layout
import Offside.Proofs.Measure
import Offside.Proofs.Nesting
import Offside.Proofs.Depth
import Offside.Proofs.Values
import Offside.Proofs.Printable
import Offside.Proofs.Reread
import Offside.Proofs.Written
import Offside.Proofs.Unique
import Offside.Proofs.RoundTrip
import Offside.Proofs.Tiling
import Offside.Proofs.Scanning
import Offside.Proofs.Margins
import Offside.Proofs.Concatenation
import Offside.Proofs.Places
import Offside.Proofs.Insertion
import Offside.Proofs.Blame
import Offside.Proofs.Rendering
import Offside.Proofs.Recut
import Offside.Proofs.Expressions
import Offside.Proofs.Viable
import Offside.Proofs.Prefixes
import Offside.Proofs.Readability
import Offside.Proofs.Productions
import Offside.Proofs.Parentheses
import Offside.Proofs.LastingErrors
import Offside.Proofs.BlankLines
import Offside.Proofs.LineTails
import Offside.Proofs.LastLine
import Offside.Proofs.Congruence
import Offside.Proofs.Locality
import Offside.Proofs.Reordering
import Offside.Proofs.Indentation
import Offside.Proofs.Names
import Offside.Proofs.TokenTexts
