import LoxSyntax.Grammar.Production
import LoxSyntax.Main
import LoxSyntax.CommandLine.Folder
import LoxSyntax.Recognizer.Cursor
import LoxSyntax.Proofs.Recognizer.Extent
import LoxSyntax.Proofs.Recognizer.Violation
import LoxSyntax.Proofs.Lexical.Layout
import LoxSyntax.Proofs.Lexical.Boundary
import LoxSyntax.Proofs.Lexical.Spacing
import LoxSyntax.Proofs.Lexical.Lines
import LoxSyntax.Proofs.Recognizer.Calls
import LoxSyntax.Proofs.Grammar.Marker
import LoxSyntax.Proofs.Lexical.Closers
import LoxSyntax.Proofs.Check.Accepted
import LoxSyntax.Proofs.Check.Concatenation
import LoxSyntax.Proofs.Check.Help
import LoxSyntax.Proofs.Trace.Visits
import LoxSyntax.Proofs.Trace.Certificate
import LoxSyntax.Proofs.Grammar.Expansions
import LoxSyntax.Proofs.Recognizer.Course
import LoxSyntax.Proofs.Recognizer.Alternatives
import LoxSyntax.Proofs.Lexical.Errors
import LoxSyntax.Proofs.Recognizer.Catalogue
import LoxSyntax.Proofs.Lexical.Longest
import LoxSyntax.Proofs.Diagnostic.Location
import LoxSyntax.Proofs.Diagnostic.Rendering
import LoxSyntax.Proofs.Diagnostic.Quotation
import LoxSyntax.Proofs.Diagnostic.Caret
import LoxSyntax.Proofs.Recognizer.Unterminated
import LoxSyntax.Proofs.Check.Phases
import LoxSyntax.Proofs.CommandLine.Answers
import LoxSyntax.Proofs.CommandLine.Order
import LoxSyntax.Proofs.Lexical.Lookahead
