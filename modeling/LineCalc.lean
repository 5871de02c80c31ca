import LineCalc.Main
import LineCalc.Console
import LineCalc.Proofs.Expr.Alike
import LineCalc.Proofs.Expr.Shape
import LineCalc.Proofs.Expr.Signs
import LineCalc.Proofs.Phrase.Completeness
import LineCalc.Proofs.Phrase.Derivation
import LineCalc.Proofs.Phrase.Line
import LineCalc.Proofs.Phrase.Nesting
import LineCalc.Proofs.Phrase.Soundness
import LineCalc.Proofs.Phrase.Spelling
import LineCalc.Proofs.Phrase.Text
import LineCalc.Proofs.Session.Atomicity
import LineCalc.Proofs.Session.Denotation
import LineCalc.Proofs.Session.Effect
import LineCalc.Proofs.Session.RoundTrip
import LineCalc.Proofs.Session.Statement
import LineCalc.Proofs.Token.Lexeme
import LineCalc.Proofs.Token.Numeral
import LineCalc.Proofs.Token.Number
import LineCalc.Proofs.Token.Rules
import LineCalc.Proofs.Token.LongestMatch
import LineCalc.Proofs.Session.Poison
import LineCalc.Proofs.Session.Run
import LineCalc.Proofs.Session.Sentinel
import LineCalc.Proofs.Text.Lines
import LineCalc.Proofs.Token.LineEnd
import LineCalc.Proofs.Binary64.Text
import LineCalc.Proofs.Error.Message
import LineCalc.Proofs.Phrase.Uniform
import LineCalc.Proofs.Session.Alike
import LineCalc.Proofs.Console.Output
import LineCalc.Proofs.Console.Script
import LineCalc.Proofs.Session.Account
import LineCalc.Proofs.Session.Pending
import LineCalc.Proofs.Session.Matching
import LineCalc.Proofs.Session.Deletion
import LineCalc.Proofs.Session.Interleaving
import LineCalc.Proofs.Session.Verbosity
import LineCalc.Proofs.Console.Command
import LineCalc.Proofs.Console.Matching
import LineCalc.Proofs.CommandLine.Verbosity
import LineCalc.Proofs.Text.Pieces
import LineCalc.Proofs.Console.Conversation
import LineCalc.Proofs.Text.ByteOrder
import LineCalc.Proofs.Store.History
import LineCalc.Proofs.Console.Interruption
import LineCalc.Proofs.CommandLine.ExitCode
import LineCalc.Proofs.Phrase.Lookahead
import LineCalc.Proofs.Phrase.Fault
import LineCalc.Proofs.Phrase.FirstWrong
import LineCalc.Proofs.Phrase.Extent
import LineCalc.Proofs.Session.Declaration
import LineCalc.Proofs.Phrase.OpenGroups
import LineCalc.Proofs.Session.Visits
import LineCalc.Proofs.Expr.Interval
import LineCalc.Proofs.Expr.Listing
import LineCalc.Proofs.Phrase.Numbering
import LineCalc.Proofs.Session.Attribution
import LineCalc.Proofs.Expr.Graph
import LineCalc.Proofs.Console.LineNumber
import LineCalc.Proofs.Session.Repetition
import LineCalc.Proofs.Text.Words
import LineCalc.Proofs.Console.FirstWord
import LineCalc.Proofs.Console.Language
import LineCalc.Proofs.Binary64.Value
import LineCalc.Proofs.Binary64.Nearest
import LineCalc.Proofs.Decimal.Nearest
import LineCalc.Proofs.Token.Value
import LineCalc.Proofs.Binary64.Remainder
