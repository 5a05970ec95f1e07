import PocketCalculator.Archive
import PocketCalculator.Binary64.Arithmetic
import PocketCalculator.Binary64.Basic
import PocketCalculator.Binary64.Circular
import PocketCalculator.Binary64.Encoding
import PocketCalculator.Binary64.Rounding
import PocketCalculator.Data.Basic
import PocketCalculator.Data.Dialect
import PocketCalculator.Data.Hexadecimal
import PocketCalculator.Data.Json.Lexemes
import PocketCalculator.Data.Json.Quoted
import PocketCalculator.Data.Lexeme
import PocketCalculator.Data.Reader
import PocketCalculator.Data.Stored.Attributes
import PocketCalculator.Data.Stored.Lexemes
import PocketCalculator.Data.Stored.Name
import PocketCalculator.Data.Stored.Number
import PocketCalculator.Data.Stored.Option
import PocketCalculator.Data.Stored.Plain
import PocketCalculator.Data.Stored.Quoted
import PocketCalculator.Data.Utf8
import PocketCalculator.Data.Writer
import PocketCalculator.Decimal.Numeral
import PocketCalculator.Decimal.Scientific
import PocketCalculator.Display
import PocketCalculator.Edit
import PocketCalculator.EvalError
import PocketCalculator.Evaluation
import PocketCalculator.Function
import PocketCalculator.History
import PocketCalculator.Journal
import PocketCalculator.Keys
import PocketCalculator.Operator
import PocketCalculator.Postfix
import PocketCalculator.Preferences
import PocketCalculator.Screen
import PocketCalculator.Session
import PocketCalculator.Storage
import PocketCalculator.Text
import PocketCalculator.Token
import PocketCalculator.Proofs.TokenGrammar
import PocketCalculator.Proofs.TwoLevel
import PocketCalculator.Proofs.Rounding
import PocketCalculator.Proofs.Arithmetic
import PocketCalculator.Proofs.TenPlaces
import PocketCalculator.Proofs.Digits
import PocketCalculator.Proofs.PlainText
import PocketCalculator.Proofs.ShownText
import PocketCalculator.Proofs.PositionalText
import PocketCalculator.Proofs.ExponentialText
import PocketCalculator.Proofs.Redisplay
import PocketCalculator.Proofs.TypedText
import PocketCalculator.Proofs.TypedSession
import PocketCalculator.Proofs.FirstFault
import PocketCalculator.Proofs.Quotation
import PocketCalculator.Proofs.ReadBack
import PocketCalculator.Proofs.Preview
import PocketCalculator.Proofs.Record
import PocketCalculator.Proofs.Foreground
import PocketCalculator.Proofs.ErrorState
import PocketCalculator.Proofs.DigitRuns
import PocketCalculator.Proofs.OnePoint
import PocketCalculator.Proofs.Reread
import PocketCalculator.Proofs.Insertion
import PocketCalculator.Proofs.Written
import PocketCalculator.Proofs.Operand
import PocketCalculator.Proofs.Postorder
import PocketCalculator.Proofs.LastOperator
import PocketCalculator.Proofs.CanonicalText
import PocketCalculator.Proofs.Verbatim
import PocketCalculator.Proofs.Placement
import PocketCalculator.Proofs.PendingOperator
import PocketCalculator.Proofs.Keypad
import PocketCalculator.Proofs.LongestNumeral
import PocketCalculator.Proofs.Exchange
import PocketCalculator.Proofs.DecimalPoint
import PocketCalculator.Proofs.Spelling
import PocketCalculator.Proofs.Tolerance
