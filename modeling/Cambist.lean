import Cambist.Main
import Cambist.Proofs.Conversion
import Cambist.Proofs.Evaluation.Account
import Cambist.Proofs.Evaluation.RightRecursion
import Cambist.Proofs.Evaluation.Route
import Cambist.Proofs.Evaluation.Outcome
import Cambist.Proofs.Evaluation.Explanation
import Cambist.Proofs.Request.Acceptance
import Cambist.Proofs.Evaluation.Run
import Cambist.Proofs.Evaluation.Exact
import Cambist.Proofs.Evaluation.Locality
import Cambist.Proofs.Decimal.Numeral
import Cambist.Proofs.Token.Lexeme
import Cambist.Proofs.Token.Offset
import Cambist.Proofs.Evaluation.Position
import Cambist.Proofs.Request.Canonical
import Cambist.Proofs.Token.MaximalMunch
import Cambist.Proofs.Request.Viability
import Cambist.Proofs.Decimal.Fitting
import Cambist.Proofs.Evaluation.Negation
import Cambist.Proofs.Evaluation.Monotone
import Cambist.Proofs.Evaluation.Safety
import Cambist.Proofs.Request.Relocation
import Cambist.Proofs.Session
import Cambist.Proofs.Token.Layout
import Cambist.Proofs.Request.Spacing
import Cambist.Proofs.Failure
import Cambist.Proofs.Decimal.Closeness
import Cambist.Proofs.Exchange
import Cambist.Proofs.Addition
import Cambist.Proofs.Evaluation.Signs
import Cambist.Proofs.RateTable
import Cambist.Proofs.Settings
import Cambist.Proofs.CommandLine
import Cambist.Proofs.Evaluation.IdleDirective
import Cambist.Proofs.Token.Juxtaposition
import Cambist.Proofs.Json.Spelling
import Cambist.Proofs.Json.Writing
import Cambist.Proofs.Settings.Writing
import Cambist.Proofs.Binary64.Nearest
import Cambist.Proofs.Binary64.Shortest
import Cambist.Proofs.Json.Numeral
import Cambist.Proofs.Settings.NumberForm
import Cambist.Proofs.Request.Lookahead
