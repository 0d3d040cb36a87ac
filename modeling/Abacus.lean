import Abacus.Main
import Abacus.Json.Printer
import Abacus.Service
import Abacus.Proofs.Machine
import Abacus.Proofs.Evaluation
import Abacus.Proofs.Forest
import Abacus.Proofs.Misplacement
import Abacus.Proofs.Safety
import Abacus.Proofs.Strictness
import Abacus.Proofs.Substitution
import Abacus.Proofs.AnswerText
import Abacus.Proofs.EntryPoints
import Abacus.Proofs.Origins
import Abacus.Proofs.Readback
import Abacus.Proofs.Lexing
import Abacus.Proofs.Fields
import Abacus.Proofs.Statuses
import Abacus.Proofs.Arguments
import Abacus.Proofs.FrontEnds
import Abacus.Proofs.Resolution
import Abacus.Proofs.Accounts
import Abacus.Proofs.FirstFailure
import Abacus.Proofs.Values
import Abacus.Proofs.Nearest
import Abacus.Proofs.Shortest
import Abacus.Proofs.DecimalText
import Abacus.Proofs.Faithful
import Abacus.Proofs.Rendering
import Abacus.Proofs.Waiting
import Abacus.Proofs.LeadingDecimal
import Abacus.Proofs.Trail
import Abacus.Proofs.StandardInput
