import Abacus.AnswerKey
import Abacus.Service.Address
import Abacus.Service.Request
import Abacus.Settings.LogLevel

/-!
# The service

It evaluates expressions, derives answer keys and says that it is alive. No state is kept from one
request to the next.
-/

namespace Abacus

structure Service where
  settings : Settings
  level : Level

def Settings.calculator (settings : Settings) : Calculator :=
  .standard settings.strictOperands settings.strictCharacters

namespace Service

/-! ## Setting up -/

inductive SetupFault where
  | unknownLevel (e : UnknownLevel)
  | noTitle
  | noVersion
deriving DecidableEq, Repr

def SetupFault.message : SetupFault → String
  | unknownLevel e => e.message
  | noTitle => "A title must be provided for OpenAPI, e.g.: 'My API'"
  | noVersion => "A version must be provided for OpenAPI, e.g.: '2.1.0'"

/-- A service has a level for its log, a title and a version. -/
def ofSettings (settings : Settings) : Except SetupFault Service := do
  let level ← (Level.ofText settings.logLevel).mapError .unknownLevel
  if settings.appTitle.isEmpty then throw .noTitle
  if settings.appVersion.isEmpty then throw .noVersion
  return ⟨settings, level⟩

/-! ## Answers -/

/-- What leaves a request without any response. -/
inductive Breakdown where
  | address (fault : AddressFault)
  /-- A value to be sent back holds a number that is not finite. -/
  | unwritable
  | misuse (misuse : Misuse)
deriving DecidableEq, Repr

def Breakdown.unwritableText : String := "Out of range float values are not JSON compliant"

def isTooLong (service : Service) (text : String) : Bool :=
  service.settings.maxExpressionLength < text.length

def tooLong (service : Service) (what : String) : Response :=
  let limit := toString service.settings.maxExpressionLength
  .message 413 (what ++ " longer than " ++ limit ++ " characters")

/-- A rejection is sent with the values that are objected to. -/
def reject (rejection : Rejection) : Except Breakdown Response :=
  if rejection.isWritable then .ok rejection.response else .error .unwritable

def stringOrNull (text? : Option String) : Json := (text?.map Json.string).getD .null

/-- Only finite numbers are JSON; the others are told by their text. -/
def finiteOrNull (value? : Option Float) : Json :=
  match value? with
  | some value => if value.isFinite then .float value else .null
  | none => .null

def evaluationJson (outcome : Outcome) (explain : Bool) : Json :=
  .object [("expression", .string outcome.expression),
    ("ok", .bool outcome.ok),
    ("answer", stringOrNull outcome.answer?),
    ("value", finiteOrNull outcome.value?),
    ("steps", .array (if explain then outcome.steps.map .string else []))]

def evaluate (service : Service) (body : Body) : Traced Breakdown Response :=
  match EvaluationRequest.ofBody body with
  | .error rejection => .ofExcept (reject rejection)
  | .ok request =>
    if service.isTooLong request.expression then .pure (service.tooLong "Expression")
    else
      (service.settings.calculator.explain request.expression).map
        (fun outcome => .ok (evaluationJson outcome request.explain)) .misuse

def answerKeyJson (typeName answer : String) : Json :=
  .object [("type", .string typeName), ("answer", .string answer)]

def answerKeyResponse (typeName : String) : Except Refusal String → Response
  | .ok answer => .ok (answerKeyJson typeName answer)
  | .error refusal => .message 400 refusal.message

def answerKey (service : Service) (body : Body) : Traced Breakdown Response :=
  match AnswerKeyRequest.ofBody body with
  | .error rejection => .ofExcept (reject rejection)
  | .ok request =>
    if service.isTooLong request.problemText then .pure (service.tooLong "Problem text")
    else
      (service.settings.calculator.answerKey service.settings.riddleAnswer request.typeName
        request.problemText).map (answerKeyResponse request.typeName) .misuse

def health (service : Service) : Response :=
  .ok (.object [("status", .string "ok"), ("version", .string service.settings.appVersion)])

/-! ## Routes -/

inductive Route where
  | evaluate
  | answerKey
  | health
  /-- A page about the service; what it shows is left open. -/
  | page
deriving DecidableEq, Repr

def Route.ofPath? : String → Option Route
  | "/evaluate" => some evaluate
  | "/problems/answer" => some answerKey
  | "/health" => some health
  | "/openapi.json" | "/docs" | "/docs/oauth2-redirect" | "/redoc" => some page
  | _ => none

/-- The path without a line end behind it, which no route minds. -/
def dropLineEnd (path : String) : String :=
  match path.toList.reverse with
  | '\n' :: rest => String.ofList rest.reverse
  | _ => path

def route? (path : String) : Option Route := Route.ofPath? (dropLineEnd path)

def Route.methods : Route → List String
  | evaluate | answerKey => ["POST"]
  | health => ["GET"]
  | page => ["GET", "HEAD"]

/-- The path without the slashes at its end, or with one if it has none. -/
def toggleSlash (path : String) : String :=
  let cs := path.toList.reverse
  if cs.head? == some '/' then String.ofList (cs.dropWhile (· == '/')).reverse else path ++ "/"

/-- A failure; the answer to `HEAD` has no body. -/
def plainFailure (method : String) (status : Nat) (text : String) : Response :=
  if method == "HEAD" then ⟨status, none⟩ else .message status text

def answer (service : Service) (route : Route) (body : Body) : Traced Breakdown Response :=
  match route with
  | .evaluate => service.evaluate body
  | .answerKey => service.answerKey body
  | .health => .pure service.health
  | .page => .pure ⟨200, none⟩

def handleAt (service : Service) (path : String) (method : String) (body : Body) :
    Traced Breakdown Response :=
  match route? path with
  | some route =>
    if route.methods.contains method then service.answer route body
    else .pure (plainFailure method 405 "Method Not Allowed")
  | none =>
    match route? (toggleSlash path) with
    | some _ => .pure ⟨307, none⟩
    | none => .pure (plainFailure method 404 "Not Found")

/-- The response to a request and the records made for it. -/
def handle (service : Service) (request : Request) : Traced Breakdown Response :=
  match Address.path request.address with
  | .error fault => .fail (.address fault)
  | .ok path => service.handleAt path (Text.upperCase request.method) request.body

/-- The responses to requests in order, and the records made for them. -/
def handleAll (service : Service) : List Request → Traced Breakdown (List Response)
  | [] => .pure []
  | request :: rest => do
    let response ← service.handle request
    return response :: (← service.handleAll rest)

/-- The responses to requests in order, and the log from the start to the end of the service. -/
def serve (service : Service) (requests : List Request) :
    Except Breakdown (List Response × List Record) :=
  let handled := service.handleAll requests
  let records := .serviceReady service.settings.strictOperands service.settings.strictCharacters
    :: handled.records ++ [.serviceClosed]
  handled.outcome.map (·, records.filter (Record.passes service.level))

end Service

end Abacus
