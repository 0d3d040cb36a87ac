import Abacus.Calculator
import Abacus.Console.Arguments
import Abacus.Console.Encoding
import Abacus.Console.Table
import Abacus.Settings.Dotenv
import Abacus.Settings.LogLevel
import Abacus.Text.LineEnd

/-!
# The command line

Four commands show the value of an expression, its tokens, its postfix order and the steps to its
value. The expression is given as an option or on standard input.
-/

namespace Abacus.Console

/-! ## What a run starts from and ends with -/

structure Surroundings where
  standardInput : String := ""
  environment : Settings.Variables := []
  dotenv : Settings.Dotenv := {}
  encoding : Encoding := .utf8

inductive Ending where
  | finished (code : Nat) (output errors : String)
  /-- Refused with one line; the exit code is 2. -/
  | rejected (message : String)
  | helpWanted
deriving DecidableEq, Repr

inductive Crash where
  | unknownLevel (e : UnknownLevel)
  | invalidSettings (complaints : List Complaint)
  /-- A line of error that the output cannot hold. -/
  | unencodable (characters : Unencodable)
deriving DecidableEq, Repr

def Crash.message : Crash → String
  | unknownLevel e => e.message
  | invalidSettings complaints =>
    "\n".intercalate (complaints.map fun c => placesText c.location ++ ": " ++ c.issue.message)
  | unencodable characters => characters.message
where
  placeText : Place → String
    | .name name => name
    | .offset offset => toString offset
  placesText (places : List Place) : String := ".".intercalate (places.map placeText)

def programName (command? : Option Command) : String :=
  match command? with
  | none => "exprcalc"
  | some command => "exprcalc " ++ command.name

def missingText : String := "Błąd: podaj wyrażenie przez --text lub stdin"

/-! ## Settings and text -/

/-- A field that is set if the option is given, and is left alone if not. -/
def setIf (given : Bool) (field : Settings.Field) : List (String × Json) :=
  if given then [(field.name, .bool true)] else []

/-- An option sets a strict flag and never clears it. -/
def overrides (invocation : Invocation) : List (String × Json) :=
  setIf invocation.strictOperands .strictOperands
    ++ setIf invocation.strictCharacters .strictCharacters

/-- The settings of an invocation, by a loader. -/
def settingsOf (loader : Settings.Loader) (s : Surroundings) (invocation : Invocation) :
    Except Crash Settings :=
  (loader.load ⟨overrides invocation, s.environment, s.dotenv.values⟩).mapError .invalidSettings

def settings : Surroundings → Invocation → Except Crash Settings := settingsOf .standard

/-- The records that are made whenever the settings are read. -/
def settingsRecords (s : Surroundings) : List Record := s.dotenv.unreadable.map .unreadableEntry

def nonEmpty? (text? : Option String) : Option String := text?.filter fun text => !text.isEmpty

/-- The level comes from the option, and from the settings if the option is not given. The records
of this reading of the settings are made before there is a log. -/
def level (s : Surroundings) (invocation : Invocation) : Except Crash (Level × List Record) := do
  let (name, early) ← match nonEmpty? invocation.logLevel? with
    | some name => .ok (name, [])
    | none => (·.logLevel, settingsRecords s) <$> settings s invocation
  return (← (Level.ofText name).mapError .unknownLevel, early)

/-- Standard input with its line ends folded and the blanks at either end taken off. -/
def inputText (s : Surroundings) : String :=
  String.ofList (Text.trim (Text.foldLineEnds s.standardInput.toList))

/-- The expression of a command: the option, and standard input if the option is not given. -/
def expression? (s : Surroundings) (invocation : Invocation) : Option String :=
  nonEmpty? invocation.text? <|> nonEmpty? (some (inputText s))

/-! ## Commands -/

/-- What a command prints: lines on the output, records in the log, and then a line of error. -/
structure Report where
  code : Nat
  output : List String := []
  records : List Record := []
  error? : Option String := none

namespace Report

def faultLine (fault : Fault) : String := fault.code ++ ": " ++ fault.message

/-- A report on something that has tokens, or on the fault that kept it from them. -/
def ofTokens {α : Type} (traced : Traced Failure α) (lines : α → List String) : Report :=
  match traced.outcome with
  | .ok a => { code := 0, output := lines a, records := traced.records }
  | .error (.fault fault) => { code := 1, records := traced.records, error? := faultLine fault }
  | .error (.misuse _) => { code := 1, records := traced.records }

def ofOutcome (traced : Traced Misuse Outcome) (lines : Outcome → List String)
    (failure : Outcome → String) : Report :=
  match traced.outcome with
  | .ok outcome =>
    if outcome.ok then { code := 0, output := lines outcome, records := traced.records }
    else { code := 1, output := [failure outcome], records := traced.records }
  | .error _ => { code := 1, records := traced.records }

end Report

def answerLine (outcome : Outcome) : String := outcome.answer?.getD ""

def stepLines (outcome : Outcome) : List String :=
  (outcome.steps.zipIdx.map fun (step, index) => "  " ++ toString (index + 1) ++ ". " ++ step)
    ++ ["= " ++ answerLine outcome]

def report (encoding : Encoding) (settings : Settings) (command : Command) (expression : String) :
    Report :=
  let calculator := Calculator.standard settings.strictOperands settings.strictCharacters
  match command with
  | .eval =>
    .ofOutcome (calculator.explain expression) (fun o => [answerLine o]) fun _ => "no result"
  | .steps =>
    .ofOutcome (calculator.explain expression) stepLines fun o =>
      "no result (" ++ o.errorCode?.getD "" ++ ")"
  | .tokens =>
    .ofTokens (calculator.tokenize expression) (tableLines (encoding.replaceOthers expression))
  | .toPostfix =>
    .ofTokens (do calculator.toPostfix (← calculator.tokenize expression)) fun tokens =>
      [Token.render tokens]

/-- Lines as text; each has its end. -/
def textOfLines (lines : List String) : String := String.join (lines.map (· ++ "\n"))

/-- What a report comes to. Before its log stand the messages of the early records; what the output
cannot hold is escaped in the log and refused in the line of error. -/
def Report.ending (report : Report) (early : List Record) (level : Level) (encoding : Encoding) :
    Except Crash Ending := do
  let log := (report.records.filter (Record.passes level)).map Record.line
  let errors ← report.error?.toList.mapM fun line => (encoding.encode line).mapError .unencodable
  return .finished report.code (textOfLines report.output)
    (textOfLines (early.map Record.message) ++ encoding.escapeOthers (textOfLines log)
      ++ textOfLines errors)

def reject (encoding : Encoding) (message : String) : Except Crash Ending :=
  ((encoding.encode message).map .rejected).mapError .unencodable

def readsInput (arguments : List String) : Bool :=
  match Invocation.ofArguments arguments with
  | .ok invocation => (nonEmpty? invocation.text?).isNone
  | .error _ => false

def run (s : Surroundings) (arguments : List String) : Except Crash Ending :=
  match Invocation.ofArguments arguments with
  | .error .helpWanted => .ok .helpWanted
  | .error (.usage command? fault) =>
    reject s.encoding (programName command? ++ ": error: " ++ fault.message)
  | .ok invocation => do
    let (level, early) ← level s invocation
    match expression? s invocation with
    | none => reject s.encoding missingText
    | some expression =>
      let settings ← settings s invocation
      let report := report s.encoding settings invocation.command expression
      { report with records := settingsRecords s ++ report.records }.ending early level s.encoding

end Abacus.Console
