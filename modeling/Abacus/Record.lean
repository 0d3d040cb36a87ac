import Abacus.Fault

/-!
# Log records

Records are data beside a result. A computation keeps the records that it made before it failed.
-/

namespace Abacus

/-! ## Levels -/

inductive Level where
  | notSet
  | debug
  | info
  | warning
  | error
  | critical
deriving DecidableEq, Repr

namespace Level

/-- The greater number is the more severe level. -/
def severity : Level → Nat
  | notSet => 0
  | debug => 10
  | info => 20
  | warning => 30
  | error => 40
  | critical => 50

def name : Level → String
  | notSet => "NOTSET"
  | debug => "DEBUG"
  | info => "INFO"
  | warning => "WARNING"
  | error => "ERROR"
  | critical => "CRITICAL"

/-- The level with this name in capitals; two levels have a second name. -/
def ofName? : String → Option Level
  | "NOTSET" => some notSet
  | "DEBUG" => some debug
  | "INFO" => some info
  | "WARN" | "WARNING" => some warning
  | "ERROR" => some error
  | "FATAL" | "CRITICAL" => some critical
  | _ => none

end Level

/-! ## Records -/

inductive Record where
  /-- A character that the scan passed over. -/
  | skipped (character : Char) (position : Nat)
  /-- Operands that were left below the value, bottom of the stack first. -/
  | dropped (operands : List Float)
  | noResult (expression : String) (fault : Fault)
  | serviceReady (strictOperands strictCharacters : Bool)
  | serviceClosed
  /-- A part of the `.env` file that could not be read and starts on this line. -/
  | unreadableEntry (line : Nat)
deriving DecidableEq, Repr

namespace Record

def level : Record → Level
  | skipped _ _ | dropped _ | noResult _ _ => .debug
  | serviceReady _ _ | serviceClosed => .info
  | unreadableEntry _ => .warning

/-- The part of the program that made the record. -/
def origin : Record → String
  | skipped _ _ => "exprcalc.tokenizer"
  | dropped _ => "exprcalc.evaluator"
  | noResult _ _ => "exprcalc.calculator"
  | serviceReady _ _ | serviceClosed => "exprcalc"
  | unreadableEntry _ => "dotenv.main"

def flagText (flag : Bool) : String := if flag then "True" else "False"

def message : Record → String
  | skipped character position =>
    "Skipping character " ++ Text.quoted (String.singleton character)
      ++ " at position " ++ toString position
  | dropped operands =>
    "Dropping " ++ toString operands.length ++ " leftover operand(s): ["
      ++ ", ".intercalate (operands.map Notation.operandText) ++ "]"
  | noResult expression fault =>
    "No result for " ++ Text.quoted expression ++ ": " ++ fault.code ++ " (" ++ fault.message ++ ")"
  | serviceReady strictOperands strictCharacters =>
    "ExprCalc API ready (strict_operands=" ++ flagText strictOperands
      ++ ", strict_characters=" ++ flagText strictCharacters ++ ")."
  | serviceClosed => "Shutting down."
  | unreadableEntry line =>
    "python-dotenv could not parse statement starting at line " ++ toString line

/-- The record as a line, without the line end. -/
def line (record : Record) : String :=
  record.level.name ++ ":" ++ record.origin ++ ":" ++ record.message

/-- Whether a log that is set to a level lets the record through. -/
def passes (threshold : Level) (record : Record) : Bool :=
  threshold.severity ≤ record.level.severity

end Record

/-! ## Results with records -/

/-- An outcome beside the records that were made on the way. -/
structure Traced (ε α : Type) where
  records : List Record
  outcome : Except ε α

namespace Traced

variable {ε ε' α β : Type}

def pure (a : α) : Traced ε α := ⟨[], .ok a⟩

def fail (e : ε) : Traced ε α := ⟨[], .error e⟩

def ofExcept (outcome : Except ε α) : Traced ε α := ⟨[], outcome⟩

def record (r : Record) : Traced ε Unit := ⟨[r], .ok ()⟩

/-- The second computation runs only after a success; a failure keeps the records before it. -/
def bind (x : Traced ε α) (f : α → Traced ε β) : Traced ε β :=
  match x.outcome with
  | .ok a => ⟨x.records ++ (f a).records, (f a).outcome⟩
  | .error e => ⟨x.records, .error e⟩

/-- The outcome changed on either side; the records stay. -/
def map (x : Traced ε α) (onValue : α → β) (onFailure : ε → ε') : Traced ε' β :=
  ⟨x.records, (x.outcome.map onValue).mapError onFailure⟩

/-- The second computation runs only after a failure. -/
def recover (x : Traced ε α) (f : ε → Traced ε' α) : Traced ε' α :=
  match x.outcome with
  | .ok a => ⟨x.records, .ok a⟩
  | .error e => ⟨x.records ++ (f e).records, (f e).outcome⟩

instance : Monad (Traced ε) where
  pure := pure
  bind := bind

end Traced

end Abacus
