import Abacus.Token.Scan
import Abacus.Postfix
import Abacus.Reduction

/-!
# The calculator

Three stages take a text to its value. Each can be supplied from outside, so the calculator checks
once more that the value is a number.
-/

namespace Abacus

structure Calculator where
  tokenize : String → Traced Failure (List Token)
  toPostfix : List Token → Traced Failure (List Token)
  reduce : List Token → Traced Failure Evaluation

/-- What is told about an expression: its evaluation, or the kind of its fault. -/
structure Outcome where
  expression : String
  result : Except FaultKind Evaluation

namespace Outcome

def ok (o : Outcome) : Bool := o.result.isOk

def value? (o : Outcome) : Option Float := o.result.toOption.map (·.value)

def answer? (o : Outcome) : Option String := o.value?.map Notation.answerText

def errorCode? (o : Outcome) : Option String :=
  match o.result with
  | .ok _ => none
  | .error kind => some kind.code

def steps (o : Outcome) : List String :=
  match o.result with
  | .ok evaluation => evaluation.steps
  | .error _ => []

end Outcome

namespace Calculator

/-! ## The stages of this library -/

def scanStage (strict : Bool) (text : String) : Traced Failure (List Token) :=
  (Token.scan strict text).recover fun fault => .fail (.fault fault)

def postfixStage (tokens : List Token) : Traced Failure (List Token) :=
  .ofExcept (Token.toPostfix tokens)

/-- The calculator of this library's own stages. -/
def standard (strictOperands strictCharacters : Bool) : Calculator where
  tokenize := scanStage strictCharacters
  toPostfix := postfixStage
  reduce := Token.reduce strictOperands

/-- The calculator that lets leftover operands and meaningless characters pass. -/
def lax : Calculator := standard false false

/-! ## Entry points -/

/-- The evaluation of an expression, or why there is none. -/
def evaluate (c : Calculator) (expression : String) : Traced Failure Evaluation := do
  let tokens ← c.tokenize expression
  let postfixTokens ← c.toPostfix tokens
  let evaluation ← c.reduce postfixTokens
  if evaluation.value.isNaN then .fail (.fault .notANumber)
  return evaluation

/-- The evaluation or the fault, which is recorded; a misuse is not the expression's and goes on. -/
def attempt (c : Calculator) (expression : String) : Traced Misuse (Except Fault Evaluation) :=
  let evaluation := c.evaluate expression
  match evaluation.outcome with
  | .ok e => ⟨evaluation.records, .ok (.ok e)⟩
  | .error (.fault fault) =>
    ⟨evaluation.records ++ [.noResult expression fault], .ok (.error fault)⟩
  | .error (.misuse misuse) => ⟨evaluation.records, .error misuse⟩

/-- The value, or none if the expression has a fault. -/
def value? (c : Calculator) (expression : String) : Traced Misuse (Option Float) := do
  return (← c.attempt expression).toOption.map (·.value)

/-- The value with its steps, or the kind of the fault. -/
def explain (c : Calculator) (expression : String) : Traced Misuse Outcome := do
  return ⟨expression, (← c.attempt expression).mapError Fault.kind⟩

end Calculator

end Abacus
