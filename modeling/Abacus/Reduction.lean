import Abacus.Token
import Abacus.Record

/-!
# Reduction of postfix tokens

Numbers go on a stack. An operator takes two of them, the right operand from the top, and puts its
result back. The value is what stands on top in the end.
-/

namespace Abacus

structure Step where
  left : Float
  op : Operator
  right : Float
  result : Float
deriving DecidableEq, Repr

def Step.text (s : Step) : String :=
  Notation.answerText s.left ++ " " ++ s.op.symbol ++ " " ++ Notation.answerText s.right
    ++ " = " ++ Notation.answerText s.result

structure Evaluation where
  value : Float
  steps : List String
deriving DecidableEq, Repr

/-- The operands, top first, and the steps, latest first. -/
structure Machine where
  stack : List Float := []
  steps : List Step := []
deriving DecidableEq, Repr

namespace Machine

def reduce (op : Operator) (left right : Float) (below : List Float) (steps : List Step) :
    Except Fault Machine :=
  if op.isUndefined right then .error .divisionByZero
  else
    let result := op.apply left right
    .ok ⟨result :: below, ⟨left, op, right, result⟩ :: steps⟩

def step (m : Machine) : Token → Except Failure Machine
  | .number x => .ok { m with stack := x :: m.stack }
  | .operator op =>
    match m.stack with
    | right :: left :: below => (reduce op left right below m.steps).mapError .fault
    | stack => .error (.fault (.missingOperands op stack.length))
  | .leftParen => .error (.fault (.unexpectedToken Token.leftParen.symbol))
  | .rightParen => .error (.fault (.unexpectedToken Token.rightParen.symbol))
  | .unknownOperator symbol => .error (.fault (.unknownOperator symbol))
  | .foreign _ => .error (.misuse .foreignInReduction)

def run (m : Machine) (tokens : List Token) : Except Failure Machine := tokens.foldlM step m

/-- Operands below the top are a fault if the reduction is strict, and are dropped if not. -/
def finish (strict : Bool) (m : Machine) : Traced Fault Evaluation :=
  match m.stack with
  | [] => .fail .emptyExpression
  | value :: below =>
    if strict && !below.isEmpty then .fail (.leftoverOperands below.length)
    else
      { records := if below.isEmpty then [] else [.dropped below.reverse]
        outcome :=
          if value.isNaN then .error .notANumber
          else .ok ⟨value, m.steps.reverse.map Step.text⟩ }

end Machine

def Token.reduce (strict : Bool) (tokens : List Token) : Traced Failure Evaluation := do
  let m ← Traced.ofExcept (Machine.run {} tokens)
  (m.finish strict).recover fun fault => .fail (.fault fault)

end Abacus
