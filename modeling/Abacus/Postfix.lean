import Abacus.Token
import Abacus.Fault

/-!
# Postfix order

Numbers keep their order. An operator waits until one that binds no tighter, a closing parenthesis
or the end comes, so that all four operators group to the left. Parentheses are used up.
-/

namespace Abacus

/-- What waits on the stack. -/
inductive Pending where
  | paren
  | operator (op : Operator)
deriving DecidableEq, Repr

namespace Pending

def isOperator : Pending → Bool
  | paren => false
  | operator _ => true

/-- Operators go out before one that binds no tighter. -/
def yieldsTo (next : Operator) : Pending → Bool
  | paren => false
  | operator op => next.precedence ≤ op.precedence

/-- The operators among what waited. -/
def release (waiting : List Pending) : List Token :=
  waiting.filterMap fun
    | paren => none
    | operator op => some (.operator op)

end Pending

/-- The output, latest token first, and what waits, top first. -/
structure Yard where
  output : List Token := []
  pending : List Pending := []
deriving DecidableEq, Repr

namespace Yard

/-- The waiting operators on top that pass the test go out. -/
def releaseWhile (test : Pending → Bool) (y : Yard) : Yard where
  output := (Pending.release (y.pending.takeWhile test)).reverse ++ y.output
  pending := y.pending.dropWhile test

/-- A closing parenthesis takes its partner along, if there is one. -/
def step (y : Yard) : Token → Except Failure Yard
  | .number x => .ok { y with output := .number x :: y.output }
  | .leftParen => .ok { y with pending := .paren :: y.pending }
  | .rightParen =>
    let y := y.releaseWhile Pending.isOperator
    .ok { y with pending := y.pending.drop 1 }
  | .operator op =>
    let y := y.releaseWhile (Pending.yieldsTo op)
    .ok { y with pending := .operator op :: y.pending }
  | .unknownOperator symbol => .error (.fault (.unknownOperator symbol))
  | .foreign _ => .error (.misuse .foreignInConversion)

/-- All that waits goes out; parentheses that were never closed are dropped. -/
def finish (y : Yard) : List Token := y.output.reverse ++ Pending.release y.pending

end Yard

/-- The tokens in postfix order. -/
def Token.toPostfix (tokens : List Token) : Except Failure (List Token) :=
  (tokens.foldlM Yard.step {}).map Yard.finish

end Abacus
