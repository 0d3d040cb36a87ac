import Abacus.Operator
import Abacus.Text.Quoted

/-!
# Faults of an expression

A fault says why an expression has no value. Its kind has a code that stays the same; its message
names the place.
-/

namespace Abacus

inductive FaultKind where
  | unbalancedParentheses
  | unrecognizedCharacter
  | divisionByZero
  | invalidPostfix
  | unknownOperator
  | notANumber
  | unspecified
deriving DecidableEq, Repr

def FaultKind.code : FaultKind → String
  | unbalancedParentheses => "UNBALANCED_PARENTHESES"
  | unrecognizedCharacter => "UNRECOGNIZED_CHARACTER"
  | divisionByZero => "DIVISION_BY_ZERO"
  | invalidPostfix => "INVALID_POSTFIX"
  | unknownOperator => "UNKNOWN_OPERATOR"
  | notANumber => "NOT_A_NUMBER"
  | unspecified => "EXPRESSION_ERROR"

inductive Fault where
  /-- A closing parenthesis without an opening one before it. -/
  | unexpectedClose (position : Nat)
  /-- Opening parentheses without a closing one. -/
  | unclosed (count : Nat)
  | unrecognized (character : Char) (position : Nat)
  | unknownOperator (symbol : String)
  /-- A parenthesis in a postfix list. -/
  | unexpectedToken (symbol : String)
  | missingOperands (op : Operator) (available : Nat)
  | divisionByZero
  | emptyExpression
  /-- Operands left on the stack below the value. -/
  | leftoverOperands (count : Nat)
  | notANumber
  /-- A fault of a stage that was supplied from outside, in its own words. -/
  | reported (kind : FaultKind) (message : String)
deriving DecidableEq, Repr

namespace Fault

def kind : Fault → FaultKind
  | unexpectedClose _ | unclosed _ => .unbalancedParentheses
  | unrecognized _ _ => .unrecognizedCharacter
  | unknownOperator _ => .unknownOperator
  | unexpectedToken _ | missingOperands _ _ => .invalidPostfix
  | emptyExpression | leftoverOperands _ => .invalidPostfix
  | divisionByZero => .divisionByZero
  | notANumber => .notANumber
  | reported kind _ => kind

def message : Fault → String
  | unexpectedClose position =>
    "Mismatched parentheses: unexpected ')' at position " ++ toString position
  | unclosed count => "Mismatched parentheses: " ++ toString count ++ " unclosed '('"
  | unrecognized character position =>
    "Unrecognized character " ++ Text.quoted (String.singleton character)
      ++ " at position " ++ toString position
  | unknownOperator symbol => "Unknown operator: " ++ Text.quoted symbol
  | unexpectedToken symbol => "Unexpected token in postfix: " ++ Text.quoted symbol
  | missingOperands op available =>
    "Operator " ++ Text.quoted op.symbol ++ " needs 2 operands, got " ++ toString available
  | divisionByZero => "Division by zero"
  | emptyExpression => "Empty expression"
  | leftoverOperands count => toString count ++ " operand(s) left without an operator"
  | notANumber => "Expression evaluated to NaN"
  | reported _ message => message

def code (fault : Fault) : String := fault.kind.code

end Fault

/-- A failure that is not the expression's. -/
inductive Misuse where
  | foreignInConversion
  | foreignInReduction
  /-- A stage that was supplied from outside broke down, in its own words. -/
  | stage (report : String)
deriving DecidableEq, Repr

inductive Failure where
  | fault (fault : Fault)
  | misuse (misuse : Misuse)
deriving DecidableEq, Repr

end Abacus
