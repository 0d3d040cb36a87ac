import Abacus.Operator

/-! # Tokens of an expression -/

namespace Abacus

/-- The symbol of an operator that is none of the four. -/
abbrev UnknownSymbol := { symbol : String // ∀ op : Operator, op.symbol ≠ symbol }

/-- An element of a token list. The tokens proper are numbers, the four operators and parentheses; a
list built by hand may also hold an operator outside the four, or something that is no token. -/
inductive Token where
  | number (value : Float)
  | operator (op : Operator)
  | leftParen
  | rightParen
  | unknownOperator (symbol : UnknownSymbol)
  | foreign (text : String)
deriving DecidableEq, Repr

namespace Token

/-- The operator token with this symbol, whether or not it is one of the four. -/
def ofSymbol (symbol : String) : Token :=
  match h : Operator.ofSymbol? symbol with
  | some op => .operator op
  | none => .unknownOperator ⟨symbol, Operator.ofSymbol?_eq_none_iff.mp h⟩

/-- Numbers, the four operators and parentheses. -/
def isProper : Token → Bool
  | number _ | operator _ | leftParen | rightParen => true
  | unknownOperator _ | foreign _ => false

def symbol : Token → String
  | number value => Notation.answerText value
  | operator op => op.symbol
  | leftParen => "("
  | rightParen => ")"
  | unknownOperator symbol => symbol
  | foreign text => text

def kind : Token → String
  | number _ => "number"
  | operator _ | unknownOperator _ => "operator"
  | leftParen => "lparen"
  | rightParen => "rparen"
  | foreign _ => "foreign"

/-- The symbols in order, one space between two. -/
def render (tokens : List Token) : String := " ".intercalate (tokens.map symbol)

end Token

end Abacus
