import Abacus.Calculator

/-!
# Answer keys of problems

The key of an expression is its value as text. Every riddle has the same key.
-/

namespace Abacus

inductive ProblemType where
  | expression
  | riddle
deriving DecidableEq, Repr

def ProblemType.ofName? : String → Option ProblemType
  | "expression" => some expression
  | "riddle" => some riddle
  | _ => none

inductive Refusal where
  | wrongExpression (text : String)
  | wrongType (name : String)
deriving DecidableEq, Repr

def Refusal.message : Refusal → String
  | wrongExpression text => "Error! Wrong expression (" ++ text ++ ")!"
  | wrongType name => "Error! Wrong type of the problem (" ++ name ++ ")!"

/-- The key of a problem, given the key of riddles. -/
def Calculator.answerKey (c : Calculator) (riddleAnswer typeName text : String) :
    Traced Misuse (Except Refusal String) :=
  match ProblemType.ofName? typeName with
  | none => pure (.error (.wrongType typeName))
  | some .riddle => pure (.ok riddleAnswer)
  | some .expression => do
    match ← c.value? text with
    | none => return .error (.wrongExpression text)
    | some value => return .ok (Notation.answerText value)

end Abacus
