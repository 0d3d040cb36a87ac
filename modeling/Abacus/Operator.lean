import Abacus.Number.Notation

/-! # The four operators -/

namespace Abacus

inductive Operator where
  | add
  | sub
  | mul
  | div
deriving DecidableEq, Repr

namespace Operator

def symbol : Operator → String
  | add => "+"
  | sub => "-"
  | mul => "*"
  | div => "/"

def ofChar? : Char → Option Operator
  | '+' => some add
  | '-' => some sub
  | '*' => some mul
  | '/' => some div
  | _ => none

/-- The symbol of an operator is one character. -/
def ofSymbol? (symbol : String) : Option Operator :=
  match symbol.toList with
  | [c] => ofChar? c
  | _ => none

theorem ofChar?_eq_some_iff {c : Char} {op : Operator} :
    ofChar? c = some op ↔ op.symbol.toList = [c] := by
  constructor
  · intro h
    unfold ofChar? at h
    split at h <;> simp at h <;> subst h <;> rfl
  · intro h
    cases op <;> obtain rfl := (List.cons.inj h).1 <;> rfl

theorem ofSymbol?_eq_some_iff {symbol : String} {op : Operator} :
    ofSymbol? symbol = some op ↔ op.symbol = symbol := by
  rw [← String.toList_inj]
  unfold ofSymbol?
  split
  · rename_i c hc
    rw [hc]
    exact ofChar?_eq_some_iff
  · rename_i hne
    refine ⟨nofun, fun h => ?_⟩
    cases op <;> exact absurd h.symm (hne _)

theorem ofSymbol?_eq_none_iff {symbol : String} :
    ofSymbol? symbol = none ↔ ∀ op : Operator, op.symbol ≠ symbol := by
  simp [Option.eq_none_iff_forall_ne_some, ofSymbol?_eq_some_iff]

/-- The operator with the greater precedence binds tighter. -/
def precedence : Operator → Nat
  | add | sub => 1
  | mul | div => 2

/-- The operator on 64-bit binary numbers, each result rounded once. -/
def apply : Operator → Float → Float → Float
  | add, a, b => a + b
  | sub, a, b => a - b
  | mul, a, b => a * b
  | div, a, b => a / b

/-- Only a division by a zero, of either sign, is undefined. -/
def isUndefined (op : Operator) (divisor : Float) : Bool := op == div && divisor == 0

end Operator

end Abacus
