import Abacus.Token
import Abacus.Record
import Abacus.Number.Reading

/-!
# The tokens of a text

The scan goes from left to right. Digits and points gather in a buffer, and any other character ends
the number in it. Layout is passed over, and so is a character that has no meaning, unless the scan
is strict.
-/

namespace Abacus

/-! ## Characters -/

def isNumberChar (c : Char) : Bool := ('0' ≤ c && c ≤ '9') || c == '.'

/-- Layout has no meaning in an expression and is never a fault. -/
def isLayout (c : Char) : Bool := c == ' ' || c == '\t' || c == '\r' || c == '\n'

/-! ## The scan -/

/-- What the scan knows before the next character. The lists have the latest first. -/
structure Scan where
  position : Nat := 0
  /-- Parentheses that are open. -/
  depth : Nat := 0
  buffer : List Char := []
  tokens : List Token := []
  skipped : List (Char × Nat) := []
deriving DecidableEq, Repr

namespace Scan

/-- Ends the number in the buffer, if there is one. -/
def flush (s : Scan) : Scan :=
  match s.buffer with
  | [] => s
  | buffer =>
    { s with buffer := [], tokens := .number (Reading.leadingNumber buffer.reverse) :: s.tokens }

def advance (s : Scan) : Scan := { s with position := s.position + 1 }

def push (t : Token) (s : Scan) : Scan := { s with tokens := t :: s.tokens }

/-- A character that is no part of a number, after the buffer has been emptied. -/
def symbolStep (strict : Bool) (s : Scan) (c : Char) : Except Fault Scan :=
  match Operator.ofChar? c with
  | some op => .ok (s.push (.operator op)).advance
  | none =>
    if c == '(' then .ok { (s.push .leftParen).advance with depth := s.depth + 1 }
    else if c == ')' then
      match s.depth with
      | 0 => .error (.unexpectedClose s.position)
      | depth + 1 => .ok { (s.push .rightParen).advance with depth }
    else if isLayout c then .ok s.advance
    else if strict then .error (.unrecognized c s.position)
    else .ok { s.advance with skipped := (c, s.position) :: s.skipped }

def step (strict : Bool) (s : Scan) (c : Char) : Except Fault Scan :=
  if isNumberChar c then .ok { s.advance with buffer := c :: s.buffer }
  else s.flush.symbolStep strict c

def records (s : Scan) : List Record := s.skipped.reverse.map fun (c, n) => .skipped c n

/-- All parentheses have to be closed at the end. -/
def finish (s : Scan) : Except Fault (List Token) :=
  if s.depth == 0 then .ok s.flush.tokens.reverse else .error (.unclosed s.depth)

def run (strict : Bool) (s : Scan) : List Char → Traced Fault (List Token)
  | [] => ⟨s.records, s.finish⟩
  | c :: cs =>
    match s.step strict c with
    | .ok s' => s'.run strict cs
    | .error fault => ⟨s.records, .error fault⟩

end Scan

def Token.scan (strict : Bool) (text : String) : Traced Fault (List Token) :=
  Scan.run strict {} text.toList

end Abacus
