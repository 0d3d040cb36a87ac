import Abacus.Number.Decimal

/-!
# Numbers as text

Two notations. Answers and tokens write a whole number as its exact digits and any other number as
its shortest decimal. Lists of operands write every number as its shortest decimal, with `.0` after
a whole one.
-/

namespace Abacus.Notation

open Binary

/-- Shortest decimals are positional from 0.0001 up to, not including, 10^16. -/
def isPositional (exponent : Int) : Bool := -4 ≤ exponent && exponent < 16

def zeros (n : Nat) : String := String.ofList (List.replicate n '0')

/-- The digits with the point after `whole` of them; zeros fill up on either side. -/
def positional (digits : String) (whole : Int) : String :=
  if whole ≤ 0 then "0." ++ zeros (-whole).toNat ++ digits
  else if whole < digits.length then
    let (before, after) := digits.toList.splitAt whole.toNat
    String.ofList before ++ "." ++ String.ofList after
  else digits ++ zeros (whole.toNat - digits.length) ++ ".0"

/-- The sign and at least two digits. -/
def exponentText (exponent : Int) : String :=
  let digits := toString exponent.natAbs
  (if exponent < 0 then "-" else "+") ++ (if digits.length < 2 then "0" ++ digits else digits)

/-- One digit before the point, which is left out when no digit follows. -/
def scientific (digits : String) (exponent : Int) : String :=
  let rest := digits.toList.drop 1
  String.ofList (digits.toList.take 1) ++ (if rest.isEmpty then "" else "." ++ String.ofList rest)
    ++ "e" ++ exponentText exponent

def decimalText (d : Decimal) : String :=
  let digits := toString d.digits
  if isPositional d.leadingExponent then positional digits (d.leadingExponent + 1)
  else scientific digits d.leadingExponent

def signText (x : Float) : String := if isNegative x then "-" else ""

/-- Whether the steps make up a whole number. -/
def isWhole (x : Float) : Bool := magnitude x % Nat.pow 2 1074 == 0

/-- The exact digits of a whole number; zero has no sign. -/
def wholeText (x : Float) : String :=
  let n := magnitude x / Nat.pow 2 1074
  if n == 0 then "0" else signText x ++ toString n

/-- The text of a number in answers, steps and tokens. -/
def answerText (x : Float) : String :=
  if x.isNaN then "NaN"
  else if x.isInf then signText x ++ "Infinity"
  else if isWhole x then wholeText x
  else signText x ++ decimalText (Decimal.shortest (code x))

/-- The text of a number in a list of operands. -/
def operandText (x : Float) : String :=
  if x.isNaN then "nan"
  else if x.isInf then signText x ++ "inf"
  else if magnitude x == 0 then signText x ++ "0.0"
  else signText x ++ decimalText (Decimal.shortest (code x))

end Abacus.Notation
