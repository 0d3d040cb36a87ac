/-!
# Binary numbers as whole counts

Every finite number of 64 bits is, up to sign, a whole count of steps of 2^-1074. The low 63 bits
of a number, its *code*, order the magnitudes: a greater code stands for a greater count, and the
code after the greatest finite one is infinity's.
-/

namespace Abacus.Binary

/-! ## Codes and counts -/

/-- Codes below this one are finite. -/
def infinityCode : Nat := 2047 * Nat.pow 2 52

/-- The steps of 2^-1074 in the magnitude with this code. -/
def steps (code : Nat) : Nat :=
  if code < Nat.pow 2 53 then code
  else (Nat.pow 2 52 + code % Nat.pow 2 52) * Nat.pow 2 (code / Nat.pow 2 52 - 1)

/-- The code of a number's magnitude. -/
def code (x : Float) : Nat := x.toBits.toNat % Nat.pow 2 63

def isNegative (x : Float) : Bool := Nat.pow 2 63 ≤ x.toBits.toNat

/-- The number that is positive and has this code. -/
def ofCode (code : Nat) : Float := Float.ofBits (UInt64.ofNat code)

def nan : Float := ofCode (infinityCode + Nat.pow 2 51)

/-- The magnitude in steps, also of an infinity, whose count is the one after the greatest. -/
def magnitude (x : Float) : Nat := steps (code x)

/-! ## Rounding -/

/-- The whole number nearest to `n / d`; a half goes to the even neighbour. -/
def roundHalfEven (n d : Nat) : Nat :=
  let q := n / d
  match compare (2 * (n % d)) d with
  | .lt => q
  | .eq => q + q % 2
  | .gt => q + 1

/-- The code nearest to `n / d` steps; a half goes to the even code, and infinity takes all that
lies beyond the finite codes. Below 2^53 steps every count has a code, and each doubling after
that doubles the gap. -/
def nearestCode (n d : Nat) : Nat :=
  let gap := (n / d).log2 - 52
  min (gap * Nat.pow 2 52 + roundHalfEven n (d * Nat.pow 2 gap)) infinityCode

/-- The number nearest to `n / d`, never negative. -/
def ofRatio (n d : Nat) : Float := ofCode (nearestCode (n * Nat.pow 2 1074) d)

end Abacus.Binary
