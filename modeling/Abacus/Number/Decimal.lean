import Abacus.Number.Binary

/-!
# The shortest decimal of a number

A decimal reads back as a number if the number is the nearest to it. Among the decimals that read
back, the shortest are those on the coarsest grid of powers of ten, and of these the nearest to
the number is chosen.
-/

namespace Abacus

/-- The magnitude `digits * 10 ^ (place - 1074)`. -/
structure Decimal where
  digits : Nat
  place : Nat
deriving DecidableEq, Repr

namespace Decimal

open Binary

/-- One step of 2^-1074 is this many steps of 10^-1074. -/
def stepSize : Nat := Nat.pow 5 1074

/-- The code that the decimal reads back as. -/
def code (d : Decimal) : Nat := nearestCode (d.digits * Nat.pow 10 d.place) stepSize

/-- The power of ten of the first digit. -/
def leadingExponent (d : Decimal) : Int := (toString d.digits).length - 1 + d.place - 1074

/-! ## Choice of digits -/

/-- The nearest to `w` steps of 10^-1074 on the grid of `10 ^ place` among the two neighbours of `w`
that read back as `c`; a half goes to the even neighbour. -/
def onGrid? (c w place : Nat) : Option Decimal :=
  let low : Decimal := ⟨w / Nat.pow 10 place, place⟩
  let high : Decimal := ⟨w / Nat.pow 10 place + 1, place⟩
  if low.code = c then
    some (if high.code = c then ⟨roundHalfEven w (Nat.pow 10 place), place⟩ else low)
  else if high.code = c then some high
  else none

/-- The first grid that has a decimal, from `10 ^ place` to finer ones. The finest holds every count
of steps. -/
def search (c w : Nat) : Nat → Decimal
  | 0 => ⟨w, 0⟩
  | place + 1 => (onGrid? c w (place + 1)).getD (search c w place)

/-- A grid coarser than `w`: its step is more than five times as large. -/
def coarsestPlace (w : Nat) : Nat := w.log2 * 30103 / 100000 + 2

/-- The shortest decimal that reads back as the code, and of these the nearest. -/
def shortest (c : Nat) : Decimal :=
  let w := steps c * stepSize
  search c w (coarsestPlace w)

end Decimal

end Abacus
