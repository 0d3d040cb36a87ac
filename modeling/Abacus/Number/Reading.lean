import Abacus.Number.Binary
import Abacus.Text.Digit

/-!
# Numbers read from text

The longest leading form `digits`, `digits.`, `digits.digits` or `.digits` is read, with digits of
any script, and the number nearest to it is the value. Without a digit the value is not a number.
-/

namespace Abacus.Reading

open Text

def decimalDigits (cs : List Char) : List Nat × List Nat :=
  match leadingDigits cs with
  | (whole, '.' :: rest) => (whole, (leadingDigits rest).1)
  | (whole, _) => (whole, [])

/-- The number nearest to the leading decimal of a text. -/
def leadingNumber (cs : List Char) : Float :=
  let (whole, fraction) := decimalDigits cs
  if whole.isEmpty && fraction.isEmpty then Binary.nan
  else Binary.ofRatio (numberOfDigits (whole ++ fraction)) (Nat.pow 10 fraction.length)

/-- The number nearest to `digits * 10 ^ exponent`. Exponents out of all range are not computed. -/
def scientific (digits : Nat) (exponent : Int) : Float :=
  if digits == 0 || exponent < -400 - digits.log2 then Binary.ofCode 0
  else if 400 < exponent then Binary.ofCode Binary.infinityCode
  else Binary.ofRatio (digits * Nat.pow 10 exponent.toNat) (Nat.pow 10 (-exponent).toNat)

end Abacus.Reading
