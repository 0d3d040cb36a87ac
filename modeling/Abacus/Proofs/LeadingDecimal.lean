import Mathlib.Algebra.Order.Field.Basic
import Mathlib.Data.Nat.Digits.Defs
import Abacus.Proofs.Rendering

/-!
# The longest leading decimal

What is read of a text is a run of digits and, if a point is next, a second run behind the point.
The digits may be of any script, and what follows them does not matter. The rational that they
stand for is rounded to the nearest number.
-/

namespace Abacus.Reading

open Binary Text

/-! ## Digits -/

theorem zeroDigits_apart : ∀ first ∈ zeroDigits, ∀ other ∈ zeroDigits,
    first = other ∨ first + 10 ≤ other ∨ other + 10 ≤ first := by
  decide +kernel

/-- The digits are the ten characters from each zero on, in the order of their values. -/
theorem digitValue?_eq_some_iff {c : Char} {value : Nat} :
    digitValue? c = some value ↔ value < 10 ∧ ∃ first ∈ zeroDigits, c.toNat = first + value := by
  simp only [digitValue?, Option.map_eq_some_iff]
  constructor
  · rintro ⟨first, hfind, rfl⟩
    have hrun := List.find?_some hfind
    simp only [Bool.and_eq_true, decide_eq_true_eq] at hrun
    exact ⟨by omega, first, List.mem_of_find?_eq_some hfind, by omega⟩
  · rintro ⟨hvalue, first, hfirst, hc⟩
    obtain ⟨found, hfind⟩ : ∃ found, zeroDigits.find?
        (fun start => decide (start ≤ c.toNat) && decide (c.toNat < start + 10)) = some found := by
      refine Option.isSome_iff_exists.mp (List.find?_isSome.mpr ⟨first, hfirst, ?_⟩)
      simp only [Bool.and_eq_true, decide_eq_true_eq]
      omega
    have hrun := List.find?_some hfind
    simp only [Bool.and_eq_true, decide_eq_true_eq] at hrun
    -- Only one run holds the character.
    have hsame := zeroDigits_apart found (List.mem_of_find?_eq_some hfind) first hfirst
    exact ⟨found, hfind, by omega⟩

/-- Of ASCII, the characters from 0 to 9 are digits. -/
theorem digitValue?_ascii {c : Char} (h : c.toNat < 128) :
    digitValue? c = if c.isDigit then some (c.toNat - '0'.toNat) else none := by
  split
  · rename_i hdigit
    exact digitValue?_eq hdigit
  · rename_i hdigit
    refine Option.eq_none_iff_forall_ne_some.mpr fun value hvalue => hdigit ?_
    obtain ⟨hlt, first, hfirst, hc⟩ := digitValue?_eq_some_iff.mp hvalue
    have hothers : ∀ first ∈ zeroDigits, first = 0x30 ∨ 0x660 ≤ first := by decide
    have hcode := hothers first hfirst
    simp only [Char.isDigit, Bool.and_eq_true, decide_eq_true_eq, ge_iff_le,
      UInt32.le_iff_toNat_le]
    change 48 ≤ c.toNat ∧ c.toNat ≤ 57
    omega

/-! ## Runs of digits -/

/-- The text is digits with these values, then the rest, and the rest does not start with a digit. -/
def DigitRun (cs : List Char) (values : List Nat) (rest : List Char) : Prop :=
  ∃ digits, cs = digits ++ rest ∧ digits.map digitValue? = values.map some ∧
    ∀ c ∈ rest.head?, digitValue? c = none

theorem digitRun_leadingDigits (cs : List Char) :
    DigitRun cs (leadingDigits cs).1 (leadingDigits cs).2 := by
  induction cs with
  | nil => exact ⟨[], rfl, rfl, by simp [leadingDigits]⟩
  | cons c cs ih =>
    rw [leadingDigits]
    cases hc : digitValue? c with
    | none => exact ⟨[], rfl, rfl, by simpa using hc⟩
    | some value =>
      obtain ⟨digits, hcs, hvalues, hrest⟩ := ih
      refine ⟨c :: digits, congrArg (c :: ·) hcs, ?_, hrest⟩
      rw [List.map_cons, List.map_cons, hc, hvalues]

theorem leadingDigits_of_digitRun {cs rest : List Char} {values : List Nat}
    (h : DigitRun cs values rest) : leadingDigits cs = (values, rest) := by
  obtain ⟨digits, rfl, hvalues, hrest⟩ := h
  induction digits generalizing values with
  | nil =>
    obtain rfl : values = [] := by simpa using hvalues.symm
    cases rest with
    | nil => rfl
    | cons c rest => rw [List.nil_append, leadingDigits, hrest c rfl]
  | cons c digits ih =>
    cases values with
    | nil => simp at hvalues
    | cons value values =>
      obtain ⟨hc, hdigits⟩ := List.cons.inj hvalues
      rw [List.cons_append, leadingDigits, hc, ih hdigits]

/-- There is one longest run of digits. -/
theorem digitRun_iff {cs rest : List Char} {values : List Nat} :
    DigitRun cs values rest ↔ leadingDigits cs = (values, rest) := by
  refine ⟨leadingDigits_of_digitRun, fun h => ?_⟩
  have hrun := digitRun_leadingDigits cs
  rwa [h] at hrun

/-! ## The leading decimal -/

/-- The longest leading decimal of the text has these digits before its point, and these behind. -/
inductive LeadingDecimal (cs : List Char) : List Nat → List Nat → Prop
  | whole {values : List Nat} {rest : List Char} (hrun : DigitRun cs values rest)
      (hpoint : rest.head? ≠ some '.') : LeadingDecimal cs values []
  | point {whole fraction : List Nat} {rest rest' : List Char}
      (hwhole : DigitRun cs whole ('.' :: rest)) (hfraction : DigitRun rest fraction rest') :
      LeadingDecimal cs whole fraction

theorem leadingDecimal_decimalDigits (cs : List Char) :
    LeadingDecimal cs (decimalDigits cs).1 (decimalDigits cs).2 := by
  unfold decimalDigits
  split
  · rename_i whole rest h
    exact .point (digitRun_iff.mpr h) (digitRun_leadingDigits rest)
  · rename_i whole rest hpoint h
    refine .whole (digitRun_iff.mpr h) fun hhead => ?_
    obtain ⟨rest', rfl⟩ : ∃ rest', rest = '.' :: rest' := List.head?_eq_some_iff.mp hhead
    exact hpoint rest' rfl

theorem leadingDecimal_iff {cs : List Char} {whole fraction : List Nat} :
    LeadingDecimal cs whole fraction ↔ decimalDigits cs = (whole, fraction) := by
  constructor
  · rintro (⟨hrun, hpoint⟩ | ⟨hwhole, hfraction⟩)
    · rw [decimalDigits, digitRun_iff.mp hrun]
      split
      · rename_i heq
        cases heq
        exact absurd rfl hpoint
      · rename_i heq
        cases heq
        rfl
    · rw [decimalDigits, digitRun_iff.mp hwhole]
      simp only [digitRun_iff.mp hfraction]
  · intro h
    have hdecimal := leadingDecimal_decimalDigits cs
    rwa [h] at hdecimal

/-! ## The value of its digits -/

def fractionValue : List Nat → ℚ
  | [] => 0
  | digit :: behind => (digit + fractionValue behind) / 10

/-- The rational with these digits before and behind its point. -/
def decimalValue (whole fraction : List Nat) : ℚ :=
  (Nat.ofDigits 10 whole.reverse : ℕ) + fractionValue fraction

theorem numberOfDigits_eq (digits : List Nat) :
    numberOfDigits digits = Nat.ofDigits 10 digits.reverse := by
  rw [numberOfDigits, Nat.ofDigits_eq_foldr, List.foldr_reverse]
  simp only [Nat.cast_id, add_comm]

theorem numberOfDigits_append (first second : List Nat) :
    numberOfDigits (first ++ second) =
      numberOfDigits first * 10 ^ second.length + numberOfDigits second := by
  rw [numberOfDigits_eq, numberOfDigits_eq, numberOfDigits_eq, List.reverse_append,
    Nat.ofDigits_append, List.length_reverse]
  ring

theorem fractionValue_eq (fraction : List Nat) :
    fractionValue fraction = numberOfDigits fraction / 10 ^ fraction.length := by
  induction fraction with
  | nil => simp [fractionValue, numberOfDigits]
  | cons digit behind ih =>
    have hdigits : numberOfDigits (digit :: behind) =
        digit * 10 ^ behind.length + numberOfDigits behind := by
      have happend := numberOfDigits_append [digit] behind
      rwa [numberOfDigits_eq [digit], List.reverse_singleton, Nat.ofDigits_singleton] at happend
    rw [fractionValue, ih, hdigits, List.length_cons, pow_succ]
    push_cast
    field_simp

theorem decimalValue_eq (whole fraction : List Nat) :
    decimalValue whole fraction =
      numberOfDigits (whole ++ fraction) / 10 ^ fraction.length := by
  rw [decimalValue, fractionValue_eq, ← numberOfDigits_eq, numberOfDigits_append]
  push_cast
  field_simp

theorem decimalValue_nonneg (whole fraction : List Nat) : 0 ≤ decimalValue whole fraction := by
  rw [decimalValue_eq]
  positivity

/-! ## The number that is read -/

theorem roundsTo_ofCode {q : ℚ} (hq : 0 ≤ q) : RoundsTo q (ofCode (nearest q)) := by
  obtain ⟨hcode, hsign⟩ := code_ofCode (nearest_le_infinity q)
  refine (roundsTo_iff q _).mpr ⟨hcode, .inr ?_⟩
  rw [hsign]
  simpa using hq

/-- The longest leading decimal is the only one, and is all that matters. Without a digit it is not
a number. Else it is rounded to the nearest number, whose sign bit is never set. -/
theorem leadingNumber_nearest (cs : List Char) :
    ∃ whole fraction, LeadingDecimal cs whole fraction ∧
      (∀ whole' fraction', LeadingDecimal cs whole' fraction' →
        whole' = whole ∧ fraction' = fraction) ∧
      (∀ cs', LeadingDecimal cs' whole fraction → leadingNumber cs' = leadingNumber cs) ∧
      if whole = [] ∧ fraction = [] then (leadingNumber cs).isNaN = true
      else RoundsTo (decimalValue whole fraction) (leadingNumber cs) ∧
        isNegative (leadingNumber cs) = false := by
  obtain ⟨whole, fraction, hdigits⟩ : ∃ whole fraction, decimalDigits cs = (whole, fraction) :=
    ⟨_, _, rfl⟩
  refine ⟨whole, fraction, leadingDecimal_iff.mpr hdigits, ?_, ?_, ?_⟩
  · intro whole' fraction' h
    have heq := (leadingDecimal_iff.mp h).symm.trans hdigits
    exact Prod.mk.inj heq
  · intro cs' h
    rw [leadingNumber, leadingNumber, leadingDecimal_iff.mp h, hdigits]
  · have hsign := isNegative_leadingNumber cs
    split
    · rename_i hnone
      obtain ⟨rfl, rfl⟩ := hnone
      rw [leadingNumber, hdigits]
      decide +kernel
    · rename_i hsome
      refine ⟨?_, hsign⟩
      have hempty : (whole.isEmpty && fraction.isEmpty) = false := by simpa using hsome
      have hread : leadingNumber cs = ofCode (nearest (decimalValue whole fraction)) := by
        simp only [leadingNumber, hdigits, hempty, Bool.false_eq_true, if_false]
        rw [ofRatio_pow, decimalValue_eq]
      rw [hread]
      exact roundsTo_ofCode (decimalValue_nonneg whole fraction)

example : leadingNumber "३.५.7".toList = 3.5 := by decide +kernel

end Abacus.Reading
