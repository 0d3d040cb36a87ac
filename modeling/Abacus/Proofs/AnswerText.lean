import Abacus.Number.Notation

/-!
# The text of a number

The text of a finite number is made of digits and the marks of a decimal, so it is never one of the
words for the other numbers.
-/

namespace Abacus.Notation

/-! ## Kinds of numbers -/

theorem float_cases (x : Float) :
    x.isNaN = true ∧ x.isInf = false ∧ x.isFinite = false ∨
      x.isNaN = false ∧ x.isInf = true ∧ x.isFinite = false ∨
      x.isNaN = false ∧ x.isInf = false ∧ x.isFinite = true := by
  unfold Float.isNaN Float.isInf Float.isFinite Float.Model.isNaN Float.Model.isInf
    Float.Model.isFinite
  cases x.toModel.unpack with
  | infinity sign => exact .inr (.inl ⟨rfl, rfl, rfl⟩)
  | notANumber => exact .inl ⟨rfl, rfl, rfl⟩
  | zero sign => exact .inr (.inr ⟨rfl, rfl, rfl⟩)
  | finite sign mantissa exponent h => exact .inr (.inr ⟨rfl, rfl, rfl⟩)

/-! ## Characters of a decimal -/

def isDecimalChar (c : Char) : Bool := c.isDigit || ['.', 'e', '+', '-'].contains c

/-- Only digits and the marks of a decimal stand in the text. -/
def DecimalChars (text : String) : Prop := ∀ c ∈ text.toList, isDecimalChar c

instance (text : String) : Decidable (DecimalChars text) :=
  decidable_of_iff (text.toList.all isDecimalChar = true) List.all_eq_true

theorem DecimalChars.append {first second : String} (h₁ : DecimalChars first)
    (h₂ : DecimalChars second) : DecimalChars (first ++ second) := by
  intro c hc
  rw [String.toList_append, List.mem_append] at hc
  rcases hc with hc | hc
  · exact h₁ c hc
  · exact h₂ c hc

theorem DecimalChars.sublist {text : String} (h : DecimalChars text) {cs : List Char}
    (hcs : cs.Sublist text.toList) : DecimalChars (String.ofList cs) := by
  intro c hc
  rw [String.toList_ofList] at hc
  exact h c (hcs.subset hc)

theorem decimalChars_toString (n : Nat) : DecimalChars (toString n) := by
  intro c hc
  rw [Nat.toString_eq_ofList_toDigits, String.toList_ofList] at hc
  simp [isDecimalChar, Nat.isDigit_of_mem_toDigits (by omega) (by omega) hc]

theorem decimalChars_zeros (n : Nat) : DecimalChars (zeros n) := by
  intro c hc
  rw [zeros, String.toList_ofList] at hc
  rw [List.eq_of_mem_replicate hc]
  rfl

theorem decimalChars_signText (x : Float) : DecimalChars (signText x) := by
  unfold signText
  split <;> decide

theorem decimalChars_positional {digits : String} (h : DecimalChars digits) (whole : Int) :
    DecimalChars (positional digits whole) := by
  unfold positional
  split
  · exact ((by decide : DecimalChars "0.").append (decimalChars_zeros _)).append h
  · split
    · have hbefore := h.sublist (List.take_sublist whole.toNat digits.toList)
      have hafter := h.sublist (List.drop_sublist whole.toNat digits.toList)
      simpa [List.splitAt_eq] using
        (hbefore.append (by decide : DecimalChars ".")).append hafter
    · exact (h.append (decimalChars_zeros _)).append (by decide : DecimalChars ".0")

theorem decimalChars_exponentText (exponent : Int) : DecimalChars (exponentText exponent) := by
  have hdigits := decimalChars_toString exponent.natAbs
  unfold exponentText
  refine DecimalChars.append ?_ ?_
  · split <;> decide
  · split
    · exact (by decide : DecimalChars "0").append hdigits
    · exact hdigits

theorem decimalChars_scientific {digits : String} (h : DecimalChars digits) (exponent : Int) :
    DecimalChars (scientific digits exponent) := by
  have hfirst := h.sublist (List.take_sublist 1 digits.toList)
  have hrest := h.sublist (List.drop_sublist 1 digits.toList)
  have hfraction : DecimalChars (if (digits.toList.drop 1).isEmpty then ""
      else "." ++ String.ofList (digits.toList.drop 1)) := by
    split
    · decide
    · exact (by decide : DecimalChars ".").append hrest
  unfold scientific
  exact ((hfirst.append hfraction).append (by decide : DecimalChars "e")).append
    (decimalChars_exponentText exponent)

theorem decimalChars_decimalText (d : Decimal) : DecimalChars (decimalText d) := by
  have hdigits := decimalChars_toString d.digits
  unfold decimalText
  simp only
  split
  · exact decimalChars_positional hdigits _
  · exact decimalChars_scientific hdigits _

/-! ## Answers -/

theorem answerText_isInf {x : Float} (h : x.isInf = true) :
    answerText x = "Infinity" ∨ answerText x = "-Infinity" := by
  have hnan : x.isNaN = false := by
    rcases float_cases x with ⟨-, hinf, -⟩ | ⟨hnan, -⟩ | ⟨hnan, -⟩
    · simp [h] at hinf
    · exact hnan
    · exact hnan
  unfold answerText signText
  rw [if_neg (Bool.eq_false_iff.mp hnan), if_pos h]
  split
  · exact .inr rfl
  · exact .inl rfl

theorem decimalChars_answerText {x : Float} (h : x.isFinite = true) :
    DecimalChars (answerText x) := by
  obtain ⟨hnan, hinf⟩ : x.isNaN = false ∧ x.isInf = false := by
    rcases float_cases x with ⟨-, -, hfin⟩ | ⟨-, -, hfin⟩ | ⟨hnan, hinf, -⟩
    · simp [h] at hfin
    · simp [h] at hfin
    · exact ⟨hnan, hinf⟩
  unfold answerText wholeText
  rw [if_neg (Bool.eq_false_iff.mp hnan), if_neg (Bool.eq_false_iff.mp hinf)]
  simp only
  split
  · split
    · decide
    · exact (decimalChars_signText x).append (decimalChars_toString _)
  · exact (decimalChars_signText x).append (decimalChars_decimalText _)

/-- Only what is no number is told as such. -/
theorem answerText_eq_nan_iff (x : Float) : answerText x = "NaN" ↔ x.isNaN = true := by
  constructor
  · intro h
    rcases float_cases x with ⟨hnan, -⟩ | ⟨-, hinf, -⟩ | ⟨-, -, hfin⟩
    · exact hnan
    · rcases answerText_isInf hinf with hx | hx <;> simp [h] at hx
    · have hchars := decimalChars_answerText hfin
      rw [h] at hchars
      exact absurd hchars (by decide)
  · intro h
    unfold answerText
    rw [if_pos h]

end Abacus.Notation
