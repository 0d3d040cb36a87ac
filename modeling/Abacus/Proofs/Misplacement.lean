import Abacus.Proofs.Evaluation
import Abacus.Proofs.Forest

/-!
# Misplaced operands and operators

A strict calculator counts operands and does not look at where they stand. So an operator without an
operand passes if two operands meet elsewhere, and only then.
-/

namespace Abacus

theorem missing_eq_of_postorder {tokens : List Token} {t : Tree}
    (hproper : ∀ u ∈ tokens, u.isProper) (h : Token.toPostfix tokens = .ok t.postorder) :
    missingOperators tokens = missingOperands tokens := by
  rw [toPostfix_eq _ hproper] at h
  have hordered := Except.ok.inj h
  have hnumbers := congrArg List.length (numbers_postfixFrom tokens)
  have hoperators := (operators_postfixFrom tokens).length_eq
  rw [hordered] at hnumbers hoperators
  -- The yard keeps both counts, and a tree has one leaf more than it has inner nodes.
  have htree := t.length_numbers
  have hbalance := missing_balance tokens hproper
  omega

/-- What a strict calculator accepts is a tree in postfix order. It is an expression of the grammar
if no operator is missing; otherwise as many operands are missing. -/
theorem evaluate_strict {text : String} {e : Evaluation}
    (h : ((Calculator.standard true true).evaluate text).outcome = .ok e) :
    ∃ tokens, (Token.scan true text).outcome = .ok tokens ∧
      missingOperators tokens = missingOperands tokens ∧
      (Derivable tokens ↔ missingOperators tokens = 0) ∧
      ∃ t : Tree, Token.toPostfix tokens = .ok t.postorder ∧ t.evaluation = .ok e := by
  rw [standard_outcome] at h
  obtain ⟨tokens, hscan, h⟩ := bind_eq_ok h
  obtain ⟨postfixTokens, hordered, hreduce⟩ := bind_eq_ok h
  have hscan := mapError_eq_ok hscan
  obtain ⟨hlex, hbalanced⟩ := scan_sound hscan
  obtain ⟨t, rfl, he⟩ := (reduce_strict_iff _ _).mp hreduce
  have hmissing := missing_eq_of_postorder (isProper_of_scan hscan) hordered
  refine ⟨tokens, hscan, hmissing, ?_, t, hordered, he⟩
  rw [derivable_iff tokens hlex hbalanced, ← hmissing, and_self]

theorem evaluate_strict_swapped :
    ∃ e, ((Calculator.standard true true).evaluate "1 (+ 2)").outcome = .ok e ∧
      ∃ tokens, (Token.scan true "1 (+ 2)").outcome = .ok tokens ∧
        missingOperators tokens = missingOperands tokens ∧
        (Derivable tokens ↔ missingOperators tokens = 0) ∧
        ∃ t : Tree, Token.toPostfix tokens = .ok t.postorder ∧ t.evaluation = .ok e := by
  have hok : ((Calculator.standard true true).evaluate "1 (+ 2)").outcome.isOk = true := by
    decide +kernel
  cases h : ((Calculator.standard true true).evaluate "1 (+ 2)").outcome with
  | error failure =>
    rw [h] at hok
    cases hok
  | ok e => exact ⟨e, rfl, evaluate_strict h⟩

/-- A sign in front of a sum is accepted where a number follows without an operator. -/
theorem evaluate_sign :
    ((Calculator.standard true true).evaluate "+ 1 2").outcome.isOk = true ∧
      ¬ ∃ tokens, (Token.scan true "+ 1 2").outcome = .ok tokens ∧ Derivable tokens := by
  refine ⟨by decide +kernel, ?_⟩
  rintro ⟨tokens, hscan, d, rfl⟩
  obtain hfirst : d.tokens.head? = some (.operator .add) := by
    rw [← Except.ok.inj hscan]
    rfl
  have hfits := d.isChain_fits .leftParen .rightParen rfl rfl
  obtain ⟨rest, hrest⟩ := List.head?_eq_some_iff.mp hfirst
  rw [hrest] at hfits
  simp [Fits] at hfits

end Abacus
