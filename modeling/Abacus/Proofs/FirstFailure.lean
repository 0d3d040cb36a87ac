import Abacus.Proofs.Readback

/-!
# The first token that fails

A reduction goes from token to token, so the first token that is refused decides how it fails, and
what stands behind that token is never looked at. A run that no token stops is judged by the stack
that it leaves.
-/

namespace Abacus

/-! ## Runs -/

/-- The tokens before the one at `i` pass, and that one fails. -/
def FailsAt (tokens : List Token) (i : Nat) (failure : Failure) : Prop :=
  ∃ m t, Machine.run {} (tokens.take i) = .ok m ∧ tokens[i]? = some t ∧
    m.step t = .error failure

namespace Machine

theorem run_of_failsAt {tokens others : List Token} {i : Nat} {failure : Failure}
    (h : FailsAt tokens i failure) (hsame : others.take (i + 1) = tokens.take (i + 1)) :
    run {} others = .error failure := by
  obtain ⟨m, t, hrun, ht, hstep⟩ := h
  have htake : tokens.take (i + 1) = tokens.take i ++ [t] := by
    rw [List.take_add_one, ht, Option.toList_some]
  rw [← List.take_append_drop (i + 1) others, hsame, htake, run_append, run_append, hrun, ok_bind,
    run_cons, hstep, error_bind, error_bind]

/-- A run that fails does so at one of its tokens. -/
theorem failsAt_of_run {tokens : List Token} {failure : Failure}
    (h : run {} tokens = .error failure) : ∃ i, FailsAt tokens i failure := by
  obtain ⟨first, t, rest, m, rfl, hfirst, hstep⟩ := foldlM_error _ _ _ h
  exact ⟨first.length, m, t, by rwa [List.take_left], by simp, hstep⟩

/-- Each number has put one operand on the stack, and each operator has taken one away. -/
theorem length_stack {tokens : List Token} {m : Machine} (h : run {} tokens = .ok m) :
    (Token.numbers tokens).length = (Token.operators tokens).length + m.stack.length :=
  (run_forest h).length_numbers

end Machine

theorem reduce_of_stack {tokens : List Token} {m : Machine} (h : Machine.run {} tokens = .ok m)
    (strict : Bool) {value : Float} {below : List Float} (hstack : m.stack = value :: below) :
    (Token.reduce strict tokens).outcome =
      if strict ∧ below ≠ [] then .error (.fault (.leftoverOperands below.length))
      else if value.isNaN then .error (.fault .notANumber)
      else .ok ⟨value, m.steps.reverse.map Step.text⟩ := by
  obtain ⟨stack, steps⟩ := m
  simp only at hstack
  subst hstack
  rw [reduce_outcome, h, ok_bind, Machine.finish_outcome]
  split_ifs <;> rfl

/-- The first token that is refused decides the failure of every list that agrees up to it. When no
token is, an empty stack, operands left over in a strict reduction and a value that is no number are
the failures that remain, in this order. -/
theorem reduce_first_failure (tokens : List Token) :
    (∀ i failure, FailsAt tokens i failure ↔
      ∃ m t, Machine.run {} (tokens.take i) = .ok m ∧ tokens[i]? = some t ∧
        Machine.Refusal m.stack t failure) ∧
    (∀ i failure, FailsAt tokens i failure →
      (∀ strict others, others.take (i + 1) = tokens.take (i + 1) →
        (Token.reduce strict others).outcome = .error failure) ∧
      ∀ op height, failure = .fault (.missingOperands op height) →
        height ≤ 1 ∧ (Token.numbers (tokens.take i)).length =
          (Token.operators (tokens.take i)).length + height ∧
        (Fault.missingOperands op height).message =
          "Operator " ++ Text.quoted op.symbol ++ " needs 2 operands, got " ++ toString height) ∧
    ((∀ i failure, ¬ FailsAt tokens i failure) → ∃ m, Machine.run {} tokens = .ok m ∧
      ∀ strict,
        (m.stack = [] → (Token.reduce strict tokens).outcome = .error (.fault .emptyExpression) ∧
          Fault.emptyExpression.message = "Empty expression") ∧
        ∀ value below, m.stack = value :: below →
          (strict = true ∧ below ≠ [] → (Token.reduce strict tokens).outcome =
            .error (.fault (.leftoverOperands below.length))) ∧
          (¬ (strict = true ∧ below ≠ []) → value.isNaN = true →
            (Token.reduce strict tokens).outcome = .error (.fault .notANumber)) ∧
          (¬ (strict = true ∧ below ≠ []) → value.isNaN = false →
            (Token.reduce strict tokens).outcome =
              .ok ⟨value, m.steps.reverse.map Step.text⟩)) := by
  refine ⟨fun i failure => ⟨?_, ?_⟩, ?_, ?_⟩
  · rintro ⟨m, t, hrun, ht, hstep⟩
    exact ⟨m, t, hrun, ht, Machine.refusal_of_step hstep⟩
  · rintro ⟨m, t, hrun, ht, hrefusal⟩
    exact ⟨m, t, hrun, ht, Machine.step_of_refusal hrefusal⟩
  · intro i failure hfails
    refine ⟨fun strict others hsame => ?_, ?_⟩
    · rw [reduce_of_error (Machine.run_of_failsAt hfails hsame), Traced.fail_outcome]
    · intro op height hmissing
      obtain ⟨m, t, hrun, ht, hstep⟩ := hfails
      have hrefusal := Machine.refusal_of_step hstep
      rw [hmissing] at hrefusal
      have hcount := Machine.length_stack hrun
      cases hrefusal with
      | missingOperands op hlt => exact ⟨by omega, hcount, rfl⟩
  · intro hnone
    cases hrun : Machine.run {} tokens with
    | error failure =>
      obtain ⟨i, hfails⟩ := Machine.failsAt_of_run hrun
      exact absurd hfails (hnone i failure)
    | ok m =>
      refine ⟨m, rfl, fun strict => ⟨fun hempty => ⟨?_, rfl⟩, fun value below hstack => ?_⟩⟩
      · rw [reduce_outcome, hrun, ok_bind, Machine.finish, hempty]
        rfl
      · rw [reduce_of_stack hrun strict hstack]
        refine ⟨fun hleft => if_pos hleft, fun hleft hnan => ?_, fun hleft hnan => ?_⟩
        · rw [if_neg hleft, if_pos hnan]
        · rw [if_neg hleft, if_neg (Bool.eq_false_iff.mp hnan)]

end Abacus
