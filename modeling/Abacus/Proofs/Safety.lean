import Abacus.Proofs.Conservation
import Abacus.Proofs.Evaluation

/-!
# What can go wrong

A stage relies on what the stage before it gives. Hence the calculator of this library's own stages
always answers, and the faults it reports are those of scans and of reductions.
-/

namespace Abacus

namespace Fault

/-- The faults that a scan finds. -/
def OfScan (strict : Bool) : Fault → Prop
  | unexpectedClose _ | unclosed _ => True
  | unrecognized _ _ => strict
  | _ => False

/-- The faults that a reduction of numbers and operators finds. -/
def OfReduction : Fault → Prop
  | missingOperands _ _ | divisionByZero | emptyExpression | leftoverOperands _ | notANumber => True
  | _ => False

theorem OfScan.kind {strict : Bool} {fault : Fault} (h : fault.OfScan strict) :
    fault.kind = .unbalancedParentheses ∨ strict ∧ fault.kind = .unrecognizedCharacter := by
  cases fault <;> simp_all [OfScan, Fault.kind]

theorem OfReduction.kind {fault : Fault} (h : fault.OfReduction) :
    fault.kind = .invalidPostfix ∨ fault.kind = .divisionByZero ∨ fault.kind = .notANumber := by
  cases fault <;> simp_all [OfReduction, Fault.kind]

end Fault

theorem scan_ofScan {strict : Bool} {text : String} {fault : Fault}
    (h : (Token.scan strict text).outcome = .error fault) : fault.OfScan strict := by
  rcases scan_error h with ⟨position, rfl⟩ | ⟨count, rfl⟩ | ⟨hstrict, c, position, rfl⟩
  · trivial
  · trivial
  · exact hstrict

/-! ## Closing parentheses in the yard -/

/-- The partner of each closing parenthesis waits right below the operators that it releases. -/
def PartnersWait (tokens : List Token) : Prop :=
  ∀ first rest, tokens = first ++ .rightParen :: rest → ∃ y below,
    first.foldlM Yard.step {} = .ok y ∧
    (y.releaseWhile Pending.isOperator).pending = .paren :: below

theorem partnersWait {tokens : List Token} (hproper : ∀ t ∈ tokens, t.isProper)
    (h : Nested 0 tokens) : PartnersWait tokens := by
  rintro first rest rfl
  rw [List.forall_mem_append] at hproper
  have hdepth := Yard.depth_foldl first {} h.front
  -- The tokens before leave a parenthesis open, and releasing operators keeps it.
  have hbehind := h.behind hdepth
  rw [nested_rightParen] at hbehind
  obtain ⟨below, hp⟩ := Yard.releaseWhile_isOperator_paren _ hbehind.1
  exact ⟨_, below, Yard.foldlM_step first {} hproper.1, hp⟩

/-! ## Numbers and operators on the machine -/

/-- Each operator finds two operands, or the run stops at it. -/
def OperandsChecked (tokens : List Token) : Prop :=
  ∀ first op rest m, tokens = first ++ .operator op :: rest → Machine.run {} first = .ok m →
    (∃ a b below, m.stack = b :: a :: below) ∨
      Machine.run {} tokens = .error (.fault (.missingOperands op m.stack.length))

theorem operandsChecked (tokens : List Token) : OperandsChecked tokens := by
  rintro first op rest m rfl hrun
  rcases Machine.step_operator_cases m op with htwo | ⟨-, herr⟩
  · exact .inl htwo
  · right
    rw [Machine.run_append, hrun, ok_bind, Machine.run_cons, herr, error_bind]

theorem Machine.step_ofReduction {m : Machine} {t : Token} {failure : Failure} (ht : t.isPostfix)
    (h : m.step t = .error failure) : ∃ fault, failure = .fault fault ∧ fault.OfReduction := by
  cases refusal_of_step h with
  | missingOperands op hlt => exact ⟨_, rfl, trivial⟩
  | divisionByZero a b below hs hzero => exact ⟨_, rfl, trivial⟩
  | unknownOperator symbol => simp [Token.isPostfix] at ht
  | leftParen => simp [Token.isPostfix] at ht
  | rightParen => simp [Token.isPostfix] at ht
  | foreign text => simp [Token.isPostfix] at ht

theorem Machine.finish_ofReduction {strict : Bool} {m : Machine} {fault : Fault}
    (h : (m.finish strict).outcome = .error fault) : fault.OfReduction := by
  obtain ⟨stack, steps⟩ := m
  match stack with
  | [] =>
    obtain rfl := Except.error.inj h
    trivial
  | value :: below =>
    rw [finish_outcome] at h
    split_ifs at h <;> obtain rfl := Except.error.inj h <;> trivial

theorem reduce_ofReduction {strict : Bool} {tokens : List Token} {failure : Failure}
    (ht : ∀ t ∈ tokens, t.isPostfix) (h : (Token.reduce strict tokens).outcome = .error failure) :
    ∃ fault, failure = .fault fault ∧ fault.OfReduction := by
  rw [reduce_outcome] at h
  cases hrun : Machine.run {} tokens with
  | error other =>
    rw [hrun, error_bind] at h
    obtain rfl := Except.error.inj h
    obtain ⟨first, t, rest, m, rfl, -, hstep⟩ := foldlM_error _ _ _ hrun
    exact Machine.step_ofReduction (ht t (by simp)) hstep
  | ok m =>
    rw [hrun, ok_bind] at h
    cases hfinish : (m.finish strict).outcome with
    | error fault =>
      rw [hfinish, mapError_error] at h
      exact ⟨fault, (Except.error.inj h).symm, Machine.finish_ofReduction hfinish⟩
    | ok e => simp [hfinish] at h

/-! ## The calculator -/

theorem evaluate_fault {strictOperands strictCharacters : Bool} {text : String} {failure : Failure}
    (h : ((Calculator.standard strictOperands strictCharacters).evaluate text).outcome =
      .error failure) :
    ∃ fault, failure = .fault fault ∧ (fault.OfScan strictCharacters ∨ fault.OfReduction) := by
  rw [standard_outcome] at h
  cases hscan : (Token.scan strictCharacters text).outcome with
  | error fault =>
    rw [hscan] at h
    exact ⟨fault, (Except.error.inj h).symm, .inl (scan_ofScan hscan)⟩
  | ok tokens =>
    rw [hscan, mapError_ok, ok_bind, toPostfix_eq _ (isProper_of_scan hscan), ok_bind] at h
    obtain ⟨fault, rfl, hfault⟩ := reduce_ofReduction (isPostfix_postfixFrom tokens) h
    exact ⟨fault, rfl, .inr hfault⟩

theorem attempt_ok {c : Calculator} {text : String}
    (h : ∀ failure, (c.evaluate text).outcome = .error failure → ∃ fault, failure = .fault fault) :
    ∃ result, (c.attempt text).outcome = .ok result := by
  rw [Calculator.attempt_outcome]
  cases he : (c.evaluate text).outcome with
  | ok e => exact ⟨.ok e, rfl⟩
  | error failure =>
    obtain ⟨fault, rfl⟩ := h failure he
    exact ⟨.error fault, rfl⟩

theorem standard_attempt_ok (strictOperands strictCharacters : Bool) (text : String) :
    ∃ result, ((Calculator.standard strictOperands strictCharacters).attempt text).outcome =
      .ok result := by
  apply attempt_ok
  intro failure h
  obtain ⟨fault, rfl, -⟩ := evaluate_fault h
  exact ⟨fault, rfl⟩

theorem standard_explain_ok (strictOperands strictCharacters : Bool) (text : String) :
    ∃ o, ((Calculator.standard strictOperands strictCharacters).explain text).outcome = .ok o := by
  obtain ⟨result, hresult⟩ := standard_attempt_ok strictOperands strictCharacters text
  rw [Calculator.explain_outcome, hresult]
  exact ⟨_, rfl⟩

/-- The calculator answers every text, and what it reports is a fault of the scan or of the
reduction. The tokens of a text have their parentheses in pairs, and proper tokens of any kind come
out of the yard as numbers and operators, so that the other faults are out of reach. -/
theorem standard_safe (strictOperands strictCharacters : Bool) (text : String) :
    (∃ value, ((Calculator.standard strictOperands strictCharacters).value? text).outcome =
        .ok value) ∧
      (∃ outcome, ((Calculator.standard strictOperands strictCharacters).explain text).outcome =
        .ok outcome) ∧
      (∃ value, (Calculator.lax.value? text).outcome = .ok value) ∧
      (∀ failure, ((Calculator.standard strictOperands strictCharacters).evaluate text).outcome =
        .error failure → ∃ fault, failure = .fault fault ∧
          (fault.OfScan strictCharacters ∨ fault.OfReduction) ∧
          fault.kind ∈ [.unbalancedParentheses, .unrecognizedCharacter, .divisionByZero,
            .invalidPostfix, .notANumber] ∧
          (fault.kind = .unrecognizedCharacter → strictCharacters)) ∧
      (∀ tokens, (Token.scan strictCharacters text).outcome = .ok tokens →
        (∀ t ∈ tokens, t.isProper) ∧ PartnersWait tokens) ∧
      ∀ tokens : List Token, (∀ t ∈ tokens, t.isProper) → ∃ p, Token.toPostfix tokens = .ok p ∧
        (∀ t ∈ p, t.isPostfix) ∧ OperandsChecked p ∧
        ∀ strict failure, (Token.reduce strict p).outcome = .error failure →
          ∃ fault, failure = .fault fault ∧ fault.OfReduction := by
  obtain ⟨result, hresult⟩ := standard_attempt_ok strictOperands strictCharacters text
  obtain ⟨laxResult, hlax⟩ := standard_attempt_ok false false text
  refine ⟨?_, ?_, ?_, ?_, ?_, ?_⟩
  · rw [Calculator.value?_outcome, hresult]
    exact ⟨_, rfl⟩
  · rw [Calculator.explain_outcome, hresult]
    exact ⟨_, rfl⟩
  · rw [Calculator.value?_outcome, Calculator.lax, hlax]
    exact ⟨_, rfl⟩
  · intro failure h
    obtain ⟨fault, rfl, hfault⟩ := evaluate_fault h
    refine ⟨fault, rfl, hfault, ?_⟩
    rcases hfault with hfault | hfault
    · rcases hfault.kind with hkind | ⟨hstrict, hkind⟩
      · simp [hkind]
      · simp [hkind, hstrict]
    · rcases hfault.kind with hkind | hkind | hkind <;> simp [hkind]
  · intro tokens hscan
    have hproper := isProper_of_scan hscan
    exact ⟨hproper, partnersWait hproper (scan_sound hscan).2.nested⟩
  · intro tokens hproper
    exact ⟨_, toPostfix_eq tokens hproper, isPostfix_postfixFrom tokens, operandsChecked _,
      fun strict failure h => reduce_ofReduction (isPostfix_postfixFrom tokens) h⟩

end Abacus
