import Abacus.AnswerKey
import Abacus.Proofs.AnswerText
import Abacus.Proofs.Evaluation

/-!
# The entry points of a calculator

Whatever stages a calculator has, its value, its explanation and its answer keys tell the same of an
expression, and all of them follow from its evaluation.
-/

namespace Abacus

namespace Outcome

/-! ## What an outcome tells -/

/-- The outcome tells an evaluation and no fault. -/
structure Tells (o : Outcome) (e : Evaluation) : Prop where
  ok : o.ok = true
  value : o.value? = some e.value
  answer : o.answer? = some (Notation.answerText e.value)
  steps : o.steps = e.steps
  errorCode : o.errorCode? = none

/-- The outcome tells the code of a fault and nothing else. -/
structure TellsFault (o : Outcome) (fault : Fault) : Prop where
  ok : o.ok = false
  value : o.value? = none
  answer : o.answer? = none
  steps : o.steps = []
  errorCode : o.errorCode? = some fault.code

/-- A value, its text and a code are there or not as the outcome is good or not. -/
structure Coherent (o : Outcome) : Prop where
  value : o.ok = true ↔ o.value?.isSome
  answer : o.ok = true ↔ o.answer?.isSome
  errorCode : o.ok = true ↔ o.errorCode? = none
  isNumber : o.answer? ≠ some "NaN"

theorem tells_ok (expression : String) (e : Evaluation) : Tells ⟨expression, .ok e⟩ e :=
  ⟨rfl, rfl, rfl, rfl, rfl⟩

theorem tellsFault_error (expression : String) (fault : Fault) :
    TellsFault ⟨expression, .error fault.kind⟩ fault :=
  ⟨rfl, rfl, rfl, rfl, rfl⟩

theorem Tells.coherent {o : Outcome} {e : Evaluation} (h : o.Tells e)
    (hnan : e.value.isNaN = false) : o.Coherent where
  value := by simp [h.ok, h.value]
  answer := by simp [h.ok, h.answer]
  errorCode := by simp [h.ok, h.errorCode]
  isNumber := by
    intro htext
    rw [h.answer, Option.some_inj, Notation.answerText_eq_nan_iff, hnan] at htext
    cases htext

theorem TellsFault.coherent {o : Outcome} {fault : Fault} (h : o.TellsFault fault) :
    o.Coherent where
  value := by simp [h.ok, h.value]
  answer := by simp [h.ok, h.answer]
  errorCode := by simp [h.ok, h.errorCode]
  isNumber := by simp [h.answer]

end Outcome

/-! ## Types of problems -/

theorem ProblemType.ofName?_cases (name : String) :
    name = "expression" ∧ ProblemType.ofName? name = some .expression ∨
      name = "riddle" ∧ ProblemType.ofName? name = some .riddle ∨
      (name ≠ "expression" ∧ name ≠ "riddle") ∧ ProblemType.ofName? name = none := by
  unfold ProblemType.ofName?
  split
  · exact .inl ⟨rfl, rfl⟩
  · exact .inr (.inl ⟨rfl, rfl⟩)
  · rename_i hexpression hriddle
    exact .inr (.inr ⟨⟨hexpression, hriddle⟩, rfl⟩)

namespace Calculator

/-! ## Evaluation by any stages -/

theorem evaluate_outcome (c : Calculator) (text : String) :
    (c.evaluate text).outcome =
      (c.tokenize text).outcome >>= fun tokens =>
        (c.toPostfix tokens).outcome >>= fun postfixTokens =>
          (c.reduce postfixTokens).outcome >>= fun e =>
            if e.value.isNaN then .error (.fault .notANumber) else .ok e := by
  unfold evaluate
  simp only [Traced.bind_outcome]
  refine congrArg _ (funext fun tokens => congrArg _ (funext fun postfixTokens =>
    congrArg _ (funext fun e => ?_)))
  split <;> rfl

/-- A value that is no number never leaves the calculator, whoever reduced to it. -/
theorem evaluate_isNaN {c : Calculator} {text : String} {e : Evaluation}
    (h : (c.evaluate text).outcome = .ok e) : e.value.isNaN = false := by
  rw [evaluate_outcome] at h
  obtain ⟨tokens, -, h⟩ := bind_eq_ok h
  obtain ⟨postfixTokens, -, h⟩ := bind_eq_ok h
  obtain ⟨e', -, h⟩ := bind_eq_ok h
  split at h
  · cases h
  · rename_i hnan
    obtain rfl := Except.ok.inj h
    simpa using hnan

theorem evaluate_notANumber {c : Calculator} {text : String} {tokens postfixTokens : List Token}
    {e : Evaluation} (htokens : (c.tokenize text).outcome = .ok tokens)
    (hconverted : (c.toPostfix tokens).outcome = .ok postfixTokens)
    (hreduce : (c.reduce postfixTokens).outcome = .ok e) (hnan : e.value.isNaN = true) :
    (c.evaluate text).outcome = .error (.fault .notANumber) := by
  rw [evaluate_outcome, htokens, ok_bind, hconverted, ok_bind, hreduce, ok_bind, if_pos hnan]

/-! ## Keys -/

theorem answerKey_unknown {name : String} (h : ProblemType.ofName? name = none) (c : Calculator)
    (riddleAnswer text : String) :
    (c.answerKey riddleAnswer name text).outcome = .ok (.error (.wrongType name)) := by
  unfold answerKey
  rw [h]
  rfl

theorem answerKey_expression (c : Calculator) (riddleAnswer text : String) :
    (c.answerKey riddleAnswer "expression" text).outcome =
      (c.value? text).outcome.map fun value? =>
        match value? with
        | none => .error (.wrongExpression text)
        | some value => .ok (Notation.answerText value) := by
  unfold answerKey
  simp only [ProblemType.ofName?, Traced.bind_outcome]
  cases (c.value? text).outcome with
  | error misuse => rfl
  | ok value? => cases value? <;> rfl

/-! ## Agreement -/

theorem explain_coherent {c : Calculator} {text : String} {o : Outcome}
    (h : (c.explain text).outcome = .ok o) : o.Coherent := by
  rw [explain_outcome, attempt_outcome] at h
  match he : (c.evaluate text).outcome with
  | .ok e =>
    rw [he] at h
    obtain rfl := Except.ok.inj h
    exact (Outcome.tells_ok text e).coherent (evaluate_isNaN he)
  | .error (.fault fault) =>
    rw [he] at h
    obtain rfl := Except.ok.inj h
    exact (Outcome.tellsFault_error text fault).coherent
  | .error (.misuse misuse) =>
    rw [he] at h
    cases h

theorem value?_of_explain {c : Calculator} {text : String} {o : Outcome}
    (h : (c.explain text).outcome = .ok o) : (c.value? text).outcome = .ok o.value? := by
  rw [explain_outcome] at h
  rw [value?_outcome]
  cases hattempt : (c.attempt text).outcome with
  | error misuse => simp [hattempt, Except.map] at h
  | ok result =>
    rw [hattempt] at h
    obtain rfl := Except.ok.inj h
    cases result <;> rfl

/-- The key of an expression is its answer, if its explanation has one. -/
theorem answerKey_of_explain {c : Calculator} {text : String} {o : Outcome} (riddleAnswer : String)
    (h : (c.explain text).outcome = .ok o) :
    (c.answerKey riddleAnswer "expression" text).outcome =
      .ok (match o.answer? with
        | none => .error (.wrongExpression text)
        | some answer => .ok answer) := by
  rw [answerKey_expression, value?_of_explain h]
  unfold Outcome.answer?
  cases o.value? <;> rfl

/-- Value, explanation and key of an expression are those of its evaluation, which is a number if it
is there. A fault leaves all three without a value, and a misuse leaves none of them an answer. -/
theorem entry_points_agree (c : Calculator) (text riddleAnswer : String) :
    (∀ tokens postfixTokens e, (c.tokenize text).outcome = .ok tokens →
      (c.toPostfix tokens).outcome = .ok postfixTokens →
      (c.reduce postfixTokens).outcome = .ok e → e.value.isNaN = true →
        (c.evaluate text).outcome = .error (.fault .notANumber)) ∧
    (∀ e, (c.evaluate text).outcome = .ok e →
      e.value.isNaN = false ∧
      (c.value? text).outcome = .ok (some e.value) ∧
      (∃ o, (c.explain text).outcome = .ok o ∧ o.expression = text ∧ o.Tells e) ∧
      (c.answerKey riddleAnswer "expression" text).outcome =
        .ok (.ok (Notation.answerText e.value))) ∧
    (∀ fault, (c.evaluate text).outcome = .error (.fault fault) →
      (c.value? text).outcome = .ok none ∧
      (∃ o, (c.explain text).outcome = .ok o ∧ o.expression = text ∧ o.TellsFault fault) ∧
      (c.answerKey riddleAnswer "expression" text).outcome =
        .ok (.error (.wrongExpression text))) ∧
    (∀ misuse, (c.evaluate text).outcome = .error (.misuse misuse) →
      (c.value? text).outcome = .error misuse ∧
      (c.explain text).outcome = .error misuse ∧
      (c.answerKey riddleAnswer "expression" text).outcome = .error misuse) ∧
    ∀ o, (c.explain text).outcome = .ok o → o.Coherent := by
  refine ⟨fun _ _ _ => evaluate_notANumber, ?_, ?_, ?_, fun _ => explain_coherent⟩
  · intro e he
    rw [answerKey_expression, value?_outcome, explain_outcome, attempt_outcome, he]
    exact ⟨evaluate_isNaN he, rfl, ⟨⟨text, .ok e⟩, rfl, rfl, Outcome.tells_ok text e⟩, rfl⟩
  · intro fault he
    rw [answerKey_expression, value?_outcome, explain_outcome, attempt_outcome, he]
    exact ⟨rfl, ⟨⟨text, .error fault.kind⟩, rfl, rfl, Outcome.tellsFault_error text fault⟩, rfl⟩
  · intro misuse he
    rw [answerKey_expression, value?_outcome, explain_outcome, attempt_outcome, he]
    exact ⟨rfl, rfl, rfl⟩

end Calculator

end Abacus
