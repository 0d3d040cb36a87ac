import Abacus.Proofs.Spelling

/-!
# Well-formed expressions

The calculator gives a well-formed expression the value that its tree has, with the steps of the
tree, or the fault that the tree runs into. Gaps in the text and strictness make no difference.
-/

namespace Abacus

/-! ## The stages in a row -/

theorem scanStage_outcome (strict : Bool) (text : String) :
    (Calculator.scanStage strict text).outcome =
      (Token.scan strict text).outcome.mapError .fault := Traced.recover_fail_outcome _ _

/-- The last check of the calculator never finds what the machine has let pass. -/
theorem standard_outcome (strictOperands strictCharacters : Bool) (text : String) :
    ((Calculator.standard strictOperands strictCharacters).evaluate text).outcome =
      (Token.scan strictCharacters text).outcome.mapError .fault >>= fun tokens =>
        Token.toPostfix tokens >>= fun postfixTokens =>
          (Token.reduce strictOperands postfixTokens).outcome := by
  unfold Calculator.evaluate Calculator.standard
  simp only [Traced.bind_outcome, scanStage_outcome, Calculator.postfixStage,
    Traced.ofExcept_outcome]
  refine congrArg _ (funext fun tokens => congrArg _ (funext fun postfixTokens => ?_))
  cases h : (Token.reduce strictOperands postfixTokens).outcome with
  | error failure => rfl
  | ok e =>
    have hnan : ¬ e.value.isNaN = true := by rw [reduce_isNaN h]; exact Bool.false_ne_true
    rw [ok_bind, if_neg hnan]
    rfl

theorem records_scanStage (strict : Bool) (text : String) :
    (Calculator.scanStage strict text).records = (Token.scan strict text).records :=
  Traced.recover_fail_records _ _

/-- The scan and the reduction record something, and the last check of an evaluation does not. -/
theorem records_standard (strictOperands strictCharacters : Bool) (text : String) :
    ((Calculator.standard strictOperands strictCharacters).evaluate text).records =
      (Token.scan strictCharacters text).records ++
        match (Token.scan strictCharacters text).outcome with
        | .ok tokens => (Token.reduce strictOperands (postfixFrom [] tokens)).records
        | .error _ => [] := by
  unfold Calculator.evaluate Calculator.standard
  simp only
  rw [Traced.records_bind, scanStage_outcome, records_scanStage]
  cases hscan : (Token.scan strictCharacters text).outcome with
  | error fault => rfl
  | ok tokens =>
    have hordered : (Calculator.postfixStage tokens).outcome = .ok (postfixFrom [] tokens) :=
      toPostfix_eq tokens (isProper_of_scan hscan)
    refine congrArg ((Token.scan strictCharacters text).records ++ ·) ?_
    simp only [mapError_ok]
    have hnone : (Calculator.postfixStage tokens).records = [] := rfl
    rw [Traced.bind_records hordered, Traced.records_bind, hnone, List.nil_append]
    cases (Token.reduce strictOperands (postfixFrom [] tokens)).outcome with
    | error failure => exact List.append_nil _
    | ok e =>
      refine List.append_right_eq_self.mpr ?_
      by_cases hnan : e.value.isNaN = true
      · simp only [if_pos hnan]
        rfl
      · simp only [if_neg hnan]
        rfl

/-! ## Entry points -/

namespace Calculator

theorem attempt_outcome (c : Calculator) (expression : String) :
    (c.attempt expression).outcome =
      match (c.evaluate expression).outcome with
      | .ok e => .ok (.ok e)
      | .error (.fault fault) => .ok (.error fault)
      | .error (.misuse misuse) => .error misuse := by
  unfold attempt
  match h : (c.evaluate expression).outcome with
  | .ok e => simp only [h]
  | .error (.fault fault) => simp only [h]
  | .error (.misuse misuse) => simp only [h]

theorem value?_outcome (c : Calculator) (expression : String) :
    (c.value? expression).outcome =
      (c.attempt expression).outcome.map fun result => result.toOption.map (·.value) := by
  unfold value?
  rw [Traced.bind_outcome]
  cases (c.attempt expression).outcome <;> rfl

theorem explain_outcome (c : Calculator) (expression : String) :
    (c.explain expression).outcome =
      (c.attempt expression).outcome.map fun result =>
        ⟨expression, result.mapError Fault.kind⟩ := by
  unfold explain
  rw [Traced.bind_outcome]
  cases (c.attempt expression).outcome <;> rfl

theorem records_attempt (c : Calculator) (text : String) :
    (c.attempt text).records =
      (c.evaluate text).records ++
        match (c.evaluate text).outcome with
        | .error (.fault fault) => [.noResult text fault]
        | _ => [] := by
  unfold attempt
  match h : (c.evaluate text).outcome with
  | .ok e => simp [h]
  | .error (.fault fault) => simp [h]
  | .error (.misuse misuse) => simp [h]

theorem records_value? (c : Calculator) (text : String) :
    (c.value? text).records = (c.attempt text).records := by
  rw [value?, Traced.records_bind]
  cases (c.attempt text).outcome <;> exact List.append_nil _

theorem records_explain (c : Calculator) (text : String) :
    (c.explain text).records = (c.attempt text).records := by
  rw [explain, Traced.records_bind]
  cases (c.attempt text).outcome <;> exact List.append_nil _

end Calculator

/-! ## Spelled derivations -/

/-- A text that spells a derivation has the outcome of its tree, and no fault of placement. -/
theorem evaluate_spelling (strictOperands strictCharacters : Bool) (e : Derivation .sum)
    (text : String) (h : Spelling strictCharacters e.lexemes text.toList) :
    ((Calculator.standard strictOperands strictCharacters).evaluate text).outcome =
        e.tree.evaluation.mapError .fault ∧
      ∀ fault, ((Calculator.standard strictOperands strictCharacters).evaluate text).outcome =
        .error (.fault fault) → fault.kind ≠ .invalidPostfix := by
  have houtcome : ((Calculator.standard strictOperands strictCharacters).evaluate text).outcome =
      e.tree.evaluation.mapError .fault := by
    rw [standard_outcome, scan_spelling h e.apart e.balanced]
    change Token.toPostfix e.tokens >>= _ = _
    rw [e.toPostfix_tokens]
    exact reduce_postorder strictOperands e.tree
  refine ⟨houtcome, fun fault hfault => ?_⟩
  rw [houtcome] at hfault
  cases he : e.tree.evaluation with
  | ok evaluation => simp [he] at hfault
  | error other =>
    rw [he, mapError_error] at hfault
    obtain rfl : other = fault := by simpa using hfault
    rcases evaluation_error he with rfl | rfl <;> simp [Fault.kind]

theorem evaluate_spelling_group :
    ∃ e : Derivation .sum, Spelling true e.lexemes "(1 + 2)* 3".toList ∧
      ((Calculator.standard false true).evaluate "(1 + 2)* 3").outcome =
          e.tree.evaluation.mapError .fault ∧
        ∀ fault, ((Calculator.standard false true).evaluate "(1 + 2)* 3").outcome =
          .error (.fault fault) → fault.kind ≠ .invalidPostfix := by
  let one : Numeral := ⟨['1'], by simp, List.forall_mem_singleton.mpr rfl⟩
  let two : Numeral := ⟨['2'], by simp, List.forall_mem_singleton.mpr rfl⟩
  let three : Numeral := ⟨['3'], by simp, List.forall_mem_singleton.mpr rfl⟩
  let e : Derivation .sum := .ofProduct (.multiplied (.ofFactor (.group
    (.added (.ofProduct (.ofFactor (.numeral one))) .add (.inl rfl) (.ofFactor (.numeral two)))))
    .mul (.inl rfl) (.numeral three))
  have hnone : Gap true [] := List.forall_mem_nil _
  have hspace : Gap true [' '] := List.forall_mem_singleton.mpr ⟨rfl, fun _ => rfl⟩
  have hspelling : Spelling true e.lexemes "(1 + 2)* 3".toList :=
    .cons _ hnone (.cons _ hnone (.cons _ hspace (.cons _ hspace (.cons _ hnone
      (.cons _ hnone (.cons _ hspace (.nil hnone)))))))
  exact ⟨e, hspelling, evaluate_spelling false true e _ hspelling⟩

end Abacus
