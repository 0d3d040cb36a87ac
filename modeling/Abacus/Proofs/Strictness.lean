import Abacus.Proofs.Evaluation

/-!
# Strictness

A strict calculator refuses more expressions than a lax one and gives those that it accepts the same
evaluation. Without meaningless characters in the text, and without operands left on the stack, both
do the same.
-/

namespace Abacus

/-! ## Strict scans -/

namespace Scan

theorem Takes.lax {s s' : Scan} {c : Char} (h : s.Takes true c s') : s.Takes false c s' := by
  cases h with
  | number h => exact .number h
  | operator op h => exact .operator op h
  | leftParen h => exact .leftParen h
  | rightParen depth h hdepth => exact .rightParen depth h hdepth
  | layout h hlayout => exact .layout h hlayout
  | stranger h hlayout hstrict => exact absurd rfl hstrict

theorem step_lax {s s' : Scan} {c : Char} (h : s.step true c = .ok s') :
    s.step false c = .ok s' :=
  step_of_takes (takes_of_step h).lax

/-- Only a meaningless character that is no layout tells a strict scan from a lax one. -/
theorem step_strict_eq (s : Scan) (c : Char) (h : isMeaningful c ∨ isLayout c) :
    s.step true c = s.step false c := by
  rcases char_cases c with hc | ⟨op, hc⟩ | rfl | rfl | hc
  · rw [step_number _ s c hc, step_number _ s c hc]
  · rw [step_operator _ s op c hc, step_operator _ s op c hc]
  · rfl
  · rfl
  · have hlayout : isLayout c = true := by simpa [hc] using h
    rw [step_meaningless _ s c hc, step_meaningless _ s c hc, if_pos hlayout, if_pos hlayout]

theorem run_strict_eq (cs : List Char) (s : Scan) (h : ∀ c ∈ cs, isMeaningful c ∨ isLayout c) :
    s.run true cs = s.run false cs := by
  induction cs generalizing s with
  | nil => rfl
  | cons c cs ih =>
    unfold run
    rw [step_strict_eq s c (h c List.mem_cons_self)]
    cases s.step false c with
    | error fault => rfl
    | ok s' => exact ih s' fun d hd => h d (List.mem_cons_of_mem _ hd)

end Scan

theorem scan_lax {strict strict' : Bool} (hle : strict ≤ strict') {text : String}
    {tokens : List Token} (h : (Token.scan strict' text).outcome = .ok tokens) :
    (Token.scan strict text).outcome = .ok tokens := by
  cases strict <;> cases strict'
  · exact h
  · unfold Token.scan at h ⊢
    rw [Scan.run_outcome] at h ⊢
    obtain ⟨s, hs, hfinish⟩ := bind_eq_ok h
    rw [foldlM_ok_of_step (fun _ _ _ hstep => Scan.step_lax hstep) _ _ _ hs, ok_bind, hfinish]
  · exact absurd hle (by decide)
  · exact h

/-! ## Strict reductions -/

namespace Machine

theorem finish_lax {m : Machine} {e : Evaluation} (h : (m.finish true).outcome = .ok e) :
    (m.finish false).outcome = .ok e := by
  obtain ⟨stack, steps⟩ := m
  obtain ⟨below, hstack, hbelow, -, -⟩ := finish_ok h
  simp only at hstack
  subst hstack
  rw [hbelow rfl, finish_single] at h ⊢
  exact h

/-- At most one value on the stack leaves strictness nothing to refuse. -/
theorem finish_strict_eq (m : Machine) (h : m.stack.length ≤ 1) :
    m.finish true = m.finish false := by
  obtain ⟨stack, steps⟩ := m
  match stack with
  | [] => rfl
  | [value] => rfl
  | value :: next :: below =>
    simp only [List.length_cons] at h
    omega

theorem finish_leftover {m : Machine} {count : Nat} (h : m.stack.length = count + 1)
    (hpos : 0 < count) : (m.finish true).outcome = .error (.leftoverOperands count) := by
  obtain ⟨stack, steps⟩ := m
  match stack with
  | [] => simp at h
  | value :: below =>
    obtain rfl : below.length = count := by simpa using h
    rw [finish_outcome, if_pos ⟨rfl, List.ne_nil_of_length_pos hpos⟩]

end Machine

theorem reduce_lax {strict strict' : Bool} (hle : strict ≤ strict') {tokens : List Token}
    {e : Evaluation} (h : (Token.reduce strict' tokens).outcome = .ok e) :
    (Token.reduce strict tokens).outcome = .ok e := by
  cases strict <;> cases strict'
  · exact h
  · rw [reduce_outcome] at h ⊢
    obtain ⟨m, hrun, hfinish⟩ := bind_eq_ok h
    rw [hrun, ok_bind, Machine.finish_lax (mapError_eq_ok hfinish), mapError_ok]
  · exact absurd hle (by decide)
  · exact h

/-! ## Strict calculators -/

/-- The evaluation of the text comes to its end with so many values on the stack. -/
def EndsWithValues (strictCharacters : Bool) (text : String) (count : Nat) : Prop :=
  ∃ tokens postfixTokens m, (Token.scan strictCharacters text).outcome = .ok tokens ∧
    Token.toPostfix tokens = .ok postfixTokens ∧ Machine.run {} postfixTokens = .ok m ∧
    m.stack.length = count

theorem evaluate_lax {strictOperands strictOperands' strictCharacters strictCharacters' : Bool}
    (hoperands : strictOperands ≤ strictOperands')
    (hcharacters : strictCharacters ≤ strictCharacters') {text : String} {e : Evaluation}
    (h : ((Calculator.standard strictOperands' strictCharacters').evaluate text).outcome = .ok e) :
    ((Calculator.standard strictOperands strictCharacters).evaluate text).outcome = .ok e := by
  rw [standard_outcome] at h ⊢
  obtain ⟨tokens, hscan, h⟩ := bind_eq_ok h
  obtain ⟨postfixTokens, hordered, hreduce⟩ := bind_eq_ok h
  rw [scan_lax hcharacters (mapError_eq_ok hscan), mapError_ok, ok_bind, hordered, ok_bind]
  exact reduce_lax hoperands hreduce

theorem evaluate_strictCharacters_eq (strictOperands : Bool) {text : String}
    (h : ∀ c ∈ text.toList, isMeaningful c ∨ isLayout c) :
    (Calculator.standard strictOperands true).evaluate text =
      (Calculator.standard strictOperands false).evaluate text := by
  have hstage : Calculator.scanStage true text = Calculator.scanStage false text := by
    unfold Calculator.scanStage Token.scan
    rw [Scan.run_strict_eq _ _ h]
  unfold Calculator.evaluate Calculator.standard
  simp only [hstage]

theorem evaluate_strictOperands_eq {strictCharacters : Bool} {text : String}
    (h : ∀ count, 0 < count → ¬ EndsWithValues strictCharacters text (count + 1)) :
    (Calculator.standard true strictCharacters).evaluate text =
      (Calculator.standard false strictCharacters).evaluate text := by
  unfold Calculator.evaluate Calculator.standard
  simp only
  refine Traced.bind_congr fun tokens hscan => Traced.bind_congr fun postfixTokens hordered => ?_
  rw [scanStage_outcome] at hscan
  have hreduce : Token.reduce true postfixTokens = Token.reduce false postfixTokens := by
    cases hrun : Machine.run {} postfixTokens with
    | error failure => rw [reduce_of_error hrun, reduce_of_error hrun]
    | ok m =>
      have hsmall : m.stack.length ≤ 1 := by
        by_contra hlarge
        refine h (m.stack.length - 1) (by omega) ⟨tokens, postfixTokens, m, mapError_eq_ok hscan,
          hordered, hrun, by omega⟩
      rw [reduce_of_ok hrun, reduce_of_ok hrun, Machine.finish_strict_eq m hsmall]
  rw [hreduce]

theorem evaluate_leftover {strictCharacters : Bool} {text : String} {count : Nat}
    (hpos : 0 < count) (h : EndsWithValues strictCharacters text (count + 1)) :
    ((Calculator.standard true strictCharacters).evaluate text).outcome =
      .error (.fault (.leftoverOperands count)) := by
  obtain ⟨tokens, postfixTokens, m, hscan, hordered, hrun, hlength⟩ := h
  rw [standard_outcome, hscan, mapError_ok, ok_bind, hordered, ok_bind, reduce_outcome, hrun,
    ok_bind, Machine.finish_leftover hlength hpos, mapError_error]

/-- What a strict calculator accepts has the same evaluation in a laxer one. Strictness about
characters shows only in a text with a meaningless character, and strictness about operands only
where an evaluation ends with operands left over, which is then its fault. -/
theorem strictness_only_refuses (text : String) :
    (∀ strictOperands strictOperands' strictCharacters strictCharacters' : Bool,
      strictOperands ≤ strictOperands' → strictCharacters ≤ strictCharacters' →
        (∀ e, ((Calculator.standard strictOperands' strictCharacters').evaluate text).outcome =
            .ok e →
          ((Calculator.standard strictOperands strictCharacters).evaluate text).outcome = .ok e) ∧
        ∀ failure, ((Calculator.standard strictOperands strictCharacters).evaluate text).outcome =
            .error failure →
          ∃ failure', ((Calculator.standard strictOperands' strictCharacters').evaluate
            text).outcome = .error failure') ∧
    ((∀ c ∈ text.toList, isMeaningful c ∨ isLayout c) → ∀ strictOperands,
      (Calculator.standard strictOperands true).evaluate text =
        (Calculator.standard strictOperands false).evaluate text) ∧
    ∀ strictCharacters,
      ((∀ count, 0 < count → ¬ EndsWithValues strictCharacters text (count + 1)) →
        (Calculator.standard true strictCharacters).evaluate text =
          (Calculator.standard false strictCharacters).evaluate text) ∧
      ∀ count, 0 < count → EndsWithValues strictCharacters text (count + 1) →
        ∃ fault, ((Calculator.standard true strictCharacters).evaluate text).outcome =
            .error (.fault fault) ∧
          fault.kind = .invalidPostfix ∧
          fault.message = toString count ++ " operand(s) left without an operator" := by
  refine ⟨?_, fun h strictOperands => evaluate_strictCharacters_eq strictOperands h, ?_⟩
  · intro strictOperands strictOperands' strictCharacters strictCharacters' hoperands hcharacters
    refine ⟨fun e h => evaluate_lax hoperands hcharacters h, fun failure h => ?_⟩
    cases hstrict : ((Calculator.standard strictOperands' strictCharacters').evaluate
        text).outcome with
    | error failure' => exact ⟨failure', rfl⟩
    | ok e =>
      rw [evaluate_lax hoperands hcharacters hstrict] at h
      cases h
  · intro strictCharacters
    refine ⟨evaluate_strictOperands_eq, fun count hpos hends => ?_⟩
    exact ⟨.leftoverOperands count, evaluate_leftover hpos hends, rfl, rfl⟩

/-- Two numbers that no operator joins. -/
theorem strictness_only_refuses_pair :
    EndsWithValues true "1 2" 2 ∧
      ((Calculator.standard false true).evaluate "1 2").outcome.isOk = true ∧
      ∃ fault, ((Calculator.standard true true).evaluate "1 2").outcome = .error (.fault fault) ∧
        fault.kind = .invalidPostfix ∧
        fault.message = toString 1 ++ " operand(s) left without an operator" := by
  have hends : EndsWithValues true "1 2" 2 := ⟨_, _, _, rfl, rfl, rfl, rfl⟩
  exact ⟨hends, by decide +kernel,
    ((strictness_only_refuses "1 2").2.2 true).2 1 Nat.one_pos hends⟩

end Abacus
