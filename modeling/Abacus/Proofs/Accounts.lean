import Mathlib.Data.List.Forall2
import Mathlib.Data.Option.Basic
import Abacus.Proofs.Evaluation
import Abacus.Proofs.Origins
import Abacus.Proofs.Readback

/-!
# Where operands come from and where they go

Each number of a text and each result of a step is used once: by one later step, as the value of the
text, or as an operand that is dropped. The steps of a text are as many as its operators.
-/

namespace Abacus

/-! ## Supplies -/

/-- A number of a list, or the result of a step, by its place. -/
inductive Supply where
  | number (place : Nat)
  | result (place : Nat)
deriving DecidableEq

namespace Supply

def value? (numbers : List Float) (steps : List Step) : Supply → Option Float
  | number place => numbers[place]?
  | result place => (steps[place]?).map Step.result

/-- All supplies from so many numbers and so many steps. -/
def all (numbers steps : Nat) : List Supply :=
  (List.range numbers).map number ++ (List.range steps).map result

/-- The supply is there when the step at `place` is made. -/
def IsBefore (place : Nat) : Supply → Prop
  | number _ => True
  | result other => other < place

theorem value?_append {numbers : List Float} {steps : List Step} {s : Supply} {x : Float}
    (h : s.value? numbers steps = some x) (moreNumbers : List Float) (moreSteps : List Step) :
    s.value? (numbers ++ moreNumbers) (steps ++ moreSteps) = some x := by
  cases s with
  | number place =>
    have hlt := (List.getElem?_eq_some_iff.mp h).1
    exact (List.getElem?_append_left hlt).trans h
  | result place =>
    obtain ⟨step, hstep, hresult⟩ := Option.map_eq_some_iff.mp h
    have hlt := (List.getElem?_eq_some_iff.mp hstep).1
    simp [value?, List.getElem?_append_left hlt, hstep, hresult]

theorem isBefore_of_mem {numbers steps : Nat} {s : Supply} (h : s ∈ all numbers steps) :
    s.IsBefore steps := by
  cases s with
  | number place => trivial
  | result place => simpa [all, IsBefore] using h

theorem all_number (numbers steps : Nat) :
    (all (numbers + 1) steps).Perm (.number numbers :: all numbers steps) := by
  simp only [all, List.range_succ, List.map_append, List.map_singleton, List.append_assoc]
  exact List.perm_middle

theorem all_result (numbers steps : Nat) :
    all numbers (steps + 1) = all numbers steps ++ [.result steps] := by
  simp [all, List.range_succ]

theorem map_getElem?_range {α : Type} (xs : List α) :
    (List.range xs.length).map (xs[·]?) = xs.map some := by
  apply List.ext_getElem?
  intro i
  rcases Nat.lt_or_ge i xs.length with hi | hi
  · simp [hi]
  · simp [hi]

theorem map_value?_all (numbers : List Float) (steps : List Step) :
    (all numbers.length steps.length).map (value? numbers steps) =
      (numbers ++ steps.map Step.result).map some := by
  have hresults : (List.range steps.length).map (fun place => (steps[place]?).map Step.result) =
      (steps.map some).map (Option.map Step.result) := by
    rw [← map_getElem?_range, List.map_map]
    rfl
  simp only [all, List.map_append, List.map_map]
  refine congrArg₂ (· ++ ·) (map_getElem?_range numbers) (hresults.trans ?_)
  simp

end Supply

def Step.operands (s : Step) : List Float := [s.left, s.right]

/-- The two supplies are worth the operands of the step. -/
def Feeds (numbers : List Float) (steps : List Step) (pair : Supply × Supply) (step : Step) :
    Prop :=
  pair.1.value? numbers steps = some step.left ∧ pair.2.value? numbers steps = some step.right

theorem Feeds.append {numbers : List Float} {steps : List Step} {pair : Supply × Supply}
    {step : Step} (h : Feeds numbers steps pair step) (moreNumbers : List Float)
    (moreSteps : List Step) : Feeds (numbers ++ moreNumbers) (steps ++ moreSteps) pair step :=
  ⟨Supply.value?_append h.1 moreNumbers moreSteps, Supply.value?_append h.2 moreNumbers moreSteps⟩

theorem map_value?_pairs {numbers : List Float} {steps : List Step}
    {used : List (Supply × Supply)} {fed : List Step}
    (h : List.Forall₂ (Feeds numbers steps) used fed) :
    (used.flatMap fun pair => [pair.1, pair.2]).map (Supply.value? numbers steps) =
      (fed.flatMap Step.operands).map some := by
  induction h with
  | nil => rfl
  | cons hpair _ ih => simp [Step.operands, hpair.1, hpair.2, ih]

theorem map_value?_kept {numbers : List Float} {steps : List Step} {kept : List Supply}
    {left : List Float}
    (h : List.Forall₂ (fun supply x => supply.value? numbers steps = some x) kept left) :
    kept.map (Supply.value? numbers steps) = left.map some := by
  induction h with
  | nil => rfl
  | cons hx _ ih => simp [hx, ih]

/-- The operands of the steps, in pairs, and what is left in the end come from all supplies, each of
them taken once, and a step takes no result that is not there before it. -/
structure Supplied (numbers : List Float) (steps : List Step) (left : List Float)
    (used : List (Supply × Supply)) (kept : List Supply) : Prop where
  once : (used.flatMap (fun pair => [pair.1, pair.2]) ++ kept).Perm
    (Supply.all numbers.length steps.length)
  operands : List.Forall₂ (Feeds numbers steps) used steps
  left : List.Forall₂ (fun supply x => supply.value? numbers steps = some x) kept left
  before : ∀ (i : Nat) (pair : Supply × Supply), used[i]? = some pair →
    pair.1.IsBefore i ∧ pair.2.IsBefore i

namespace Supplied

variable {numbers : List Float} {steps : List Step} {left : List Float}
  {used : List (Supply × Supply)} {kept : List Supply}

theorem number (h : Supplied numbers steps left used kept) (x : Float) :
    Supplied (numbers ++ [x]) steps (x :: left) used (.number numbers.length :: kept) where
  once := by
    rw [List.length_append, List.length_singleton]
    exact List.perm_middle.trans ((h.once.cons _).trans (Supply.all_number _ _).symm)
  operands := h.operands.imp fun pair step hpair => by simpa using hpair.append [x] []
  left := by
    refine .cons (by simp [Supply.value?]) (h.left.imp fun supply y hy => ?_)
    simpa using Supply.value?_append hy [x] []
  before := h.before

/-- The two operands on top make way for the result. -/
theorem step {a b : Float} {below : List Float} {first second : Supply}
    (h : Supplied numbers steps (b :: a :: below) used (second :: first :: kept)) (op : Operator)
    (result : Float) :
    Supplied numbers (steps ++ [⟨a, op, b, result⟩]) (result :: below) (used ++ [(first, second)])
      (.result steps.length :: kept) where
  once := by
    rw [List.length_append, List.length_singleton, Supply.all_result, List.perm_iff_count]
    intro supply
    have hcount := h.once.count_eq supply
    simp only [List.flatMap_append, List.flatMap_singleton, List.count_append, List.count_cons,
      List.count_nil] at hcount ⊢
    omega
  operands := by
    obtain ⟨hsecond, hkept⟩ := List.forall₂_cons.mp h.left
    obtain ⟨hfirst, -⟩ := List.forall₂_cons.mp hkept
    have hnew : Feeds numbers steps (first, second) ⟨a, op, b, result⟩ := ⟨hfirst, hsecond⟩
    refine List.rel_append (h.operands.imp fun pair step hpair => ?_) (.cons ?_ .nil)
    · simpa using hpair.append [] [⟨a, op, b, result⟩]
    · simpa using hnew.append [] [⟨a, op, b, result⟩]
  left := by
    obtain ⟨-, hkept⟩ := List.forall₂_cons.mp h.left
    obtain ⟨-, hkept⟩ := List.forall₂_cons.mp hkept
    refine .cons (by simp [Supply.value?]) (hkept.imp fun supply y hy => ?_)
    simpa using Supply.value?_append hy [] [⟨a, op, b, result⟩]
  before := by
    intro i pair hpair
    rcases (getElem?_concat_eq_some _ _ _ _).mp hpair with hpair | ⟨rfl, rfl⟩
    · exact h.before i pair hpair
    · have hmem : ∀ supply ∈ [second, first], supply.IsBefore used.length := by
        intro supply hsupply
        rw [h.operands.length_eq]
        apply Supply.isBefore_of_mem (h.once.mem_iff.mp _)
        simp only [List.mem_cons, List.not_mem_nil, or_false] at hsupply
        rcases hsupply with rfl | rfl <;> simp
      exact ⟨hmem first (by simp), hmem second (by simp)⟩

/-- The numbers and the results are the operands and what is left. -/
theorem balance (h : Supplied numbers steps left used kept) :
    (numbers ++ steps.map Step.result).Perm (steps.flatMap Step.operands ++ left) := by
  have hvalues := h.once.map (Supply.value? numbers steps)
  rw [Supply.map_value?_all, List.map_append, map_value?_pairs h.operands, map_value?_kept h.left,
    ← List.map_append] at hvalues
  exact (List.map_perm_map_iff (Option.some_injective _)).mp hvalues.symm

theorem length_eq (h : Supplied numbers steps left used kept) :
    numbers.length = steps.length + left.length := by
  have hlength := h.balance.length_eq
  have hoperands : (steps.flatMap Step.operands).length = 2 * steps.length := by
    simp [List.length_flatMap, Step.operands]
    omega
  simp only [List.length_append, List.length_map, hoperands] at hlength
  omega

end Supplied

namespace Machine

theorem run_supplied {tokens : List Token} {m : Machine} (h : run {} tokens = .ok m) :
    ∃ used kept, Supplied (Token.numbers tokens) m.steps.reverse m.stack used kept := by
  have hstart : Supplied (Token.numbers []) [] [] [] [] := ⟨.nil, .nil, .nil, by simp⟩
  refine foldlM_history (fun tokens m => ∃ used kept,
    Supplied (Token.numbers tokens) m.steps.reverse m.stack used kept) ⟨[], [], hstart⟩ ?_ h
  rintro tokens m t m' - ⟨used, kept, hsupplied⟩ hstep
  rw [Token.numbers_append]
  rcases step_cases hstep with ⟨x, rfl, rfl⟩ | ⟨op, a, b, below, rfl, hs, -, rfl⟩
  · exact ⟨_, _, hsupplied.number x⟩
  · rw [hs] at hsupplied
    obtain ⟨second, kept, -, hkept, rfl⟩ := List.forall₂_cons_right_iff.mp hsupplied.left
    obtain ⟨first, kept, -, -, rfl⟩ := List.forall₂_cons_right_iff.mp hkept
    rw [List.reverse_cons]
    exact ⟨_, _, by simpa [Token.numbers] using hsupplied.step op (op.apply a b)⟩

/-- A run that leaves one operand has it from its last step, if it makes a step at all. -/
theorem result_of_single {tokens : List Token} {m : Machine} {value : Float}
    (h : run {} tokens = .ok m) (hstack : m.stack = [value]) :
    ∀ s ∈ m.steps.head?, s.result = value := by
  obtain ⟨trees, rfl, hlength⟩ := run_forest h
  rw [hstack] at hlength
  obtain ⟨t, rfl⟩ := List.length_eq_one_iff.mp hlength
  rw [run_flatMap (defined_of_run h)] at h
  obtain rfl := Except.ok.inj h
  cases t with
  | leaf x => simp [Tree.steps]
  | node left op right =>
    obtain rfl : op.apply left.value right.value = value := by simpa [Tree.value] using hstack
    simp [Tree.steps]

end Machine

/-! ## Operators of a text -/

def isOperatorChar (c : Char) : Bool := ['+', '-', '*', '/'].contains c

theorem isOperatorChar_class {c : Char} (h : isOperatorChar c) :
    isMeaningful c ∧ isNumberChar c = false := by
  have hc : c = '+' ∨ c = '-' ∨ c = '*' ∨ c = '/' := by simpa [isOperatorChar] using h
  rcases hc with rfl | rfl | rfl | rfl <;> exact ⟨rfl, rfl⟩

theorem isOperatorChar_of_meaningless {c : Char} (h : isMeaningful c = false) :
    isOperatorChar c = false := by
  by_contra hop
  simp [(isOperatorChar_class (by simpa using hop)).1] at h

namespace Scan

variable {strict : Bool} {s s' : Scan}

theorem operators_flush (s : Scan) : Token.operators s.flush.tokens = Token.operators s.tokens := by
  unfold flush
  split <;> rfl

/-- Of all characters only the four operators put an operator among the tokens. -/
theorem operators_step {c : Char} (h : s.step strict c = .ok s') :
    (Token.operators s'.tokens).length =
      (Token.operators s.tokens).length + [c].countP isOperatorChar := by
  have hflush := operators_flush s
  cases takes_of_step h with
  | number hc =>
    have hnot : isOperatorChar c = false := by
      by_contra hop
      simp [(isOperatorChar_class (by simpa using hop)).2] at hc
    simp [hnot, advance]
  | operator op hc =>
    have hop : isOperatorChar c := by
      cases op <;> simp [Operator.symbol] at hc <;> subst hc <;> rfl
    rw [← hflush]
    simp [hop, advance, push, Token.operators]
  | leftParen hc =>
    subst hc
    rw [← hflush]
    rfl
  | rightParen depth hc hdepth =>
    subst hc
    rw [← hflush]
    rfl
  | layout hc hlayout => simp [advance, hflush, isOperatorChar_of_meaningless hc]
  | stranger hc hlayout hstrict => simp [advance, hflush, isOperatorChar_of_meaningless hc]

theorem operators_foldlM {cs : List Char} (h : cs.foldlM (step strict) s = .ok s') :
    (Token.operators s'.tokens).length =
      (Token.operators s.tokens).length + cs.countP isOperatorChar := by
  refine foldlM_history (fun cs s' => (Token.operators s'.tokens).length =
    (Token.operators s.tokens).length + cs.countP isOperatorChar) rfl ?_ h
  intro cs s₁ c s₂ _ hlength hstep
  rw [operators_step hstep, hlength, List.countP_append, Nat.add_assoc]

/-- All that a scan records are characters that it passed over. -/
theorem run_records (strict : Bool) (s : Scan) (cs : List Char) :
    ∃ skipped : List (Char × Nat),
      (s.run strict cs).records = skipped.map fun (c, n) => .skipped c n := by
  induction cs generalizing s with
  | nil => exact ⟨s.skipped.reverse, rfl⟩
  | cons c cs ih =>
    unfold run
    cases s.step strict c with
    | ok s' => exact ih s'
    | error fault => exact ⟨s.skipped.reverse, rfl⟩

end Scan

theorem length_operators_scan {strict : Bool} {text : String} {tokens : List Token}
    (h : (Token.scan strict text).outcome = .ok tokens) :
    (Token.operators tokens).length = text.toList.countP isOperatorChar := by
  rw [Token.scan, Scan.run_outcome] at h
  obtain ⟨s, hs, hfinish⟩ := bind_eq_ok h
  unfold Scan.finish at hfinish
  split_ifs at hfinish
  obtain rfl := Except.ok.inj hfinish
  have hcount := Scan.operators_foldlM hs
  rw [← Scan.operators_flush s] at hcount
  simpa [Token.operators, List.filterMap_reverse] using hcount

/-! ## Evaluations -/

theorem records_reduce {strict : Bool} {tokens : List Token} {m : Machine}
    (h : Machine.run {} tokens = .ok m) {value : Float} {below : List Float}
    (hstack : m.stack = value :: below) (hstrict : strict → below = []) :
    (Token.reduce strict tokens).records = if below = [] then [] else [.dropped below.reverse] := by
  rw [reduce_of_ok h, Traced.recover_fail_records, Machine.finish, hstack]
  cases strict with
  | false => simp
  | true =>
    obtain rfl := hstrict rfl
    simp

/-- The parts of an evaluation by the calculator's own stages. -/
theorem standard_eq_ok {strictOperands strictCharacters : Bool} {text : String} {e : Evaluation}
    (h : ((Calculator.standard strictOperands strictCharacters).evaluate text).outcome = .ok e) :
    ∃ tokens m below, (Token.scan strictCharacters text).outcome = .ok tokens ∧
      Machine.run {} (postfixFrom [] tokens) = .ok m ∧ m.stack = e.value :: below ∧
      (strictOperands → below = []) ∧ e.steps = m.steps.reverse.map Step.text ∧
      ((Calculator.standard strictOperands strictCharacters).evaluate text).records =
        (Token.scan strictCharacters text).records ++
          if below = [] then [] else [.dropped below.reverse] := by
  rw [standard_outcome] at h
  obtain ⟨tokens, hscan, h⟩ := bind_eq_ok h
  have hscan := mapError_eq_ok hscan
  rw [toPostfix_eq tokens (isProper_of_scan hscan), ok_bind] at h
  rw [reduce_outcome] at h
  obtain ⟨m, hrun, hfinish⟩ := bind_eq_ok h
  obtain ⟨below, hstack, hstrict, -, hsteps⟩ := Machine.finish_ok (mapError_eq_ok hfinish)
  refine ⟨tokens, m, below, hscan, hrun, hstack, hstrict, hsteps, ?_⟩
  rw [records_standard, hscan]
  exact congrArg _ (records_reduce hrun hstack hstrict)

/-- What became of the numbers of the tokens: they and the results of the steps are the operands of
the steps, the value, and the operands that were dropped. -/
structure Account (tokens : List Token) (e : Evaluation) (steps : List Step)
    (dropped : List Float) : Prop where
  texts : e.steps = steps.map Step.text
  symbols : ((Token.numbers tokens ++ steps.map Step.result).map Notation.answerText).Perm
    ((steps.flatMap Step.operands ++ e.value :: dropped).map Notation.answerText)
  supplied : ∃ used kept,
    Supplied (Token.numbers tokens) steps (e.value :: dropped.reverse) used kept
  length_dropped :
    (Token.numbers tokens).length = (Token.operators tokens).length + 1 + dropped.length

/-- An evaluation accounts for all numbers of its text. It makes a step for each operator of the
text, and what it drops is the only thing that it records besides characters. -/
theorem evaluate_accounts (strictOperands strictCharacters : Bool) (text : String) (e : Evaluation)
    (h : ((Calculator.standard strictOperands strictCharacters).evaluate text).outcome = .ok e) :
    ∃ tokens steps dropped, (Token.scan strictCharacters text).outcome = .ok tokens ∧
      Account tokens e steps dropped ∧
      e.steps.length = text.toList.countP isOperatorChar ∧
      (∃ skipped : List (Char × Nat),
        ((Calculator.standard strictOperands strictCharacters).evaluate text).records =
          (skipped.map fun (c, position) => .skipped c position) ++
            if dropped = [] then [] else [.dropped dropped]) ∧
      (strictOperands → dropped = [] ∧ ∀ s ∈ steps.getLast?, s.result = e.value) := by
  obtain ⟨tokens, m, below, hscan, hrun, hstack, hstrict, hsteps, hrecords⟩ := standard_eq_ok h
  obtain ⟨used, kept, hsupplied⟩ := Machine.run_supplied hrun
  rw [numbers_postfixFrom, hstack] at hsupplied
  have hoperators := (operators_postfixFrom tokens).length_eq
  have hbalance := hsupplied.length_eq
  have hstacked := (Machine.run_forest hrun).length_numbers
  rw [numbers_postfixFrom, hstack] at hstacked
  simp only [List.length_cons, List.length_reverse] at hbalance hstacked
  refine ⟨tokens, m.steps.reverse, below.reverse, hscan, ⟨hsteps, ?_, ?_, ?_⟩, ?_, ?_, ?_⟩
  · refine hsupplied.balance.trans ?_ |>.map _
    exact ((below.reverse_perm.symm.cons _).append_left _)
  · exact ⟨used, kept, by rwa [List.reverse_reverse]⟩
  · simp only [List.length_reverse]
    omega
  · rw [← length_operators_scan hscan, hsteps, List.length_map, List.length_reverse]
    omega
  · obtain ⟨skipped, hskipped⟩ := Scan.run_records strictCharacters {} text.toList
    refine ⟨skipped, ?_⟩
    rw [hrecords, Token.scan, hskipped]
    simp
  · intro hs
    obtain rfl := hstrict hs
    refine ⟨rfl, ?_⟩
    rw [List.getLast?_reverse]
    exact Machine.result_of_single hrun hstack

/-- Three numbers and one operator, so one number is dropped. -/
theorem evaluate_accounts_leftover :
    ((Calculator.standard false false).evaluate "7 6/3").outcome = .ok ⟨2, ["6 / 3 = 2"]⟩ ∧
      ∃ tokens steps dropped, (Token.scan false "7 6/3").outcome = .ok tokens ∧
        Account tokens ⟨2, ["6 / 3 = 2"]⟩ steps dropped ∧ dropped.length = 1 := by
  have h : ((Calculator.standard false false).evaluate "7 6/3").outcome =
      .ok ⟨2, ["6 / 3 = 2"]⟩ := by decide +kernel
  obtain ⟨tokens, steps, dropped, hscan, haccount, -⟩ := evaluate_accounts false false _ _ h
  refine ⟨h, tokens, steps, dropped, hscan, haccount, ?_⟩
  have htokens : (Token.scan false "7 6/3").outcome =
      .ok [.number 7, .number 6, .operator .div, .number 3] := by decide +kernel
  obtain rfl := Except.ok.inj (htokens.symm.trans hscan)
  exact Nat.add_left_cancel (n := 2) haccount.length_dropped.symm

end Abacus
