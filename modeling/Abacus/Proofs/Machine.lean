import Mathlib.Tactic.SplitIfs
import Abacus.Proofs.Traced

/-!
# The machine on trees

Postfix order is the post-order of trees. A tree on the machine is one operand more on the stack,
whatever was below, and its operator nodes are the steps. The first division by a zero ends the run.
-/

namespace Abacus

/-! ## Trees -/

/-- What an expression means, without parentheses. -/
inductive Tree where
  | leaf (value : Float)
  | node (left : Tree) (op : Operator) (right : Tree)

namespace Tree

def postorder : Tree → List Token
  | leaf value => [.number value]
  | node left op right => left.postorder ++ right.postorder ++ [.operator op]

/-- The left operand first, then the right one, then the operator, with a step for each operator. -/
def compute : Tree → Except Fault (Float × List Step)
  | leaf value => .ok (value, [])
  | node left op right => do
    let (a, before) ← left.compute
    let (b, between) ← right.compute
    let c := op.apply a b
    if op = .div ∧ b == 0 then .error .divisionByZero
    else .ok (c, before ++ between ++ [⟨a, op, b, c⟩])

/-- The evaluation of a tree; a value that is not a number is a fault in the end only. -/
def evaluation (t : Tree) : Except Fault Evaluation := do
  let (value, steps) ← t.compute
  if value.isNaN then .error .notANumber else .ok ⟨value, steps.map Step.text⟩

end Tree

/-! ## One token at a time -/

namespace Machine

@[simp]
theorem run_nil (m : Machine) : m.run [] = .ok m := rfl

@[simp]
theorem run_cons (m : Machine) (t : Token) (tokens : List Token) :
    m.run (t :: tokens) = m.step t >>= fun m' => m'.run tokens := List.foldlM_cons

theorem run_append (m : Machine) (first second : List Token) :
    m.run (first ++ second) = m.run first >>= fun m' => m'.run second := List.foldlM_append

@[simp]
theorem step_number (m : Machine) (x : Float) :
    m.step (.number x) = .ok { m with stack := x :: m.stack } := rfl

theorem isUndefined_iff (op : Operator) (x : Float) : op.isUndefined x ↔ op = .div ∧ x == 0 := by
  simp [Operator.isUndefined]

theorem step_operator (op : Operator) (a b : Float) (below : List Float) (steps : List Step) :
    Machine.step ⟨b :: a :: below, steps⟩ (.operator op) =
      if op = .div ∧ b == 0 then .error (.fault .divisionByZero)
      else .ok ⟨op.apply a b :: below, ⟨a, op, b, op.apply a b⟩ :: steps⟩ := by
  simp only [step, reduce, isUndefined_iff]
  split <;> rfl

theorem step_of_operands {m : Machine} {a b : Float} {below : List Float}
    (h : m.stack = b :: a :: below) (op : Operator) :
    m.step (.operator op) =
      if op = .div ∧ b == 0 then .error (.fault .divisionByZero)
      else .ok ⟨op.apply a b :: below, ⟨a, op, b, op.apply a b⟩ :: m.steps⟩ := by
  obtain ⟨stack, steps⟩ := m
  obtain rfl : stack = b :: a :: below := h
  exact step_operator op a b below steps

/-- An operator takes two operands from the stack, or is refused and takes none. -/
theorem step_operator_cases (m : Machine) (op : Operator) :
    (∃ a b below, m.stack = b :: a :: below) ∨
      m.stack.length < 2 ∧
        m.step (.operator op) = .error (.fault (.missingOperands op m.stack.length)) := by
  obtain ⟨stack, steps⟩ := m
  match stack with
  | [] => exact .inr ⟨by simp, rfl⟩
  | [x] => exact .inr ⟨by simp, rfl⟩
  | b :: a :: below => exact .inl ⟨a, b, below, rfl⟩

/-- A step that is made puts a number on the stack, or the result of two of them. -/
theorem step_cases {m m' : Machine} {t : Token} (h : m.step t = .ok m') :
    (∃ x, t = .number x ∧ m' = { m with stack := x :: m.stack }) ∨
      ∃ op a b below, t = .operator op ∧ m.stack = b :: a :: below ∧ ¬ (op = .div ∧ b == 0) ∧
        m' = ⟨op.apply a b :: below, ⟨a, op, b, op.apply a b⟩ :: m.steps⟩ := by
  cases t with
  | number x => exact .inl ⟨x, rfl, (Except.ok.inj h).symm⟩
  | operator op =>
    rcases step_operator_cases m op with ⟨a, b, below, hs⟩ | ⟨-, herr⟩
    · rw [step_of_operands hs] at h
      split_ifs at h with hzero
      exact .inr ⟨op, a, b, below, rfl, hs, hzero, (Except.ok.inj h).symm⟩
    · rw [herr] at h
      simp at h
  | leftParen => simp [step] at h
  | rightParen => simp [step] at h
  | unknownOperator symbol => simp [step] at h
  | foreign text => simp [step] at h

/-! ## Steps that fail -/

/-- Why a token is refused on these operands, top first. An operator has to be one of the four
before its operands count, and both have to be there before their values count. -/
inductive Refusal (operands : List Float) : Token → Failure → Prop
  | unknownOperator (symbol : UnknownSymbol) :
    Refusal operands (.unknownOperator symbol) (.fault (.unknownOperator symbol))
  | missingOperands (op : Operator) (h : operands.length < 2) :
    Refusal operands (.operator op) (.fault (.missingOperands op operands.length))
  | divisionByZero (dividend divisor : Float) (below : List Float)
      (h : operands = divisor :: dividend :: below) (hzero : divisor == 0) :
    Refusal operands (.operator .div) (.fault .divisionByZero)
  | leftParen : Refusal operands .leftParen (.fault (.unexpectedToken "("))
  | rightParen : Refusal operands .rightParen (.fault (.unexpectedToken ")"))
  | foreign (text : String) : Refusal operands (.foreign text) (.misuse .foreignInReduction)

theorem step_of_refusal {m : Machine} {t : Token} {failure : Failure}
    (h : Refusal m.stack t failure) : m.step t = .error failure := by
  cases h with
  | missingOperands op hlt =>
    rcases step_operator_cases m op with ⟨a, b, below, hs⟩ | ⟨-, herr⟩
    · simp only [hs, List.length_cons] at hlt
      omega
    · exact herr
  | divisionByZero a b below hs hzero =>
    rw [step_of_operands hs, if_pos ⟨rfl, hzero⟩]
  | unknownOperator symbol => rfl
  | leftParen => rfl
  | rightParen => rfl
  | foreign text => rfl

theorem refusal_of_step {m : Machine} {t : Token} {failure : Failure}
    (h : m.step t = .error failure) : Refusal m.stack t failure := by
  cases t with
  | number x => simp at h
  | operator op =>
    rcases step_operator_cases m op with ⟨a, b, below, hs⟩ | ⟨hlt, herr⟩
    · rw [step_of_operands hs] at h
      split_ifs at h with hzero
      obtain ⟨rfl, hzero⟩ := hzero
      obtain rfl := Except.error.inj h
      exact .divisionByZero a b below hs hzero
    · rw [herr] at h
      obtain rfl := Except.error.inj h
      exact .missingOperands op hlt
  | leftParen =>
    obtain rfl := Except.error.inj h
    exact .leftParen
  | rightParen =>
    obtain rfl := Except.error.inj h
    exact .rightParen
  | unknownOperator symbol =>
    obtain rfl := Except.error.inj h
    exact .unknownOperator symbol
  | foreign text =>
    obtain rfl := Except.error.inj h
    exact .foreign text

/-! ## A tree on the machine -/

theorem run_postorder (t : Tree) (stack : List Float) (steps : List Step) :
    Machine.run ⟨stack, steps⟩ t.postorder =
      match t.compute with
      | .ok (value, made) => .ok ⟨value :: stack, made.reverse ++ steps⟩
      | .error fault => .error (.fault fault) := by
  induction t generalizing stack steps with
  | leaf value => rfl
  | node left op right ihl ihr =>
    unfold Tree.postorder Tree.compute
    rw [run_append, run_append, ihl]
    cases left.compute with
    | error fault => rfl
    | ok l =>
      obtain ⟨a, before⟩ := l
      simp only [ok_bind]
      rw [ihr]
      cases right.compute with
      | error fault => rfl
      | ok r =>
        obtain ⟨b, between⟩ := r
        simp only [ok_bind, run_cons, step_operator]
        split_ifs with hzero
        · rfl
        · simp

/-! ## What stands below -/

/-- The machine on top of another one. -/
def above (m : Machine) (below : List Float) (before : List Step) : Machine :=
  ⟨m.stack ++ below, m.steps ++ before⟩

theorem step_above (m m' : Machine) (t : Token) (below : List Float) (before : List Step)
    (h : m.step t = .ok m') : (m.above below before).step t = .ok (m'.above below before) := by
  rcases step_cases h with ⟨x, rfl, rfl⟩ | ⟨op, a, b, rest, rfl, hs, hzero, rfl⟩
  · rfl
  · simp only [above, hs, List.cons_append]
    rw [step_operator, if_neg hzero]

/-- A run that comes to its end never touches what stands below. -/
theorem run_above (tokens : List Token) (m m' : Machine) (below : List Float) (before : List Step)
    (h : m.run tokens = .ok m') :
    (m.above below before).run tokens = .ok (m'.above below before) := by
  induction tokens generalizing m with
  | nil =>
    obtain rfl : m = m' := by simpa using h
    rfl
  | cons t tokens ih =>
    rw [run_cons] at h ⊢
    obtain ⟨m₁, h₁, h₂⟩ := bind_eq_ok h
    rw [step_above m m₁ t below before h₁, ok_bind]
    exact ih m₁ h₂

theorem step_before (m : Machine) (t : Token) (before : List Step) :
    (m.above [] before).step t = (m.step t).map fun m' => m'.above [] before := by
  cases h : m.step t with
  | ok m' => exact step_above m m' t [] before h
  | error failure =>
    -- A refusal goes by the operands, and these are the same.
    have hrefusal : Refusal (m.above [] before).stack t failure := by
      simpa [above] using refusal_of_step h
    exact step_of_refusal hrefusal

theorem run_before (tokens : List Token) (m : Machine) (before : List Step) :
    (m.above [] before).run tokens = (m.run tokens).map fun m' => m'.above [] before := by
  induction tokens generalizing m with
  | nil => rfl
  | cons t tokens ih =>
    rw [run_cons, run_cons, step_before]
    cases h : m.step t with
    | error failure => rfl
    | ok m₁ => exact ih m₁

/-! ## The end of a run -/

theorem finish_outcome (strict : Bool) (value : Float) (below : List Float) (steps : List Step) :
    (Machine.finish strict ⟨value :: below, steps⟩).outcome =
      if strict ∧ below ≠ [] then .error (.leftoverOperands below.length)
      else if value.isNaN then .error .notANumber
      else .ok ⟨value, steps.reverse.map Step.text⟩ := by
  unfold finish
  cases strict <;> cases below <;> simp

theorem finish_single (strict : Bool) (value : Float) (steps : List Step) :
    (Machine.finish strict ⟨[value], steps⟩).outcome =
      if value.isNaN then .error .notANumber else .ok ⟨value, steps.reverse.map Step.text⟩ := by
  rw [finish_outcome]
  simp

theorem finish_ok {strict : Bool} {m : Machine} {e : Evaluation}
    (h : (m.finish strict).outcome = .ok e) :
    ∃ below, m.stack = e.value :: below ∧ (strict → below = []) ∧ e.value.isNaN = false ∧
      e.steps = m.steps.reverse.map Step.text := by
  obtain ⟨stack, steps⟩ := m
  match stack with
  | [] => simp [finish] at h
  | value :: below =>
    rw [finish_outcome] at h
    split_ifs at h with hleft hnan
    obtain rfl := Except.ok.inj h
    refine ⟨below, rfl, ?_, by simpa using hnan, rfl⟩
    intro hstrict
    simpa [hstrict] using hleft

end Machine

theorem reduce_outcome (strict : Bool) (tokens : List Token) :
    (Token.reduce strict tokens).outcome =
      Machine.run {} tokens >>= fun m => (m.finish strict).outcome.mapError .fault := by
  unfold Token.reduce
  simp only [Traced.bind_outcome, Traced.ofExcept_outcome, Traced.recover_fail_outcome]

theorem reduce_of_error {strict : Bool} {tokens : List Token} {failure : Failure}
    (h : Machine.run {} tokens = .error failure) : Token.reduce strict tokens = .fail failure := by
  unfold Token.reduce
  rw [h]
  rfl

theorem reduce_of_ok {strict : Bool} {tokens : List Token} {m : Machine}
    (h : Machine.run {} tokens = .ok m) :
    Token.reduce strict tokens = (m.finish strict).recover fun fault => .fail (.fault fault) := by
  unfold Token.reduce
  rw [h]
  rfl

theorem reduce_isNaN {strict : Bool} {tokens : List Token} {e : Evaluation}
    (h : (Token.reduce strict tokens).outcome = .ok e) : e.value.isNaN = false := by
  rw [reduce_outcome] at h
  obtain ⟨m, -, hfinish⟩ := bind_eq_ok h
  obtain ⟨below, -, -, hnan, -⟩ := Machine.finish_ok (mapError_eq_ok hfinish)
  exact hnan

/-! ## Trees evaluated -/

theorem reduce_postorder (strict : Bool) (t : Tree) :
    (Token.reduce strict t.postorder).outcome = t.evaluation.mapError .fault := by
  rw [reduce_outcome, Machine.run_postorder, Tree.evaluation]
  cases t.compute with
  | error fault => rfl
  | ok result =>
    obtain ⟨value, steps⟩ := result
    simp only [ok_bind, List.append_nil]
    rw [Machine.finish_single]
    cases value.isNaN <;> simp

theorem compute_error {t : Tree} {fault : Fault} (h : t.compute = .error fault) :
    fault = .divisionByZero := by
  induction t with
  | leaf value => simp [Tree.compute] at h
  | node left op right ihl ihr =>
    unfold Tree.compute at h
    cases hl : left.compute with
    | error e =>
      rw [hl] at h
      exact ihl (hl.trans h)
    | ok l =>
      obtain ⟨a, before⟩ := l
      rw [hl, ok_bind] at h
      cases hr : right.compute with
      | error e =>
        rw [hr] at h
        exact ihr (hr.trans h)
      | ok r =>
        simp only [hr, ok_bind] at h
        split_ifs at h
        exact (Except.error.inj h).symm

theorem evaluation_error {t : Tree} {fault : Fault} (h : t.evaluation = .error fault) :
    fault = .divisionByZero ∨ fault = .notANumber := by
  unfold Tree.evaluation at h
  cases ht : t.compute with
  | error e =>
    rw [ht] at h
    obtain rfl : e = fault := by simpa using h
    exact .inl (compute_error ht)
  | ok result =>
    simp only [ht, ok_bind] at h
    split_ifs at h
    exact .inr (Except.error.inj h).symm

end Abacus
