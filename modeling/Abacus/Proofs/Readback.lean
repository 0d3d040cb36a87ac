import Abacus.Proofs.Forest

/-!
# Trees read back from postfix order

A list of numbers and operators in which no operator lacks operands is the post-orders of trees, and
of no other trees. A reduction succeeds on the trees of the list: it needs at least one, no division
by a zero in any, and a last one whose value is a number; it needs just one if it is strict.
-/

namespace Abacus

/-! ## What a tree comes to -/

namespace Tree

/-- The value by the operators alone, whatever they are applied to. -/
def value : Tree → Float
  | leaf value => value
  | node left op right => op.apply left.value right.value

/-- The operator nodes in post-order, each with its operands and its result. -/
def steps : Tree → List Step
  | leaf _ => []
  | node left op right =>
    left.steps ++ right.steps ++ [⟨left.value, op, right.value, op.apply left.value right.value⟩]

/-- No division in the tree has a divisor that equals zero. -/
def Defined : Tree → Prop
  | leaf _ => True
  | node left op right => left.Defined ∧ right.Defined ∧ ¬ (op = .div ∧ right.value == 0)

theorem compute_of_defined {t : Tree} (h : t.Defined) : t.compute = .ok (t.value, t.steps) := by
  induction t with
  | leaf value => rfl
  | node left op right ihl ihr =>
    obtain ⟨hl, hr, hop⟩ := h
    simp only [compute, ihl hl, ihr hr, ok_bind, if_neg hop]
    rfl

theorem defined_of_compute {t : Tree} {result : Float × List Step} (h : t.compute = .ok result) :
    t.Defined := by
  induction t generalizing result with
  | leaf value => trivial
  | node left op right ihl ihr =>
    unfold compute at h
    obtain ⟨l, hl, h⟩ := bind_eq_ok h
    obtain ⟨r, hr, h⟩ := bind_eq_ok h
    have hleft := ihl hl
    have hright := ihr hr
    rw [compute_of_defined hright] at hr
    obtain rfl := Except.ok.inj hr
    refine ⟨hleft, hright, fun hop => ?_⟩
    simp only [if_pos hop] at h
    cases h

end Tree

/-! ## Reading back -/

namespace Tree

/-- The trees that have been read, the latest first, with one token more. -/
def grow : List Tree → Token → List Tree
  | trees, .number x => .leaf x :: trees
  | right :: left :: trees, .operator op => .node left op right :: trees
  | trees, _ => trees

theorem foldl_grow_postorder (t : Tree) (trees : List Tree) :
    t.postorder.foldl grow trees = t :: trees := by
  induction t generalizing trees with
  | leaf value => rfl
  | node left op right ihl ihr =>
    rw [postorder, List.foldl_append, List.foldl_append, ihl, ihr]
    rfl

theorem foldl_grow_flatMap (new trees : List Tree) :
    (new.flatMap postorder).foldl grow trees = new.reverse ++ trees := by
  induction new generalizing trees with
  | nil => rfl
  | cons t new ih =>
    rw [List.flatMap_cons, List.foldl_append, foldl_grow_postorder, ih]
    simp

theorem flatMap_postorder_injective {trees trees' : List Tree}
    (h : trees.flatMap postorder = trees'.flatMap postorder) : trees = trees' := by
  have hgrown := congrArg (List.foldl grow []) h
  rw [foldl_grow_flatMap, foldl_grow_flatMap] at hgrown
  simpa using hgrown

end Tree

/-! ## Operands that suffice -/

/-- Each operator has two operands at least. A number puts one on the stack, and an operator takes
two and puts one back, so that before it the numbers are two more than the operators. -/
def OperandsSuffice (tokens : List Token) : Prop :=
  ∀ first op rest, tokens = first ++ .operator op :: rest →
    (Token.operators first).length + 2 ≤ (Token.numbers first).length

theorem OperandsSuffice.front {first second : List Token} (h : OperandsSuffice (first ++ second)) :
    OperandsSuffice first := by
  rintro start op rest rfl
  exact h start op (rest ++ second) (by simp)

theorem Forest.length_numbers {tokens : List Token} {count : Nat} (h : Forest tokens count) :
    (Token.numbers tokens).length = (Token.operators tokens).length + count := by
  obtain ⟨trees, rfl, rfl⟩ := h
  induction trees with
  | nil => rfl
  | cons t trees ih =>
    have ht := t.length_numbers
    simp only [List.flatMap_cons, Token.numbers_append, Token.operators_append, List.length_append,
      List.length_cons]
    omega

/-- Without its last token a forest is a forest, of two trees at least if that was an operator. -/
theorem Forest.init {tokens : List Token} {t : Token} {count : Nat}
    (h : Forest (tokens ++ [t]) count) :
    ∃ count', Forest tokens count' ∧ ∀ op, t = .operator op → 2 ≤ count' := by
  obtain ⟨trees, htrees, -⟩ := h
  rcases List.eq_nil_or_concat' trees with rfl | ⟨others, last, rfl⟩
  · simp at htrees
  rw [List.flatMap_append, List.flatMap_singleton] at htrees
  cases last with
  | leaf value =>
    obtain ⟨rfl, ht⟩ := List.append_inj' htrees rfl
    refine ⟨_, ⟨others, rfl, rfl⟩, ?_⟩
    rintro op rfl
    cases ht
  | node left op right =>
    rw [Tree.postorder, ← List.append_assoc] at htrees
    obtain ⟨rfl, -⟩ := List.append_inj' htrees rfl
    exact ⟨_, ⟨others ++ [left, right], by simp, rfl⟩, by simp⟩

theorem Forest.operandsSuffice {tokens : List Token} {count : Nat} (h : Forest tokens count) :
    OperandsSuffice tokens := by
  induction tokens using List.reverseRecOn generalizing count with
  | nil => simp [OperandsSuffice]
  | append_singleton tokens t ih =>
    obtain ⟨count', htokens, ht⟩ := h.init
    intro first op rest hsplit
    rcases List.eq_nil_or_concat' rest with rfl | ⟨rest, last, rfl⟩
    · obtain ⟨rfl, hop⟩ := List.append_inj' hsplit rfl
      have hcount := htokens.length_numbers
      have htwo := ht op (by simpa using hop)
      omega
    · rw [← List.cons_append, ← List.append_assoc] at hsplit
      obtain ⟨rfl, -⟩ := List.append_inj' hsplit rfl
      exact ih htokens first op rest rfl

theorem OperandsSuffice.forest {tokens : List Token} (h : OperandsSuffice tokens)
    (hkinds : ∀ t ∈ tokens, t.isPostfix) : ∃ count, Forest tokens count := by
  induction tokens using List.reverseRecOn with
  | nil => exact ⟨0, [], rfl, rfl⟩
  | append_singleton tokens t ih =>
    rw [List.forall_mem_append, List.forall_mem_singleton] at hkinds
    obtain ⟨count, hforest⟩ := ih h.front hkinds.1
    cases t with
    | number x => exact ⟨_, hforest.number x⟩
    | operator op =>
      have htwo := h tokens op [] rfl
      have hcount := hforest.length_numbers
      obtain ⟨more, rfl⟩ : ∃ more, count = more + 2 := ⟨count - 2, by omega⟩
      exact ⟨_, hforest.operator op⟩
    | leftParen => simp [Token.isPostfix] at hkinds
    | rightParen => simp [Token.isPostfix] at hkinds
    | unknownOperator symbol => simp [Token.isPostfix] at hkinds
    | foreign text => simp [Token.isPostfix] at hkinds

theorem operandsSuffice_iff {tokens : List Token} (h : ∀ t ∈ tokens, t.isPostfix) :
    OperandsSuffice tokens ↔ ∃ trees : List Tree, tokens = trees.flatMap Tree.postorder := by
  constructor
  · intro hsuffice
    obtain ⟨count, trees, htrees, -⟩ := hsuffice.forest h
    exact ⟨trees, htrees⟩
  · rintro ⟨trees, rfl⟩
    exact Forest.operandsSuffice ⟨trees, rfl, rfl⟩

/-! ## Trees on the machine -/

namespace Machine

theorem run_flatMap {trees : List Tree} (h : ∀ t ∈ trees, t.Defined) (m : Machine) :
    m.run (trees.flatMap Tree.postorder) =
      .ok ⟨(trees.map Tree.value).reverse ++ m.stack,
        (trees.flatMap Tree.steps).reverse ++ m.steps⟩ := by
  induction trees generalizing m with
  | nil => rfl
  | cons t trees ih =>
    rw [List.forall_mem_cons] at h
    rw [List.flatMap_cons, run_append, run_postorder, Tree.compute_of_defined h.1]
    simp only [ok_bind]
    rw [ih h.2]
    simp

theorem defined_of_run {trees : List Tree} {m m' : Machine}
    (h : m.run (trees.flatMap Tree.postorder) = .ok m') : ∀ t ∈ trees, t.Defined := by
  induction trees generalizing m with
  | nil => simp
  | cons t trees ih =>
    rw [List.flatMap_cons, run_append, run_postorder] at h
    cases ht : t.compute with
    | error fault => simp [ht] at h
    | ok result =>
      simp only [ht, ok_bind] at h
      exact List.forall_mem_cons.mpr ⟨Tree.defined_of_compute ht, ih h⟩

/-- On trees nothing but a division by zero stops the machine. -/
theorem run_flatMap_error {trees : List Tree} {m : Machine} {failure : Failure}
    (h : m.run (trees.flatMap Tree.postorder) = .error failure) :
    failure = .fault .divisionByZero := by
  induction trees generalizing m with
  | nil => simp at h
  | cons t trees ih =>
    rw [List.flatMap_cons, run_append, run_postorder] at h
    cases ht : t.compute with
    | error fault =>
      simp only [ht, error_bind] at h
      rw [← Except.error.inj h, compute_error ht]
    | ok result =>
      simp only [ht, ok_bind] at h
      exact ih h

end Machine

/-! ## Reductions -/

theorem reduce_eq_ok_iff (strict : Bool) (tokens : List Token) (e : Evaluation) :
    (Token.reduce strict tokens).outcome = .ok e ↔
      ∃ trees last, tokens = (trees ++ [last]).flatMap Tree.postorder ∧ (strict → trees = []) ∧
        (∀ t ∈ trees ++ [last], t.Defined) ∧ last.value.isNaN = false ∧
        e = ⟨last.value, ((trees ++ [last]).flatMap Tree.steps).map Step.text⟩ := by
  rw [reduce_outcome]
  constructor
  · intro h
    obtain ⟨m, hrun, hfinish⟩ := bind_eq_ok h
    obtain ⟨below, hstack, hstrict, hnan, hsteps⟩ := Machine.finish_ok (mapError_eq_ok hfinish)
    obtain ⟨trees, rfl, -⟩ := Machine.run_forest hrun
    have hdefined := Machine.defined_of_run hrun
    rw [Machine.run_flatMap hdefined] at hrun
    obtain rfl := Except.ok.inj hrun
    rcases List.eq_nil_or_concat' trees with rfl | ⟨trees, last, rfl⟩
    · simp at hstack
    -- The last tree is on top of the stack, and the others are below.
    simp only [List.map_append, List.map_cons, List.map_nil, List.reverse_append,
      List.reverse_singleton, List.singleton_append, List.append_nil, List.cons.injEq] at hstack
    obtain ⟨hvalue, rfl⟩ := hstack
    refine ⟨trees, last, rfl, fun hs => ?_, hdefined, hvalue ▸ hnan, ?_⟩
    · simpa using hstrict hs
    · obtain ⟨value, steps⟩ := e
      simp only at hvalue hsteps
      simp [hvalue, hsteps]
  · rintro ⟨trees, last, rfl, hstrict, hdefined, hnan, rfl⟩
    have hleft : ¬ (strict ∧ (trees.map Tree.value).reverse ≠ []) := by
      rintro ⟨hs, hne⟩
      simp [hstrict hs] at hne
    rw [Machine.run_flatMap hdefined, ok_bind]
    simp only [List.map_append, List.map_cons, List.map_nil, List.reverse_append,
      List.reverse_singleton, List.singleton_append, List.append_nil]
    rw [Machine.finish_outcome, if_neg hleft, hnan, if_neg Bool.false_ne_true, mapError_ok]
    simp

/-- Only an operator that lacks operands is reported as one. -/
theorem not_operandsSuffice_of_missing {strict : Bool} {tokens : List Token}
    (hkinds : ∀ t ∈ tokens, t.isPostfix) {op : Operator} {available : Nat}
    (h : (Token.reduce strict tokens).outcome = .error (.fault (.missingOperands op available))) :
    ¬ OperandsSuffice tokens := by
  intro hsuffice
  obtain ⟨trees, rfl⟩ := (operandsSuffice_iff hkinds).mp hsuffice
  rw [reduce_outcome] at h
  cases hrun : Machine.run {} (trees.flatMap Tree.postorder) with
  | error failure =>
    rw [hrun, Machine.run_flatMap_error hrun] at h
    simp at h
  | ok m =>
    rw [hrun, ok_bind] at h
    obtain ⟨stack, steps⟩ := m
    cases stack with
    | nil => simp [Machine.finish] at h
    | cons value below =>
      rw [Machine.finish_outcome] at h
      split_ifs at h <;> simp at h

/-- What a reduction makes of a list of numbers and operators, by the trees that the list is the
post-orders of. -/
theorem reduce_postfix (tokens : List Token) (h : ∀ t ∈ tokens, t.isPostfix) :
    (OperandsSuffice tokens ↔ ∃ trees : List Tree, tokens = trees.flatMap Tree.postorder) ∧
      (∀ trees trees' : List Tree, tokens = trees.flatMap Tree.postorder →
        tokens = trees'.flatMap Tree.postorder → trees = trees') ∧
      (∀ strict op available, (Token.reduce strict tokens).outcome =
        .error (.fault (.missingOperands op available)) → ¬ OperandsSuffice tokens) ∧
      (∀ e, (Token.reduce false tokens).outcome = .ok e ↔
        ∃ trees last, tokens = (trees ++ [last]).flatMap Tree.postorder ∧
          (∀ t ∈ trees ++ [last], t.Defined) ∧ last.value.isNaN = false ∧
          e = ⟨last.value, ((trees ++ [last]).flatMap Tree.steps).map Step.text⟩) ∧
      ∀ e, (Token.reduce true tokens).outcome = .ok e ↔
        ∃ t : Tree, tokens = t.postorder ∧ t.Defined ∧ t.value.isNaN = false ∧
          e = ⟨t.value, t.steps.map Step.text⟩ := by
  refine ⟨operandsSuffice_iff h, ?_, fun _ _ _ => not_operandsSuffice_of_missing h, ?_, ?_⟩
  · rintro trees trees' rfl htrees'
    exact Tree.flatMap_postorder_injective htrees'
  · intro e
    simp [reduce_eq_ok_iff]
  · intro e
    rw [reduce_eq_ok_iff]
    constructor
    · rintro ⟨trees, last, rfl, hstrict, hdefined, hnan, rfl⟩
      obtain rfl := hstrict rfl
      exact ⟨last, by simp, by simpa using hdefined, hnan, by simp⟩
    · rintro ⟨t, rfl, hdefined, hnan, rfl⟩
      exact ⟨[], t, by simp, by simp, by simpa using hdefined, hnan, by simp⟩

/-- Two trees: a number that is left over, and a quotient. -/
theorem reduce_postfix_leftover :
    (∀ t ∈ [.number 7, .number 6, .number 3, .operator .div], Token.isPostfix t) ∧
      OperandsSuffice [.number 7, .number 6, .number 3, .operator .div] ∧
      (Token.reduce false [.number 7, .number 6, .number 3, .operator .div]).outcome =
        .ok ⟨2, ["6 / 3 = 2"]⟩ ∧
      ¬ ∃ e, (Token.reduce true [.number 7, .number 6, .number 3, .operator .div]).outcome =
        .ok e := by
  have h : ∀ t ∈ [.number 7, .number 6, .number 3, .operator .div], Token.isPostfix t := by decide
  let quotient : Tree := .node (.leaf 6) .div (.leaf 3)
  obtain ⟨hsuffice, hunique, -, hlax, hstrict⟩ := reduce_postfix _ h
  refine ⟨h, hsuffice.mpr ⟨[.leaf 7, quotient], rfl⟩, (hlax _).mpr ?_, ?_⟩
  · refine ⟨[.leaf 7], quotient, rfl, ?_, by decide +kernel, by decide +kernel⟩
    simp only [List.singleton_append, List.forall_mem_cons]
    exact ⟨trivial, ⟨trivial, trivial, by decide +kernel⟩, by simp⟩
  · rintro ⟨e, he⟩
    obtain ⟨t, ht, -⟩ := (hstrict e).mp he
    have hlength := congrArg List.length (hunique [t] [.leaf 7, quotient] (by simpa using ht) rfl)
    simp at hlength

end Abacus
