import Mathlib.Data.List.Perm.Basic
import Abacus.Postfix
import Abacus.Proofs.Parentheses

/-!
# The yard

On proper tokens the yard never fails, so its run is a plain fold. What was put out before is never
looked at again, and a balanced list never reaches below the parenthesis it started on.
-/

namespace Abacus

/-! ## Steps that cannot fail -/

namespace Yard

/-- A step without its refusals: what is no proper token changes nothing. -/
def shift (y : Yard) : Token → Yard
  | .number x => { y with output := .number x :: y.output }
  | .leftParen => { y with pending := .paren :: y.pending }
  | .rightParen =>
    let y := y.releaseWhile Pending.isOperator
    { y with pending := y.pending.drop 1 }
  | .operator op =>
    let y := y.releaseWhile (Pending.yieldsTo op)
    { y with pending := .operator op :: y.pending }
  | .unknownOperator _ | .foreign _ => y

theorem step_eq_shift (y : Yard) (t : Token) (h : t.isProper) : y.step t = .ok (y.shift t) := by
  cases t <;> simp_all [Token.isProper, step, shift]

theorem foldlM_step (tokens : List Token) (y : Yard) (h : ∀ t ∈ tokens, t.isProper) :
    tokens.foldlM step y = .ok (tokens.foldl shift y) := by
  induction tokens generalizing y with
  | nil => rfl
  | cons t tokens ih =>
    rw [List.foldlM_cons, step_eq_shift y t (h t List.mem_cons_self)]
    exact ih _ fun u hu => h u (List.mem_cons_of_mem _ hu)

end Yard

/-- The tokens in postfix order, if something waits from before. -/
def postfixFrom (pending : List Pending) (tokens : List Token) : List Token :=
  (tokens.foldl Yard.shift ⟨[], pending⟩).finish

theorem toPostfix_eq (tokens : List Token) (h : ∀ t ∈ tokens, t.isProper) :
    Token.toPostfix tokens = .ok (postfixFrom [] tokens) := by
  unfold Token.toPostfix
  rw [Yard.foldlM_step tokens {} h]
  rfl

namespace Yard

/-! ## Releasing -/

@[simp]
theorem release_nil : Pending.release [] = [] := rfl

@[simp]
theorem release_paren (waiting : List Pending) :
    Pending.release (.paren :: waiting) = Pending.release waiting := rfl

@[simp]
theorem release_operator (op : Operator) (waiting : List Pending) :
    Pending.release (.operator op :: waiting) = .operator op :: Pending.release waiting := rfl

theorem release_append (first second : List Pending) :
    Pending.release (first ++ second) = Pending.release first ++ Pending.release second :=
  List.filterMap_append

theorem releaseWhile_operator (test : Pending → Bool) (op : Operator) (output : List Token)
    (pending : List Pending) (h : test (.operator op)) :
    releaseWhile test ⟨output, .operator op :: pending⟩ =
      releaseWhile test ⟨.operator op :: output, pending⟩ := by
  simp [releaseWhile, h]

theorem releaseWhile_stop (test : Pending → Bool) (y : Yard)
    (h : ∀ top ∈ y.pending.head?, test top = false) : y.releaseWhile test = y := by
  obtain ⟨output, pending⟩ := y
  cases pending with
  | nil => simp [releaseWhile]
  | cons top pending =>
    have htop := h top rfl
    simp [releaseWhile, htop]

/-- Releasing changes the order in which nothing will come out. -/
theorem releaseWhile_finish (test : Pending → Bool) (y : Yard) :
    (y.releaseWhile test).finish = y.finish := by
  simp only [releaseWhile, finish, List.reverse_append, List.reverse_reverse, List.append_assoc]
  rw [← release_append, List.takeWhile_append_dropWhile]

/-! ## What was put out before -/

def after (y : Yard) (output : List Token) : Yard := { y with output := y.output ++ output }

theorem shift_after (y : Yard) (output : List Token) (t : Token) :
    (y.after output).shift t = (y.shift t).after output := by
  cases t <;> simp [shift, after, releaseWhile]

theorem foldl_after (tokens : List Token) (y : Yard) (output : List Token) :
    tokens.foldl shift (y.after output) = (tokens.foldl shift y).after output := by
  induction tokens generalizing y with
  | nil => rfl
  | cons t tokens ih => rw [List.foldl_cons, List.foldl_cons, shift_after, ih]

theorem finish_after (y : Yard) (output : List Token) :
    (y.after output).finish = output.reverse ++ y.finish := by
  simp [finish, after]

theorem finish_foldl (tokens : List Token) (output : List Token) (pending : List Pending) :
    (tokens.foldl shift ⟨output, pending⟩).finish =
      output.reverse ++ postfixFrom pending tokens := by
  have h := foldl_after tokens ⟨[], pending⟩ output
  simp only [after, List.nil_append] at h
  rw [h, postfixFrom, ← finish_after]
  rfl

/-! ## What waits below a parenthesis -/

def depth (y : Yard) : Nat := y.pending.count .paren

/-- The yard with a parenthesis and more below what waits. -/
def onTopOf (y : Yard) (below : List Pending) : Yard :=
  { y with pending := y.pending ++ .paren :: below }

theorem releaseWhile_onTopOf (test : Pending → Bool) (htest : test .paren = false) (y : Yard)
    (below : List Pending) :
    (y.onTopOf below).releaseWhile test = (y.releaseWhile test).onTopOf below := by
  obtain ⟨output, pending⟩ := y
  induction pending generalizing output with
  | nil => simp [releaseWhile, onTopOf, htest]
  | cons top pending ih =>
    by_cases h : test top
    · cases top with
      | paren => simp [htest] at h
      | operator op =>
        have hrest := ih (.operator op :: output)
        simp only [onTopOf, List.cons_append] at hrest ⊢
        rw [releaseWhile_operator test op _ _ h, releaseWhile_operator test op _ _ h, hrest]
    · simp [releaseWhile, onTopOf, h]

theorem releaseWhile_depth (test : Pending → Bool) (htest : test .paren = false) (y : Yard) :
    (y.releaseWhile test).depth = y.depth := by
  obtain ⟨output, pending⟩ := y
  induction pending generalizing output with
  | nil => rfl
  | cons top pending ih =>
    by_cases h : test top
    · cases top with
      | paren => simp [htest] at h
      | operator op =>
        rw [releaseWhile_operator test op _ _ h, ih]
        simp [depth]
    · rw [releaseWhile_stop test _ (by simpa using h)]

/-- After the operators on top a parenthesis comes, or nothing. -/
theorem releaseWhile_isOperator_pending (y : Yard) :
    (y.releaseWhile Pending.isOperator).pending = [] ∨
      ∃ below, (y.releaseWhile Pending.isOperator).pending = .paren :: below := by
  obtain ⟨output, pending⟩ := y
  induction pending generalizing output with
  | nil => exact .inl rfl
  | cons top pending ih =>
    cases top with
    | paren => exact .inr ⟨pending, rfl⟩
    | operator op =>
      rw [releaseWhile_operator _ _ _ _ rfl]
      exact ih _

theorem releaseWhile_isOperator_paren (y : Yard) (h : 0 < y.depth) :
    ∃ below, (y.releaseWhile Pending.isOperator).pending = .paren :: below := by
  refine (releaseWhile_isOperator_pending y).resolve_left fun hp => ?_
  rw [← releaseWhile_depth Pending.isOperator rfl y, depth, hp] at h
  simp at h

theorem depth_shift (y : Yard) (t : Token) (h : Nested y.depth [t]) :
    (y.shift t).depth + closed [t] = y.depth + opened [t] := by
  cases t with
  | number x => rfl
  | leftParen => simp [shift, depth]
  | rightParen =>
    rw [nested_rightParen] at h
    obtain ⟨below, hp⟩ := releaseWhile_isOperator_paren y h.1
    rw [← releaseWhile_depth Pending.isOperator rfl y]
    simp [shift, depth, hp]
  | operator op =>
    rw [← releaseWhile_depth (Pending.yieldsTo op) rfl y]
    simp [shift, depth]
  | unknownOperator symbol => rfl
  | foreign text => rfl

theorem shift_onTopOf (y : Yard) (below : List Pending) (t : Token) (h : Nested y.depth [t]) :
    (y.onTopOf below).shift t = (y.shift t).onTopOf below := by
  cases t with
  | number x => rfl
  | leftParen => rfl
  | rightParen =>
    rw [nested_rightParen] at h
    obtain ⟨rest, hp⟩ := releaseWhile_isOperator_paren y h.1
    simp only [shift]
    rw [releaseWhile_onTopOf Pending.isOperator rfl]
    simp [onTopOf, hp]
  | operator op =>
    simp only [shift]
    rw [releaseWhile_onTopOf (Pending.yieldsTo op) rfl]
    rfl
  | unknownOperator symbol => rfl
  | foreign text => rfl

theorem depth_foldl (tokens : List Token) (y : Yard) (h : Nested y.depth tokens) :
    (tokens.foldl shift y).depth + closed tokens = y.depth + opened tokens := by
  induction tokens generalizing y with
  | nil => rfl
  | cons t tokens ih =>
    rw [← List.singleton_append] at h ⊢
    have hstep := depth_shift y t h.front
    have hrest := ih (y.shift t) (h.behind hstep)
    rw [List.singleton_append, List.foldl_cons, ← List.singleton_append, closed_append,
      opened_append]
    omega

/-- A list that is nested in what waits keeps to it. -/
theorem foldl_onTopOf (tokens : List Token) (y : Yard) (below : List Pending)
    (h : Nested y.depth tokens) :
    tokens.foldl shift (y.onTopOf below) = (tokens.foldl shift y).onTopOf below := by
  induction tokens generalizing y with
  | nil => rfl
  | cons t tokens ih =>
    rw [← List.singleton_append] at h
    rw [List.foldl_cons, List.foldl_cons, shift_onTopOf y below t h.front]
    exact ih (y.shift t) (h.behind (depth_shift y t h.front))

theorem shift_rightParen_onTopOf (y : Yard) (below : List Pending) (h : y.depth = 0) :
    (y.onTopOf below).shift .rightParen = ⟨y.finish.reverse, below⟩ := by
  have hdepth := releaseWhile_depth Pending.isOperator rfl y
  have hfinish := releaseWhile_finish Pending.isOperator y
  simp only [shift]
  rw [releaseWhile_onTopOf Pending.isOperator rfl]
  rcases releaseWhile_isOperator_pending y with hp | ⟨rest, hp⟩
  · simp only [finish, hp, release_nil, List.append_nil] at hfinish
    simp [onTopOf, hp, finish, ← hfinish]
  · rw [depth, hp] at hdepth
    simp at hdepth
    omega

/-- A balanced list in parentheses puts out its own postfix order and leaves the rest alone. -/
theorem foldl_group (tokens : List Token) (output : List Token) (pending : List Pending)
    (h : Balanced tokens) :
    (Token.leftParen :: tokens ++ [Token.rightParen]).foldl shift ⟨output, pending⟩ =
      ⟨(postfixFrom [] tokens).reverse ++ output, pending⟩ := by
  have hnested : Nested (depth ⟨output, []⟩) tokens := h.nested
  have hdepth := depth_foldl tokens ⟨output, []⟩ hnested
  rw [h.settled] at hdepth
  rw [List.cons_append, List.foldl_cons, List.foldl_append]
  change shift (tokens.foldl shift (onTopOf ⟨output, []⟩ pending)) .rightParen = _
  rw [foldl_onTopOf tokens _ pending hnested, shift_rightParen_onTopOf, finish_foldl]
  · simp
  · simpa [depth] using hdepth

end Yard

end Abacus
