import Mathlib.Data.List.Perm.Basic
import Abacus.Proofs.Yard

/-!
# What the yard keeps

Numbers come out in the order in which they went in. Operators come out in another order, and
nothing else comes out.
-/

namespace Abacus

namespace Token

def numbers (tokens : List Token) : List Float :=
  tokens.filterMap fun
    | number x => some x
    | _ => none

def operators (tokens : List Token) : List Operator :=
  tokens.filterMap fun
    | operator op => some op
    | _ => none

/-- Numbers and the four operators, as they stand in a postfix list. -/
def isPostfix : Token → Bool
  | number _ | operator _ => true
  | _ => false

@[simp]
theorem mem_numbers (tokens : List Token) (x : Float) :
    x ∈ numbers tokens ↔ number x ∈ tokens := by
  rw [numbers, List.mem_filterMap]
  constructor
  · rintro ⟨t, ht, hx⟩
    cases t <;> simp_all
  · intro h
    exact ⟨_, h, rfl⟩

theorem numbers_append (first second : List Token) :
    numbers (first ++ second) = numbers first ++ numbers second := List.filterMap_append

theorem operators_append (first second : List Token) :
    operators (first ++ second) = operators first ++ operators second := List.filterMap_append

theorem numbers_singleton {t : Token} (h : t.isPostfix = false) : numbers [t] = [] := by
  cases t <;> simp_all [isPostfix, numbers]

theorem operators_singleton {t : Token} (h : t.isPostfix = false) : operators [t] = [] := by
  cases t <;> simp_all [isPostfix, operators]

end Token

open Token

namespace Yard

/-! ## What waits -/

theorem numbers_release (waiting : List Pending) : numbers (Pending.release waiting) = [] := by
  induction waiting with
  | nil => rfl
  | cons top waiting ih => cases top <;> simpa [numbers] using ih

/-! ## One token -/

theorem finish_rightParen (y : Yard) : (y.shift .rightParen).finish = y.finish := by
  rw [← releaseWhile_finish Pending.isOperator y]
  simp only [shift, finish]
  rcases releaseWhile_isOperator_pending y with h | ⟨below, h⟩ <;> simp [h]

/-- A number or an operator goes behind the output, and operators only come out behind it. All else
changes nothing. -/
theorem shift_finish (y : Yard) (t : Token) :
    t.isPostfix = false ∧ (y.shift t).finish = y.finish ∨
      t.isPostfix = true ∧ ∃ before behind, y.finish = before ++ behind ∧ numbers behind = [] ∧
        (y.shift t).finish = before ++ t :: behind := by
  cases t with
  | number x =>
    refine .inr ⟨rfl, y.output.reverse, Pending.release y.pending, rfl, numbers_release _, ?_⟩
    simp [shift, finish]
  | operator op =>
    rw [← releaseWhile_finish (Pending.yieldsTo op) y]
    exact .inr ⟨rfl, _, _, rfl, numbers_release _, rfl⟩
  | leftParen => exact .inl ⟨rfl, rfl⟩
  | rightParen => exact .inl ⟨rfl, finish_rightParen y⟩
  | unknownOperator symbol => exact .inl ⟨rfl, rfl⟩
  | foreign text => exact .inl ⟨rfl, rfl⟩

theorem numbers_shift (y : Yard) (t : Token) :
    numbers (y.shift t).finish = numbers y.finish ++ numbers [t] := by
  rcases shift_finish y t with ⟨ht, h⟩ | ⟨-, before, behind, hy, hbehind, h⟩
  · rw [h, numbers_singleton ht, List.append_nil]
  · rw [h, hy, ← List.singleton_append, numbers_append, numbers_append, numbers_append, hbehind,
      List.append_nil, List.append_nil]

theorem operators_shift (y : Yard) (t : Token) :
    (operators (y.shift t).finish).Perm (operators y.finish ++ operators [t]) := by
  rcases shift_finish y t with ⟨ht, h⟩ | ⟨-, before, behind, hy, -, h⟩
  · rw [h, operators_singleton ht, List.append_nil]
  · rw [h, hy, ← List.singleton_append, operators_append, operators_append, operators_append,
      List.append_assoc]
    exact List.perm_append_comm.append_left _

theorem isPostfix_shift (y : Yard) (t : Token) (hy : ∀ u ∈ y.finish, u.isPostfix) :
    ∀ u ∈ (y.shift t).finish, u.isPostfix := by
  rcases shift_finish y t with ⟨-, h⟩ | ⟨ht, before, behind, hfinish, -, h⟩
  · rwa [h]
  · rw [hfinish, List.forall_mem_append] at hy
    rw [h, List.forall_mem_append, List.forall_mem_cons]
    exact ⟨hy.1, ht, hy.2⟩

/-! ## A whole list -/

theorem numbers_foldl (tokens : List Token) (y : Yard) :
    numbers (tokens.foldl shift y).finish = numbers y.finish ++ numbers tokens := by
  induction tokens generalizing y with
  | nil => simp [numbers]
  | cons t tokens ih =>
    rw [List.foldl_cons, ih, numbers_shift, List.append_assoc, ← numbers_append]
    rfl

theorem operators_foldl (tokens : List Token) (y : Yard) :
    (operators (tokens.foldl shift y).finish).Perm (operators y.finish ++ operators tokens) := by
  induction tokens generalizing y with
  | nil => simp [operators]
  | cons t tokens ih =>
    rw [List.foldl_cons, ← List.singleton_append, operators_append, ← List.append_assoc]
    exact (ih _).trans ((operators_shift y t).append_right _)

theorem isPostfix_foldl (tokens : List Token) (y : Yard) (hy : ∀ u ∈ y.finish, u.isPostfix) :
    ∀ u ∈ (tokens.foldl shift y).finish, u.isPostfix := by
  induction tokens generalizing y with
  | nil => exact hy
  | cons t tokens ih =>
    rw [List.foldl_cons]
    exact ih _ (isPostfix_shift y t hy)

end Yard

theorem numbers_postfixFrom (tokens : List Token) :
    numbers (postfixFrom [] tokens) = numbers tokens := Yard.numbers_foldl tokens ⟨[], []⟩

theorem operators_postfixFrom (tokens : List Token) :
    (operators (postfixFrom [] tokens)).Perm (operators tokens) :=
  Yard.operators_foldl tokens ⟨[], []⟩

theorem isPostfix_postfixFrom (tokens : List Token) :
    ∀ t ∈ postfixFrom [] tokens, t.isPostfix :=
  Yard.isPostfix_foldl tokens ⟨[], []⟩ (by simp [Yard.finish])

end Abacus
