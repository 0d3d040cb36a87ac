import Mathlib.Data.List.Chain
import Abacus.Proofs.Grammar
import Abacus.Proofs.Safety

/-!
# What waits in the yard

Parentheses and operators wait in the order in which they came. An operator never waits right on top
of one that binds as tightly, so between two parentheses at most two operators wait, and the stack
is never much deeper than the parentheses that are open.
-/

namespace Abacus

/-! ## Operators on top of each other -/

namespace Pending

/-- The token that waits. -/
def token : Pending → Token
  | paren => .leftParen
  | operator op => .operator op

/-- What may wait right on top of what: of two operators the upper one binds the tighter. -/
def Above : Pending → Pending → Prop
  | operator upper, operator lower => lower.precedence < upper.precedence
  | _, _ => True

end Pending

/-- From the top of the stack to its bottom. -/
def Layered (pending : List Pending) : Prop := pending.IsChain Pending.Above

theorem layered_nil : Layered [] := .nil

theorem layered_paren {pending : List Pending} :
    Layered (.paren :: pending) ↔ Layered pending :=
  List.isChain_cons.trans (and_iff_right fun _ _ => trivial)

theorem layered_operator {op : Operator} {pending : List Pending} :
    Layered (.operator op :: pending) ↔ Looser op.precedence pending ∧ Layered pending := by
  refine List.isChain_cons.trans (and_congr_left' ⟨fun h other => h _, fun h lower hlower => ?_⟩)
  cases lower with
  | paren => trivial
  | operator other => exact h other hlower

theorem Layered.suffix {pending below : List Pending} (h : Layered pending)
    (hsuffix : below <:+ pending) : Layered below := List.IsChain.suffix h hsuffix

theorem one_le_precedence (op : Operator) : 1 ≤ op.precedence := by cases op <;> decide

theorem precedence_le_two (op : Operator) : op.precedence ≤ 2 := by cases op <;> decide

/-- Operators that wait right above each other bind the tighter the higher they wait. -/
theorem Layered.pairwise {pending : List Pending} {segment : List Operator}
    (h : Layered pending) (hsegment : segment.map Pending.operator <:+: pending) :
    (segment.map Operator.precedence).Pairwise (· > ·) := by
  have hchain : (segment.map Pending.operator).IsChain Pending.Above := List.IsChain.infix h hsegment
  rw [List.isChain_map] at hchain
  exact List.isChain_iff_pairwise.mp ((List.isChain_map Operator.precedence).mpr hchain)

/-- There are only two precedences to go down from the top of a segment. -/
theorem length_le_two {segment : List Operator}
    (h : (segment.map Operator.precedence).Pairwise (· > ·)) : segment.length ≤ 2 := by
  match segment with
  | [] | [_] | [_, _] => simp
  | first :: second :: third :: rest =>
    simp only [List.map_cons, List.pairwise_cons, List.mem_cons, forall_eq_or_imp] at h
    have hfirst := precedence_le_two first
    have hthird := one_le_precedence third
    omega

/-- The precedence of the operator on top, if an operator is on top. -/
def topPrecedence : List Pending → Nat
  | .operator op :: _ => op.precedence
  | _ => 0

theorem topPrecedence_le_two (pending : List Pending) : topPrecedence pending ≤ 2 := by
  match pending with
  | [] | .paren :: _ => exact Nat.zero_le 2
  | .operator op :: _ => exact precedence_le_two op

theorem Looser.topPrecedence_lt {level : Nat} {pending : List Pending} (h : Looser level pending)
    (hlevel : 0 < level) : topPrecedence pending < level := by
  match pending with
  | [] | .paren :: _ => exact hlevel
  | .operator op :: _ => exact h op rfl

/-- Each parenthesis has at most two operators on top, and no more than its precedence allows wait
with the operator on top of all. -/
theorem Layered.length_le {pending : List Pending} (h : Layered pending) :
    pending.length ≤ 3 * pending.count .paren + topPrecedence pending := by
  induction pending with
  | nil => exact Nat.zero_le _
  | cons top pending ih =>
    cases top with
    | paren =>
      have hle := ih (layered_paren.mp h)
      have htop := topPrecedence_le_two pending
      simp only [List.length_cons, List.count_cons_self]
      omega
    | operator op =>
      obtain ⟨hlooser, hlayered⟩ := layered_operator.mp h
      have hle := ih hlayered
      have hlt := hlooser.topPrecedence_lt (one_le_precedence op)
      have hcount : (Pending.operator op :: pending).count .paren = pending.count .paren :=
        List.count_cons_of_ne (by simp)
      rw [List.length_cons, hcount]
      change _ ≤ _ + op.precedence
      omega

namespace Yard

/-! ## One token -/

theorem releaseWhile_suffix (test : Pending → Bool) (y : Yard) :
    (y.releaseWhile test).pending <:+ y.pending := List.dropWhile_suffix test

/-- Below an operator that is put on the stack nothing is left that it would release. -/
theorem looser_releaseWhile (op : Operator) (y : Yard) :
    Looser op.precedence (y.releaseWhile (Pending.yieldsTo op)).pending := by
  intro other hother
  have hstop := List.head?_dropWhile_not (Pending.yieldsTo op) y.pending
  simp only [releaseWhile, Option.mem_def] at hother
  rw [hother] at hstop
  simpa [Pending.yieldsTo] using hstop

theorem layered_shift {y : Yard} (h : Layered y.pending) (t : Token) :
    Layered (y.shift t).pending := by
  cases t with
  | number x => exact h
  | leftParen => exact layered_paren.mpr h
  | rightParen =>
    exact h.suffix ((List.drop_suffix 1 _).trans (releaseWhile_suffix Pending.isOperator y))
  | operator op =>
    exact layered_operator.mpr
      ⟨looser_releaseWhile op y, h.suffix (releaseWhile_suffix (Pending.yieldsTo op) y)⟩
  | unknownOperator symbol => exact h
  | foreign text => exact h

/-- The tokens that wait, first come first. -/
def waiting (y : Yard) : List Token := (y.pending.map Pending.token).reverse

theorem waiting_push (top : Pending) (output : List Token) (pending : List Pending) :
    waiting ⟨output, top :: pending⟩ = waiting ⟨output, pending⟩ ++ [top.token] := by
  simp [waiting]

theorem waiting_sublist {y y' : Yard} (h : y'.pending.Sublist y.pending) :
    y'.waiting.Sublist y.waiting := (h.map Pending.token).reverse

theorem waiting_shift (y : Yard) (t : Token) : ((y.shift t).waiting).Sublist (y.waiting ++ [t]) := by
  cases t with
  | number x => exact List.sublist_append_left _ _
  | leftParen => exact (waiting_push .paren y.output y.pending).symm ▸ List.Sublist.refl _
  | rightParen =>
    refine (waiting_sublist ?_).trans (List.sublist_append_left _ _)
    exact ((List.drop_suffix 1 _).trans (releaseWhile_suffix Pending.isOperator y)).sublist
  | operator op =>
    rw [show y.shift (.operator op) = ⟨_, .operator op :: _⟩ from rfl, waiting_push]
    exact (waiting_sublist (releaseWhile_suffix (Pending.yieldsTo op) y).sublist).append_right _
  | unknownOperator symbol => exact List.sublist_append_left _ _
  | foreign text => exact List.sublist_append_left _ _

/-! ## A whole list -/

theorem layered_foldl (tokens : List Token) {y : Yard} (h : Layered y.pending) :
    Layered (tokens.foldl shift y).pending := by
  induction tokens generalizing y with
  | nil => exact h
  | cons t tokens ih => exact ih (layered_shift h t)

theorem waiting_foldl (tokens : List Token) (y : Yard) :
    ((tokens.foldl shift y).waiting).Sublist (y.waiting ++ tokens) := by
  induction tokens generalizing y with
  | nil => exact List.sublist_append_left _ _
  | cons t tokens ih =>
    have hstep := (waiting_shift y t).append_right tokens
    rw [List.append_assoc, List.singleton_append] at hstep
    exact (ih _).trans hstep

end Yard

/-- What waits after any part of the tokens: parentheses and operators in the order in which they
came, layer on layer, and of nested tokens just the parentheses that are open. -/
theorem stack_layered (tokens : List Token) (hproper : ∀ t ∈ tokens, t.isProper) :
    (∀ first, first <+: tokens → ∃ y, first.foldlM Yard.step {} = .ok y ∧
      y.waiting.Sublist first ∧
      (∀ segment : List Operator, segment.map Pending.operator <:+: y.pending →
        (segment.map Operator.precedence).Pairwise (· > ·) ∧ segment.length ≤ 2) ∧
      (Nested 0 tokens → ∀ depth, depth + closed first = opened first →
        y.pending.count .paren = depth ∧ y.pending.length ≤ 3 * depth + 2)) ∧
    (Nested 0 tokens → PartnersWait tokens) := by
  refine ⟨?_, partnersWait hproper⟩
  rintro first ⟨rest, rfl⟩
  rw [List.forall_mem_append] at hproper
  have hlayered : Layered (first.foldl Yard.shift {}).pending :=
    Yard.layered_foldl first layered_nil
  refine ⟨_, Yard.foldlM_step first {} hproper.1, Yard.waiting_foldl first {}, ?_, ?_⟩
  · intro segment hsegment
    have hpairwise := hlayered.pairwise hsegment
    exact ⟨hpairwise, length_le_two hpairwise⟩
  · intro hnested depth hdepth
    have hopen := Yard.depth_foldl first {} hnested.front
    have hcount : (first.foldl Yard.shift {}).pending.count .paren = depth := by
      simp only [Yard.depth, List.count_nil] at hopen
      omega
    have hlength := hlayered.length_le
    have htop := topPrecedence_le_two (first.foldl Yard.shift {}).pending
    rw [hcount] at hlength
    exact ⟨hcount, by omega⟩

/-- The tokens of `1+2*(3-4/`, behind which as much waits as one open parenthesis allows. -/
def ladenTokens : List Token :=
  [.number 1, .operator .add, .number 2, .operator .mul, .leftParen, .number 3, .operator .sub,
   .number 4, .operator .div]

theorem stack_layered_laden :
    (∀ t ∈ ladenTokens, t.isProper) ∧ Nested 0 ladenTokens ∧ PartnersWait ladenTokens ∧
      ∃ y, ladenTokens.foldlM Yard.step {} = .ok y ∧
        y.pending = [.operator .div, .operator .sub, .paren, .operator .mul, .operator .add] ∧
        (∀ segment : List Operator, segment.map Pending.operator <:+: y.pending →
          (segment.map Operator.precedence).Pairwise (· > ·) ∧ segment.length ≤ 2) ∧
        y.pending.count .paren = 1 ∧ y.pending.length ≤ 3 * 1 + 2 := by
  have hproper : ∀ t ∈ ladenTokens, t.isProper := by simp [ladenTokens, Token.isProper]
  have hnested : Nested 0 ladenTokens := by decide +kernel
  obtain ⟨hparts, hpartners⟩ := stack_layered ladenTokens hproper
  obtain ⟨y, hy, -, hsegments, hdepth⟩ := hparts ladenTokens (List.prefix_refl _)
  obtain rfl : _ = y := Except.ok.inj hy
  exact ⟨hproper, hnested, hpartners hnested, _, hy, rfl, hsegments,
    hdepth hnested 1 (by decide +kernel)⟩

end Abacus
