import Mathlib.Data.List.Infix
import Abacus.Token

/-!
# Parentheses of a token list

A list is balanced if no prefix closes more parentheses than it opens and the whole list closes all
of them. Lists that start inside of parentheses are nested in them.
-/

namespace Abacus

def opened (tokens : List Token) : Nat := tokens.count .leftParen

def closed (tokens : List Token) : Nat := tokens.count .rightParen

/-- No prefix closes more parentheses than are open, with `depth` of them open before. -/
def Nested (depth : Nat) (tokens : List Token) : Prop :=
  ∀ first, first <+: tokens → closed first ≤ depth + opened first

structure Balanced (tokens : List Token) : Prop where
  nested : Nested 0 tokens
  settled : closed tokens = opened tokens

instance (depth : Nat) (tokens : List Token) : Decidable (Nested depth tokens) :=
  decidable_of_iff (∀ first ∈ tokens.inits, closed first ≤ depth + opened first) <| by
    simp [Nested]

instance (tokens : List Token) : Decidable (Balanced tokens) :=
  decidable_of_iff (Nested 0 tokens ∧ closed tokens = opened tokens)
    ⟨fun h => ⟨h.1, h.2⟩, fun h => ⟨h.nested, h.settled⟩⟩

/-! ## Counts -/

@[simp]
theorem opened_nil : opened [] = 0 := rfl

@[simp]
theorem closed_nil : closed [] = 0 := rfl

@[simp]
theorem opened_append (first second : List Token) :
    opened (first ++ second) = opened first + opened second := List.count_append

@[simp]
theorem closed_append (first second : List Token) :
    closed (first ++ second) = closed first + closed second := List.count_append

@[simp]
theorem opened_cons (t : Token) (tokens : List Token) :
    opened (t :: tokens) = opened tokens + if t = .leftParen then 1 else 0 := by
  simp [opened, List.count_cons]

@[simp]
theorem closed_cons (t : Token) (tokens : List Token) :
    closed (t :: tokens) = closed tokens + if t = .rightParen then 1 else 0 := by
  simp [closed, List.count_cons]

/-! ## From the left -/

theorem nested_nil (depth : Nat) : Nested depth [] := by
  intro first h
  rw [List.prefix_nil.mp h]
  simp

theorem nested_cons (depth : Nat) (t : Token) (tokens : List Token) :
    Nested depth (t :: tokens) ↔
      ∀ first, first <+: tokens → closed (t :: first) ≤ depth + opened (t :: first) := by
  constructor
  · intro h first hfirst
    exact h _ (List.cons_prefix_cons.mpr ⟨rfl, hfirst⟩)
  · intro h first hfirst
    rcases List.prefix_cons_iff.mp hfirst with rfl | ⟨rest, rfl, hrest⟩
    · simp
    · exact h rest hrest

theorem nested_leftParen (depth : Nat) (tokens : List Token) :
    Nested depth (.leftParen :: tokens) ↔ Nested (depth + 1) tokens := by
  rw [nested_cons]
  refine forall_congr' fun first => imp_congr_right fun _ => ?_
  simp
  omega

theorem nested_rightParen (depth : Nat) (tokens : List Token) :
    Nested depth (.rightParen :: tokens) ↔ 0 < depth ∧ Nested (depth - 1) tokens := by
  rw [nested_cons]
  constructor
  · intro h
    have hnil := h [] (List.nil_prefix)
    simp at hnil
    refine ⟨hnil, fun first hfirst => ?_⟩
    have := h first hfirst
    simp at this
    omega
  · rintro ⟨hpos, h⟩ first hfirst
    have := h first hfirst
    simp
    omega

theorem nested_other (depth : Nat) (t : Token) (tokens : List Token) (hl : t ≠ .leftParen)
    (hr : t ≠ .rightParen) : Nested depth (t :: tokens) ↔ Nested depth tokens := by
  rw [nested_cons]
  refine forall_congr' fun first => imp_congr_right fun _ => ?_
  simp [hl, hr]

/-! ## From the right -/

theorem nested_append (depth : Nat) (first second : List Token) (h : Nested depth first)
    (hclosed : closed first ≤ depth + opened first) :
    Nested (depth + opened first - closed first) second → Nested depth (first ++ second) := by
  intro hsecond start hstart
  rcases List.prefix_or_prefix_of_prefix hstart (List.prefix_append first second) with hs | hs
  · exact h start hs
  · obtain ⟨rest, rfl⟩ := hs
    have := hsecond rest ((List.prefix_append_right_inj first).mp hstart)
    simp
    omega

theorem Nested.front {depth : Nat} {first second : List Token}
    (h : Nested depth (first ++ second)) : Nested depth first :=
  fun start hstart => h start (hstart.trans (List.prefix_append first second))

theorem Nested.behind {depth depth' : Nat} {first second : List Token}
    (h : Nested depth (first ++ second))
    (hdepth : depth' + closed first = depth + opened first) : Nested depth' second := by
  intro start hstart
  have := h (first ++ start) ((List.prefix_append_right_inj first).mpr hstart)
  simp only [opened_append, closed_append] at this
  omega

theorem Balanced.append {first second : List Token} (hf : Balanced first) (hs : Balanced second) :
    Balanced (first ++ second) := by
  refine ⟨?_, by simp [hf.settled, hs.settled]⟩
  apply nested_append _ _ _ hf.nested (by simp [hf.settled])
  simpa [hf.settled] using hs.nested

end Abacus
