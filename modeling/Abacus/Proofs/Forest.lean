import Abacus.Proofs.Conservation
import Abacus.Proofs.Machine

/-!
# The trees of a postfix list

A run that comes to its end has read the post-orders of trees, one for each operand that it leaves.
A strict reduction leaves one.
-/

namespace Abacus

/-- The tokens are the post-orders of so many trees. -/
def Forest (tokens : List Token) (count : Nat) : Prop :=
  ∃ trees : List Tree, tokens = trees.flatMap Tree.postorder ∧ trees.length = count

theorem Forest.number {tokens : List Token} {count : Nat} (h : Forest tokens count) (x : Float) :
    Forest (tokens ++ [.number x]) (count + 1) := by
  obtain ⟨trees, rfl, rfl⟩ := h
  exact ⟨trees ++ [.leaf x], by simp [Tree.postorder], by simp⟩

theorem Forest.operator {tokens : List Token} {count : Nat} (h : Forest tokens (count + 2))
    (op : Operator) : Forest (tokens ++ [.operator op]) (count + 1) := by
  obtain ⟨trees, rfl, hlength⟩ := h
  -- The two last trees become the operands of the new root.
  rcases List.eq_nil_or_concat trees with rfl | ⟨others, right, rfl⟩
  · simp at hlength
  rcases List.eq_nil_or_concat others with rfl | ⟨others, left, rfl⟩
  · simp at hlength
  refine ⟨others ++ [.node left op right], by simp [Tree.postorder], ?_⟩
  simp at hlength
  simpa using hlength

namespace Machine

theorem step_forest {m m' : Machine} {tokens : List Token} {t : Token}
    (h : Forest tokens m.stack.length) (hstep : m.step t = .ok m') :
    Forest (tokens ++ [t]) m'.stack.length := by
  rcases step_cases hstep with ⟨x, rfl, rfl⟩ | ⟨op, a, b, below, rfl, hs, -, rfl⟩
  · exact h.number x
  · rw [hs] at h
    exact h.operator op

theorem run_forest {tokens : List Token} {m : Machine} (h : Machine.run {} tokens = .ok m) :
    Forest tokens m.stack.length := by
  refine foldlM_history (fun tokens m => Forest tokens m.stack.length) ⟨[], rfl, rfl⟩ ?_ h
  intro tokens m t m' _ hforest hstep
  exact step_forest hforest hstep

end Machine

theorem reduce_strict_iff (tokens : List Token) (e : Evaluation) :
    (Token.reduce true tokens).outcome = .ok e ↔
      ∃ t : Tree, tokens = t.postorder ∧ t.evaluation = .ok e := by
  constructor
  · intro h
    have hreduce := h
    rw [reduce_outcome] at h
    obtain ⟨m, hrun, hfinish⟩ := bind_eq_ok h
    obtain ⟨below, hstack, hbelow, -, -⟩ := Machine.finish_ok (mapError_eq_ok hfinish)
    obtain ⟨trees, rfl, hlength⟩ := Machine.run_forest hrun
    rw [hstack, hbelow rfl] at hlength
    obtain ⟨t, rfl⟩ := List.length_eq_one_iff.mp hlength
    rw [List.flatMap_singleton] at hreduce ⊢
    rw [reduce_postorder] at hreduce
    exact ⟨t, rfl, mapError_eq_ok hreduce⟩
  · rintro ⟨t, rfl, he⟩
    rw [reduce_postorder, he, mapError_ok]

theorem Tree.length_numbers (t : Tree) :
    (Token.numbers t.postorder).length = (Token.operators t.postorder).length + 1 := by
  induction t with
  | leaf value => rfl
  | node left op right ihl ihr =>
    simp only [postorder, Token.numbers_append, Token.operators_append, List.length_append, ihl,
      ihr]
    simp [Token.numbers, Token.operators]
    omega

end Abacus
