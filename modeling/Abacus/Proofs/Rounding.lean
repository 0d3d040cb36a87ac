import Mathlib.Order.Monotone.Basic
import Mathlib.Tactic.Linarith
import Mathlib.Tactic.Ring
import Abacus.Number.Binary

/-!
# Rounding to the nearest code

The count of a code grows with the code, by a gap that doubles from one binade to the next. Between
two codes the nearest one changes in the middle of their counts, and on the middle it is the even
one. All else about the nearest code follows from this.
-/

namespace Abacus.Binary

/-! ## Counts -/

/-- A binade has the gap `2 ^ g` and ends where the next one starts. The first one starts at zero. -/
theorem steps_eq {g k : Nat} (h : g = 0 ∨ 2 ^ 52 ≤ k) (hk : k ≤ 2 ^ 53) :
    steps (g * 2 ^ 52 + k) = k * 2 ^ g := by
  unfold steps
  simp only [Nat.pow_eq]
  split
  · obtain rfl : g = 0 := by omega
    simp
  · rcases Nat.lt_or_ge k (2 ^ 53) with hlt | hge
    · obtain ⟨hdiv, hmod⟩ : (g * 2 ^ 52 + k) / 2 ^ 52 = g + 1 ∧
          (g * 2 ^ 52 + k) % 2 ^ 52 = k - 2 ^ 52 := by omega
      rw [hdiv, hmod, Nat.add_sub_cancel, Nat.add_sub_cancel' (by omega)]
    · obtain rfl : k = 2 ^ 53 := by omega
      obtain ⟨hdiv, hmod⟩ : (g * 2 ^ 52 + 2 ^ 53) / 2 ^ 52 = g + 1 + 1 ∧
          (g * 2 ^ 52 + 2 ^ 53) % 2 ^ 52 = 0 := by omega
      rw [hdiv, hmod, Nat.add_sub_cancel]
      ring

theorem exists_binade (c : Nat) :
    ∃ g k, c = g * 2 ^ 52 + k ∧ (g = 0 ∨ 2 ^ 52 ≤ k) ∧ k < 2 ^ 53 := by
  rcases Nat.lt_or_ge c (2 ^ 53) with h | h
  · exact ⟨0, c, by omega, .inl rfl, h⟩
  · exact ⟨c / 2 ^ 52 - 1, 2 ^ 52 + c % 2 ^ 52, by omega, .inr (by omega), by omega⟩

theorem steps_succ {g k : Nat} (h : g = 0 ∨ 2 ^ 52 ≤ k) (hk : k < 2 ^ 53) :
    steps (g * 2 ^ 52 + k + 1) = steps (g * 2 ^ 52 + k) + 2 ^ g := by
  rw [Nat.add_assoc, steps_eq (by omega) hk, steps_eq h (by omega), Nat.succ_mul]

theorem steps_strictMono : StrictMono steps := by
  refine strictMono_nat_of_lt_succ fun c => ?_
  obtain ⟨g, k, rfl, h, hk⟩ := exists_binade c
  rw [steps_succ h hk]
  exact Nat.lt_add_of_pos_right (Nat.two_pow_pos g)

@[simp]
theorem steps_zero : steps 0 = 0 := rfl

/-- The next count is at most twice as large. -/
theorem steps_succ_le {c : Nat} (h : 0 < c) : steps (c + 1) ≤ 2 * steps c := by
  obtain ⟨g, k, rfl, hg, hk⟩ := exists_binade c
  have hk : 0 < k := by omega
  rw [steps_succ hg (by omega), steps_eq hg (by omega)]
  have hle := Nat.mul_le_mul_right (2 ^ g) hk
  omega

/-! ## The middle between two codes -/

theorem roundHalfEven_le_iff {n d k : Nat} (hd : 0 < d) :
    roundHalfEven n d ≤ k ↔
      2 * n < (2 * k + 1) * d ∨ 2 * n = (2 * k + 1) * d ∧ k % 2 = 0 := by
  have hn := Nat.div_add_mod n d
  have hr := Nat.mod_lt n hd
  rw [Nat.mul_comm] at hn
  have hmid : (2 * k + 1) * d = 2 * (k * d) + d := by ring
  rw [hmid]
  unfold roundHalfEven
  rcases lt_trichotomy k (n / d) with hk | hk | hk
  · -- The whole part is beyond `k`.
    have hbelow := Nat.mul_le_mul_right d hk
    rw [Nat.succ_mul] at hbelow
    simp only
    split <;> omega
  · rw [← hk] at hn ⊢
    simp only
    split
    · rename_i hcmp
      have := Nat.compare_eq_lt.mp hcmp
      omega
    · rename_i hcmp
      have := Nat.compare_eq_eq.mp hcmp
      omega
    · rename_i hcmp
      have := Nat.compare_eq_gt.mp hcmp
      omega
  · have habove := Nat.mul_le_mul_right d hk
    rw [Nat.succ_mul] at habove
    simp only
    split <;> omega

theorem roundHalfEven_le {n d k : Nat} (hd : 0 < d) (h : n ≤ k * d) : roundHalfEven n d ≤ k := by
  rw [roundHalfEven_le_iff hd, Nat.add_mul, Nat.mul_assoc]
  omega

theorem le_roundHalfEven {n d k : Nat} (hd : 0 < d) (h : k * d ≤ n) : k ≤ roundHalfEven n d := by
  cases k with
  | zero => exact Nat.zero_le _
  | succ k =>
    by_contra hlt
    have hle := (roundHalfEven_le_iff hd).mp (Nat.le_of_not_lt hlt)
    rw [Nat.add_mul, Nat.mul_assoc] at hle
    rw [Nat.add_mul] at h
    omega

/-- The binade in which a ratio is rounded holds it. -/
theorem exists_nearestCode_eq (n : Nat) {d : Nat} (hd : 0 < d) :
    ∃ g, nearestCode n d = min (g * 2 ^ 52 + roundHalfEven n (d * 2 ^ g)) infinityCode ∧
      (g = 0 ∨ 2 ^ 52 * (d * 2 ^ g) ≤ n) ∧ n < 2 ^ 53 * (d * 2 ^ g) := by
  refine ⟨(n / d).log2 - 52, by simp only [nearestCode, Nat.pow_eq], ?_, ?_⟩
  · rcases Nat.lt_or_ge 52 (n / d).log2 with h | h
    · right
      have hpos : n / d ≠ 0 := by
        intro hzero
        simp [hzero] at h
      calc 2 ^ 52 * (d * 2 ^ ((n / d).log2 - 52))
          = 2 ^ (n / d).log2 * d := by
            rw [Nat.mul_left_comm, ← Nat.pow_add, Nat.add_sub_cancel' h.le, Nat.mul_comm]
        _ ≤ n / d * d := Nat.mul_le_mul_right d (Nat.log2_self_le hpos)
        _ ≤ n := Nat.div_mul_le_self n d
    · exact .inl (by omega)
  · calc n < (n / d + 1) * d := Nat.lt_mul_of_div_lt (Nat.lt_succ_self _) hd
      _ ≤ 2 ^ ((n / d).log2 + 1) * d := Nat.mul_le_mul_right d Nat.lt_log2_self
      _ ≤ 2 ^ (53 + ((n / d).log2 - 52)) * d :=
        Nat.mul_le_mul_right d (Nat.pow_le_pow_right (by omega) (by omega))
      _ = 2 ^ 53 * (d * 2 ^ ((n / d).log2 - 52)) := by rw [Nat.pow_add]; ring

/-- The middle behind a code lies below the binades beyond the code's. -/
theorem middle_lt_binade {g g' k d : Nat} (hd : 0 < d) (hg : g' < g) (hk : k < 2 ^ 53) :
    (steps (g' * 2 ^ 52 + k) + steps (g' * 2 ^ 52 + k + 1)) * d < 2 * (2 ^ 52 * (d * 2 ^ g)) := by
  have hstart : steps (g * 2 ^ 52 + 2 ^ 52) = 2 ^ 52 * 2 ^ g :=
    steps_eq (g := g) (k := 2 ^ 52) (.inr le_rfl) (by omega)
  have hnext : steps (g' * 2 ^ 52 + k + 1) ≤ steps (g * 2 ^ 52 + 2 ^ 52) :=
    steps_strictMono.monotone (by omega)
  have hcode : steps (g' * 2 ^ 52 + k) < steps (g' * 2 ^ 52 + k + 1) :=
    steps_strictMono (Nat.lt_succ_self _)
  calc _ < (2 * (2 ^ 52 * 2 ^ g)) * d := Nat.mul_lt_mul_of_pos_right (by omega) hd
    _ = _ := by ring

/-- The middle behind a code lies beyond the binades below the code's. -/
theorem binade_le_middle {g g' k : Nat} (d : Nat) (hg : g < g') (hk : g' = 0 ∨ 2 ^ 52 ≤ k) :
    2 * (2 ^ 53 * (d * 2 ^ g)) ≤ (steps (g' * 2 ^ 52 + k) + steps (g' * 2 ^ 52 + k + 1)) * d := by
  have hend : steps (g * 2 ^ 52 + 2 ^ 53) = 2 ^ 53 * 2 ^ g :=
    steps_eq (g := g) (k := 2 ^ 53) (.inr (by omega)) le_rfl
  have hcode : steps (g * 2 ^ 52 + 2 ^ 53) ≤ steps (g' * 2 ^ 52 + k) :=
    steps_strictMono.monotone (by omega)
  have hnext : steps (g' * 2 ^ 52 + k) < steps (g' * 2 ^ 52 + k + 1) :=
    steps_strictMono (Nat.lt_succ_self _)
  calc _ = (2 * (2 ^ 53 * 2 ^ g)) * d := by ring
    _ ≤ _ := Nat.mul_le_mul_right d (by omega)

/-- Up to the middle between a code and the next the nearest code is not beyond it. -/
theorem nearestCode_le_iff {n d c : Nat} (hd : 0 < d) (hc : c < infinityCode) :
    nearestCode n d ≤ c ↔
      2 * n < (steps c + steps (c + 1)) * d ∨
        2 * n = (steps c + steps (c + 1)) * d ∧ c % 2 = 0 := by
  obtain ⟨g, hnearest, hlow, hhigh⟩ := exists_nearestCode_eq n hd
  obtain ⟨g', k, rfl, hk, hlt⟩ := exists_binade c
  have hgap : 0 < d * 2 ^ g := Nat.mul_pos hd (Nat.two_pow_pos g)
  rw [hnearest, min_le_iff, or_iff_left (by omega)]
  rcases lt_trichotomy g' g with hg | rfl | hg
  · -- The ratio is in a binade beyond the code's.
    have hlow : 2 ^ 52 * (d * 2 ^ g) ≤ n := hlow.resolve_left (by omega)
    have hround : 2 ^ 52 ≤ roundHalfEven n (d * 2 ^ g) := le_roundHalfEven hgap hlow
    have hmid := middle_lt_binade hd hg hlt
    constructor <;> omega
  · have hmid : (steps (g' * 2 ^ 52 + k) + steps (g' * 2 ^ 52 + k + 1)) * d =
        (2 * k + 1) * (d * 2 ^ g') := by
      rw [steps_succ hk hlt, steps_eq hk hlt.le]
      ring
    have hparity : (g' * 2 ^ 52 + k) % 2 = k % 2 := by omega
    rw [hmid, Nat.add_le_add_iff_left, roundHalfEven_le_iff hgap, hparity]
  · -- The code is in a binade beyond the ratio's.
    have hround : roundHalfEven n (d * 2 ^ g) ≤ 2 ^ 53 := roundHalfEven_le hgap hhigh.le
    have hmid := binade_le_middle d hg hk
    constructor <;> omega

theorem nearestCode_le (n d : Nat) : nearestCode n d ≤ infinityCode := Nat.min_le_right _ _

/-- Ratios are compared across their denominators. -/
theorem nearestCode_mono {n d n' d' : Nat} (hd : 0 < d) (hd' : 0 < d') (h : n * d' ≤ n' * d) :
    nearestCode n d ≤ nearestCode n' d' := by
  rcases (nearestCode_le n' d').lt_or_eq with hlt | heq
  · have hle := (nearestCode_le_iff hd' hlt).mp le_rfl
    rw [nearestCode_le_iff hd hlt]
    generalize steps (nearestCode n' d') + steps (nearestCode n' d' + 1) = mid at hle ⊢
    have hscaled : 2 * n * d' ≤ 2 * n' * d := by nlinarith only [h]
    rcases hle with hle | ⟨heq, heven⟩
    · left
      have hmid := Nat.mul_lt_mul_of_pos_right hle hd
      refine Nat.lt_of_mul_lt_mul_right (a := d') (hscaled.trans_lt (hmid.trans_eq ?_))
      ring
    · rw [heq] at hscaled
      have hmid : 2 * n * d' ≤ mid * d * d' := hscaled.trans_eq (by ring)
      rcases (Nat.le_of_mul_le_mul_right hmid hd').lt_or_eq with hlt | heq
      · exact .inl hlt
      · exact .inr ⟨heq, heven⟩
  · rw [heq]
    exact nearestCode_le n d

theorem nearestCode_congr {n d n' d' : Nat} (hd : 0 < d) (hd' : 0 < d') (h : n * d' = n' * d) :
    nearestCode n d = nearestCode n' d' :=
  (nearestCode_mono hd hd' h.le).antisymm (nearestCode_mono hd' hd h.ge)

/-- A count that has a code is its own rounding. -/
theorem nearestCode_steps {c d : Nat} (hc : c ≤ infinityCode) (hd : 0 < d) :
    nearestCode (steps c * d) d = c := by
  apply Nat.le_antisymm
  · rcases hc.lt_or_eq with hlt | rfl
    · have hnext : steps c < steps (c + 1) := steps_strictMono (Nat.lt_succ_self c)
      have hmid := Nat.mul_lt_mul_of_pos_right hnext hd
      rw [nearestCode_le_iff hd hlt, Nat.add_mul]
      omega
    · exact nearestCode_le _ _
  · cases c with
    | zero => exact Nat.zero_le _
    | succ c =>
      by_contra hlt
      have hprevious : steps c < steps (c + 1) := steps_strictMono (Nat.lt_succ_self c)
      have hmid := Nat.mul_lt_mul_of_pos_right hprevious hd
      have hle := (nearestCode_le_iff hd (by omega)).mp (Nat.le_of_not_lt hlt)
      rw [Nat.add_mul] at hle
      omega

end Abacus.Binary
