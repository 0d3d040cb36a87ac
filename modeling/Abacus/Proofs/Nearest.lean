import Mathlib.Tactic.FieldSimp
import Abacus.Proofs.Values

/-!
# The nearest number

A rational is rounded to the number whose value is nearest, of two to the even one, and to an
infinity if its magnitude is too great. The code of this number is the code nearest to the
magnitude, so it grows with the magnitude and the value of a number is rounded to the number itself.
-/

namespace Abacus.Binary

/-! ## The code nearest to a magnitude -/

/-- The code nearest to the magnitude of a rational. -/
def nearest (q : ℚ) : Nat := nearestCode (q.num.natAbs * unit) q.den

theorem nearest_le_infinity (q : ℚ) : nearest q ≤ infinityCode := nearestCode_le _ _

theorem nearest_neg (q : ℚ) : nearest (-q) = nearest q := by
  rw [nearest, nearest, Rat.neg_num, Rat.neg_den, Int.natAbs_neg]

theorem nearest_abs (q : ℚ) : nearest |q| = nearest q := by
  rcases abs_choice q with h | h
  · rw [h]
  · rw [h, nearest_neg]

theorem cast_natAbs_num {q : ℚ} (hq : 0 ≤ q) : (q.num.natAbs : ℚ) = q * q.den := by
  rw [Rat.mul_den_eq_num, Nat.cast_natAbs, abs_of_nonneg (Rat.num_nonneg.mpr hq)]

theorem nearestCode_eq (n : Nat) {d : Nat} (hd : 0 < d) :
    nearestCode (n * unit) d = nearest (n / d) := by
  have hcast : (0 : ℚ) < d := Nat.cast_pos.mpr hd
  apply nearestCode_congr hd (Rat.den_pos _)
  have hnum := cast_natAbs_num (div_nonneg n.cast_nonneg hcast.le : 0 ≤ (n / d : ℚ))
  have hcross : ((n / d : ℚ).num.natAbs * d : ℚ) = n * (n / d : ℚ).den := by
    rw [hnum]
    field_simp
  have hcross : (n / d : ℚ).num.natAbs * d = n * (n / d : ℚ).den := by exact_mod_cast hcross
  rw [Nat.mul_right_comm, ← hcross]
  ring

/-- Up to the middle between two neighbours the nearest code is not the upper one. -/
theorem nearest_le_iff {q : ℚ} (hq : 0 ≤ q) {c : Nat} (hc : c < infinityCode) :
    nearest q ≤ c ↔
      2 * q < size c + size (c + 1) ∨ 2 * q = size c + size (c + 1) ∧ c % 2 = 0 := by
  have hden : (0 : ℚ) < q.den := Nat.cast_pos.mpr q.den_pos
  have hsizes : size c + size (c + 1) = ((steps c + steps (c + 1) : Nat) : ℚ) / unit := by
    rw [size, size, ← add_div, Nat.cast_add]
  have htwice : 2 * q = ((2 * (q.num.natAbs * unit) : Nat) : ℚ) / (q.den * unit) := by
    have hunit := cast_unit_pos
    rw [Nat.cast_mul, Nat.cast_mul, cast_natAbs_num hq, Nat.cast_ofNat]
    field_simp
  have hmid : ((steps c + steps (c + 1) : Nat) : ℚ) / unit =
      (((steps c + steps (c + 1)) * q.den : Nat) : ℚ) / (q.den * unit) := by
    rw [Nat.cast_mul, mul_comm, mul_div_mul_left _ _ hden.ne']
  have hscale : (0 : ℚ) < q.den * unit := mul_pos hden cast_unit_pos
  rw [nearest, nearestCode_le_iff q.den_pos hc, hsizes, htwice, hmid,
    div_lt_div_iff_of_pos_right hscale, div_left_inj' hscale.ne', Nat.cast_lt, Nat.cast_inj]

theorem nearest_mono {q q' : ℚ} (hq : 0 ≤ q) (h : q ≤ q') : nearest q ≤ nearest q' := by
  apply nearestCode_mono q.den_pos q'.den_pos
  have hcross : (q.num.natAbs * q'.den : ℚ) ≤ q'.num.natAbs * q.den := by
    rw [cast_natAbs_num hq, cast_natAbs_num (hq.trans h), mul_right_comm]
    gcongr
  have hcross : q.num.natAbs * q'.den ≤ q'.num.natAbs * q.den := by exact_mod_cast hcross
  calc q.num.natAbs * unit * q'.den = q.num.natAbs * q'.den * unit := by ring
    _ ≤ q'.num.natAbs * q.den * unit := Nat.mul_le_mul_right _ hcross
    _ = q'.num.natAbs * unit * q.den := by ring

theorem nearest_size {c : Nat} (hc : c ≤ infinityCode) : nearest (size c) = c := by
  rw [size, ← nearestCode_eq (steps c) unit_pos]
  exact nearestCode_steps hc unit_pos

/-! ## Overflow -/

/-- Magnitudes from here on are rounded to infinity. -/
def overflow : ℚ := 2 ^ 1024 - 2 ^ 970

theorem steps_infinity : steps (infinityCode - 1) + steps infinityCode + 2 * 2 ^ 970 * unit =
    2 * 2 ^ 1024 * unit := by decide +kernel

/-- The middle between the greatest finite magnitude and the count after it. -/
theorem size_infinity : size (infinityCode - 1) + size infinityCode = 2 * overflow := by
  have hcast := congrArg (Nat.cast : Nat → ℚ) steps_infinity
  simp only [Nat.cast_add, Nat.cast_mul, Nat.cast_pow, Nat.cast_ofNat] at hcast
  rw [size, size, ← add_div, div_eq_iff cast_unit_pos.ne', overflow, mul_sub, sub_mul]
  exact eq_sub_of_add_eq hcast

theorem nearest_lt_infinity_iff (q : ℚ) : nearest q < infinityCode ↔ |q| < overflow := by
  have hpos : 0 < infinityCode := by decide
  have hodd : (infinityCode - 1) % 2 ≠ 0 := by decide
  have hle := nearest_le_iff (abs_nonneg q) (Nat.sub_lt hpos Nat.one_pos)
  rw [Nat.sub_add_cancel hpos, size_infinity, nearest_abs] at hle
  rw [Nat.lt_iff_le_pred hpos]
  refine hle.trans ⟨?_, fun h => .inl (by linarith)⟩
  rintro (h | ⟨-, heven⟩)
  · linarith
  · exact absurd heven hodd

/-! ## The nearest magnitude -/

theorem closer_iff {s t : ℚ} (h : s < t) (a : ℚ) : |s - a| < |t - a| ↔ 2 * a < s + t := by
  rcases abs_cases (s - a) with ⟨hs, hs'⟩ | ⟨hs, hs'⟩ <;>
    rcases abs_cases (t - a) with ⟨ht, ht'⟩ | ⟨ht, ht'⟩ <;>
    rw [hs, ht] <;> constructor <;> intro <;> linarith

theorem farther_iff {s t : ℚ} (h : s < t) (a : ℚ) : |t - a| < |s - a| ↔ s + t < 2 * a := by
  -- From the other side the farther one is the closer one.
  have hmirror := closer_iff (neg_lt_neg h) (-a)
  rw [neg_sub_neg, neg_sub_neg, abs_sub_comm a t, abs_sub_comm a s] at hmirror
  rw [hmirror]
  constructor <;> intro <;> linarith

theorem equidistant_iff {s t : ℚ} (h : s < t) (a : ℚ) : |s - a| = |t - a| ↔ 2 * a = s + t := by
  rw [eq_iff_le_not_lt, eq_iff_le_not_lt, ← not_lt, ← not_lt, closer_iff h, farther_iff h]

/-- The first is nearer to a magnitude than the second, or as near and even. -/
def Beats (a : ℚ) (c c' : Nat) : Prop :=
  |size c - a| < |size c' - a| ∨ |size c - a| = |size c' - a| ∧ c % 2 = 0

theorem beats_succ_iff (a : ℚ) (c : Nat) :
    Beats a c (c + 1) ↔ 2 * a < size c + size (c + 1) ∨ 2 * a = size c + size (c + 1) ∧ c % 2 = 0 := by
  have hlt : size c < size (c + 1) := size_strictMono (Nat.lt_succ_self c)
  rw [Beats, closer_iff hlt, equidistant_iff hlt]

theorem succ_beats_iff (a : ℚ) (c : Nat) : Beats a (c + 1) c ↔ ¬ Beats a c (c + 1) := by
  have hlt : size c < size (c + 1) := size_strictMono (Nat.lt_succ_self c)
  have hparity : (c + 1) % 2 = 0 ↔ ¬ c % 2 = 0 := by omega
  rw [Beats, Beats, hparity]
  rcases lt_trichotomy |size c - a| |size (c + 1) - a| with h | h | h
  · simp [h, h.not_gt, h.ne']
  · simp [h]
  · simp [h, h.not_gt, h.ne']

theorem Beats.above {a : ℚ} {c c' : Nat} (h : Beats a c (c + 1)) (hlt : c < c') : Beats a c c' := by
  have hnext : size c < size (c + 1) := size_strictMono (Nat.lt_succ_self c)
  have hle : size (c + 1) ≤ size c' := size_strictMono.monotone hlt
  have hlt := hnext.trans_le hle
  rw [beats_succ_iff] at h
  rw [Beats, closer_iff hlt, equidistant_iff hlt]
  rcases h with h | ⟨heq, heven⟩
  · exact .inl (by linarith)
  · rcases hle.lt_or_eq with hlt | heq'
    · exact .inl (by linarith)
    · exact .inr ⟨by linarith, heven⟩

theorem Beats.below {a : ℚ} {c c' : Nat} (h : Beats a (c + 1) c) (hle : c' ≤ c) :
    Beats a (c + 1) c' := by
  have hnext : size c < size (c + 1) := size_strictMono (Nat.lt_succ_self c)
  have hle : size c' ≤ size c := size_strictMono.monotone hle
  have hlt := hle.trans_lt hnext
  rw [Beats, farther_iff hnext, eq_comm, equidistant_iff hnext] at h
  rw [Beats, farther_iff hlt, eq_comm, equidistant_iff hlt]
  rcases h with h | ⟨heq, heven⟩
  · exact .inl (by linarith)
  · rcases hle.lt_or_eq with hlt | heq'
    · exact .inl (by linarith)
    · exact .inr ⟨by linarith, heven⟩

/-- The nearest code beats all others, and no other code does. -/
theorem nearest_eq_iff {a : ℚ} (ha : 0 ≤ a) (hover : a < overflow) {c : Nat}
    (hc : c < infinityCode) :
    nearest a = c ↔ ∀ c' < infinityCode, c' ≠ c → Beats a c c' := by
  have hfinite : nearest a < infinityCode := by rwa [nearest_lt_infinity_iff, abs_of_nonneg ha]
  constructor
  · rintro rfl c' - hne
    rcases Nat.lt_or_gt_of_ne hne with hlt | hgt
    · obtain ⟨k, hk⟩ : ∃ k, nearest a = k + 1 := ⟨nearest a - 1, by omega⟩
      have hnot : ¬ nearest a ≤ k := by omega
      rw [nearest_le_iff ha (by omega), ← beats_succ_iff, ← succ_beats_iff] at hnot
      rw [hk]
      exact hnot.below (by omega)
    · have hle := (nearest_le_iff ha hc).mp le_rfl
      rw [← beats_succ_iff] at hle
      exact hle.above hgt
  · intro h
    apply Nat.le_antisymm
    · rcases Nat.lt_or_ge (c + 1) infinityCode with hnext | hlast
      · rw [nearest_le_iff ha hc, ← beats_succ_iff]
        exact h (c + 1) hnext (by omega)
      · omega
    · cases c with
      | zero => exact Nat.zero_le _
      | succ k =>
        by_contra hlt
        have hle := (nearest_le_iff ha (by omega : k < infinityCode)).mp (by omega)
        rw [← beats_succ_iff] at hle
        exact (succ_beats_iff a k).mp (h k (by omega) (by omega)) hle

/-! ## The nearest number -/

/-- The number is the one that the rational is rounded to. -/
def RoundsTo (q : ℚ) (x : Float) : Prop :=
  if |q| < overflow then
    x.isFinite = true ∧ ∀ y : Float, y.isFinite = true → value y ≠ value x →
      |value x - q| < |value y - q| ∨ |value x - q| = |value y - q| ∧ x.toBits.toNat % 2 = 0
  else x.isInf = true ∧ (isNegative x = true ↔ q < 0)

/-- The sign of a number is the one of the rational, unless the number is a zero. -/
def SignOf (q : ℚ) (x : Float) : Prop := code x = 0 ∨ (isNegative x = true ↔ q < 0)

theorem exists_signed (q : ℚ) {c : Nat} (hc : c ≤ infinityCode) :
    ∃ x, code x = c ∧ SignOf q x := by
  obtain ⟨x, hcode, hneg⟩ := exists_of_code hc (decide (q < 0))
  exact ⟨x, hcode, .inr (by rw [hneg, decide_eq_true_iff])⟩

theorem toBits_parity (x : Float) : x.toBits.toNat % 2 = code x % 2 := by
  rw [toNat_toBits]
  split <;> omega

theorem abs_value {x : Float} (hx : x.isFinite = true) : |value x| = size (code x) := by
  rw [value_eq hx]
  split <;> simp [abs_of_nonneg (size_nonneg _)]

theorem le_abs_value_sub {x : Float} (hx : x.isFinite = true) (q : ℚ) :
    |size (code x) - (|q|)| ≤ |value x - q| := by
  rw [← abs_value hx]
  exact abs_abs_sub_abs_le _ _

theorem abs_value_sub {x : Float} (hx : x.isFinite = true) {q : ℚ} (hs : SignOf q x) :
    |value x - q| = |size (code x) - (|q|)| := by
  rw [value_eq hx]
  rcases hs with hzero | hs
  · rw [hzero]
    simp
  · cases hneg : isNegative x with
    | true =>
      rw [if_pos rfl, abs_of_neg (hs.mp hneg), ← abs_neg]
      congr 1
      ring
    | false =>
      have hq : 0 ≤ q := not_lt.mp fun hq => by simp [hs.mpr hq] at hneg
      rw [if_neg Bool.false_ne_true, abs_of_nonneg hq]

/-- With the other sign a number is as far away as both magnitudes together. -/
theorem abs_value_sub_of_sign {x : Float} (hx : x.isFinite = true) {q : ℚ} (hs : ¬ SignOf q x) :
    |value x - q| = size (code x) + |q| := by
  unfold SignOf at hs
  have hsize := size_nonneg (code x)
  rw [value_eq hx]
  cases hneg : isNegative x with
  | true =>
    have hq : 0 ≤ q := not_lt.mp fun hq => hs (.inr (by simp [hneg, hq]))
    rw [if_pos rfl, abs_of_nonneg hq, abs_of_nonpos (by linarith)]
    ring
  | false =>
    have hq : q < 0 := not_le.mp fun hq => hs (.inr (by simp [hneg, hq]))
    rw [if_neg Bool.false_ne_true, abs_of_neg hq, abs_of_nonneg (by linarith)]
    ring

theorem value_eq_of_sign {q : ℚ} {x y : Float} (hx : x.isFinite = true) (hy : y.isFinite = true)
    (hcode : code x = code y) (hsx : SignOf q x) (hsy : SignOf q y) : value x = value y := by
  rw [value_eq hx, value_eq hy, hcode]
  rcases Nat.eq_zero_or_pos (code y) with hzero | hpos
  · simp [hzero]
  · have hsx := hsx.resolve_left (by omega)
    have hsy := hsy.resolve_left (by omega)
    have hneg : isNegative x = isNegative y := Bool.eq_iff_iff.mpr (hsx.trans hsy.symm)
    rw [hneg]

/-- A number that no other one beats is not on the wrong side of zero. -/
theorem signOf_of_nearest {q : ℚ} {x : Float} (hx : x.isFinite = true)
    (h : ∀ y : Float, y.isFinite = true → value y ≠ value x → |value x - q| ≤ |value y - q|) :
    SignOf q x := by
  by_contra hs
  obtain ⟨z, hz, -⟩ := exists_of_code (Nat.zero_le infinityCode) false
  have hzfin : z.isFinite = true := by
    rw [isFinite_iff, hz]
    decide
  have hzero : value z = 0 := by
    rw [← abs_eq_zero, abs_value hzfin, hz, size_zero]
  have hpos : 0 < size (code x) := size_pos (Nat.pos_of_ne_zero fun hcode => hs (.inl hcode))
  have hne : value z ≠ value x := by
    intro heq
    rw [← abs_value hx, ← heq, hzero, abs_zero] at hpos
    exact lt_irrefl _ hpos
  have hle := h z hzfin hne
  rw [abs_value_sub_of_sign hx hs, hzero, zero_sub, abs_neg] at hle
  linarith

/-- A number with the nearest code is nearer than any other number, or as near and even. -/
theorem distance_of_nearest {q : ℚ} (hq : |q| < overflow) {x : Float} (hcode : code x = nearest q)
    (hs : SignOf q x) {y : Float} (hy : y.isFinite = true) (hne : value y ≠ value x) :
    |value x - q| < |value y - q| ∨ |value x - q| = |value y - q| ∧ code x % 2 = 0 := by
  have hx : x.isFinite = true := by
    rw [isFinite_iff, hcode]
    exact (nearest_lt_infinity_iff q).mpr hq
  rw [abs_value_sub hx hs]
  rcases eq_or_ne (code y) (code x) with hsame | hdiff
  · -- The two magnitudes are the same, so the other number has the other sign.
    have hsy : ¬ SignOf q y := fun hsy => hne (value_eq_of_sign hy hx hsame hsy hs)
    have hpos : 0 < size (code x) :=
      size_pos (Nat.pos_of_ne_zero fun hzero => hsy (.inl (hsame.trans hzero)))
    have habs : 0 < |q| := by
      rw [abs_pos]
      rintro rfl
      rw [hcode, ← size_zero, nearest_size (Nat.zero_le _), size_zero] at hpos
      exact lt_irrefl _ hpos
    rw [abs_value_sub_of_sign hy hsy, hsame]
    exact .inl (abs_lt.mpr ⟨by linarith, by linarith⟩)
  · have hnearest : nearest |q| = code x := by rw [hcode, nearest_abs]
    have hbeats := (nearest_eq_iff (abs_nonneg q) hq ((isFinite_iff x).mp hx)).mp hnearest
      (code y) ((isFinite_iff y).mp hy) hdiff
    have hle := le_abs_value_sub hy q
    rcases hbeats with hlt | ⟨heq, heven⟩
    · exact .inl (hlt.trans_le hle)
    · rcases hle.lt_or_eq with hlt | hsame
      · exact .inl (heq.trans_lt hlt)
      · exact .inr ⟨heq.trans hsame, heven⟩

/-- A number that no other one is nearer than has the nearest code. -/
theorem code_of_distance {q : ℚ} (hq : |q| < overflow) {x : Float} (hx : x.isFinite = true)
    (hs : SignOf q x)
    (h : ∀ y : Float, y.isFinite = true → value y ≠ value x →
      |value x - q| < |value y - q| ∨ |value x - q| = |value y - q| ∧ code x % 2 = 0) :
    code x = nearest q := by
  have hbeats : ∀ c' < infinityCode, c' ≠ code x → Beats |q| (code x) c' := by
    intro c' hc' hne
    obtain ⟨y, rfl, hsy⟩ := exists_signed q hc'.le
    have hy := (isFinite_iff y).mpr hc'
    have hvalue : value y ≠ value x := by
      intro heq
      have hsize := congrArg abs heq
      rw [abs_value hy, abs_value hx] at hsize
      exact hne (size_strictMono.injective hsize)
    have hbest := h y hy hvalue
    rwa [abs_value_sub hx hs, abs_value_sub hy hsy] at hbest
  rw [← nearest_abs]
  exact ((nearest_eq_iff (abs_nonneg q) hq ((isFinite_iff x).mp hx)).mpr hbeats).symm

theorem roundsTo_finite_iff {q : ℚ} (hq : |q| < overflow) (x : Float) :
    (x.isFinite = true ∧ ∀ y : Float, y.isFinite = true → value y ≠ value x →
      |value x - q| < |value y - q| ∨ |value x - q| = |value y - q| ∧ x.toBits.toNat % 2 = 0) ↔
      code x = nearest q ∧ SignOf q x := by
  rw [toBits_parity]
  constructor
  · rintro ⟨hx, hbest⟩
    have hs : SignOf q x := signOf_of_nearest hx fun y hy hne =>
      (hbest y hy hne).elim le_of_lt fun h => h.1.le
    exact ⟨code_of_distance hq hx hs hbest, hs⟩
  · rintro ⟨hcode, hs⟩
    have hx : x.isFinite = true := by
      rw [isFinite_iff, hcode]
      exact (nearest_lt_infinity_iff q).mpr hq
    exact ⟨hx, fun y hy hne => distance_of_nearest hq hcode hs hy hne⟩

/-- The number that a rational is rounded to has the nearest code. -/
theorem roundsTo_iff (q : ℚ) (x : Float) :
    RoundsTo q x ↔ code x = nearest q ∧ SignOf q x := by
  unfold RoundsTo
  split
  · rename_i hq
    exact roundsTo_finite_iff hq x
  · rename_i hq
    have hnearest : nearest q = infinityCode := by
      rw [← nearest_lt_infinity_iff, not_lt] at hq
      exact (nearest_le_infinity q).antisymm hq
    have hpos : 0 < infinityCode := by decide
    rw [isInf_iff, hnearest]
    refine and_congr_right fun hcode => ⟨.inr, fun hs => hs.resolve_left (by omega)⟩

end Abacus.Binary
