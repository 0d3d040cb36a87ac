import Abacus.Proofs.Codes

/-!
# The values of numbers

Code and sign tell what kind of number a number is, and are all there is to it. A finite number stands
for a rational value, which grows with the code, and comparisons compare the values.
-/

namespace Abacus.Binary

open Float.Model Float.Model.UnpackedFloat

/-! ## Parts of a number -/

def sign (x : Float) : Sign := if isNegative x then .negative else .positive

theorem unpackSign_eq (x : Float) :
    Sign.ofBitVec (@unpackSign .binary64 x.toBits.toBitVec) = sign x := by
  have hlt : x.toBits.toNat < 2 ^ 64 := x.toBits.toNat_lt
  have hsign := toNat_unpackSign x.toBits.toBitVec
  unfold sign isNegative Sign.ofBitVec
  simp only [Nat.pow_eq, decide_eq_true_eq]
  by_cases h : 2 ^ 63 ≤ x.toBits.toNat
  · have hne : @unpackSign .binary64 x.toBits.toBitVec ≠ 0#1 := by
      intro hzero
      rw [hzero] at hsign
      change 0 = x.toBits.toNat / 2 ^ 63 at hsign
      omega
    rw [if_neg hne, if_pos h]
  · have heq : @unpackSign .binary64 x.toBits.toBitVec = 0#1 := by
      apply BitVec.eq_of_toNat_eq
      rw [hsign]
      change x.toBits.toNat / 2 ^ 63 = 0
      omega
    rw [if_pos heq, if_neg h]

theorem unpack_cases (x : Float) :
    infinityCode < code x ∧ x.toModel.unpack = .notANumber ∨
      code x = infinityCode ∧ x.toModel.unpack = .infinity (sign x) ∨
      code x = 0 ∧ x.toModel.unpack = .zero (sign x) ∨
      ∃ g m hm, code x < infinityCode ∧ code x = g * 2 ^ 52 + m ∧ (g = 0 ∨ 2 ^ 52 ≤ m) ∧
        m < 2 ^ 53 ∧ x.toModel.unpack = .finite (sign x) m ((g : Int) - 1074) hm := by
  rw [← unpackSign_eq x]
  exact unpack_word_cases x.toBits.toBitVec

/-! ## Kinds of numbers -/

theorem isInf_iff (x : Float) : x.isInf = true ↔ code x = infinityCode := by
  have hpos : 0 < infinityCode := by decide
  change x.toModel.unpack.isInf = true ↔ _
  rcases unpack_cases x with ⟨hc, hx⟩ | ⟨hc, hx⟩ | ⟨hc, hx⟩ | ⟨g, m, hm, hc, -, -, -, hx⟩
  · rw [hx]
    exact iff_of_false Bool.false_ne_true (by omega)
  · rw [hx]
    exact iff_of_true rfl hc
  · rw [hx]
    exact iff_of_false Bool.false_ne_true (by omega)
  · rw [hx]
    exact iff_of_false Bool.false_ne_true (by omega)

theorem isFinite_iff (x : Float) : x.isFinite = true ↔ code x < infinityCode := by
  have hpos : 0 < infinityCode := by decide
  change x.toModel.unpack.isFinite = true ↔ _
  rcases unpack_cases x with ⟨hc, hx⟩ | ⟨hc, hx⟩ | ⟨hc, hx⟩ | ⟨g, m, hm, hc, -, -, -, hx⟩
  · rw [hx]
    exact iff_of_false Bool.false_ne_true (by omega)
  · rw [hx]
    exact iff_of_false Bool.false_ne_true (by omega)
  · rw [hx]
    exact iff_of_true rfl (by omega)
  · rw [hx]
    exact iff_of_true rfl hc

theorem toBits_injective {x y : Float} (h : x.toBits = y.toBits) : x = y := by
  obtain ⟨⟨_, _⟩⟩ := x
  obtain ⟨⟨_, _⟩⟩ := y
  cases h
  rfl

theorem toNat_toBits (x : Float) :
    x.toBits.toNat = code x + if isNegative x then 2 ^ 63 else 0 := by
  have hlt : x.toBits.toNat < 2 ^ 64 := x.toBits.toNat_lt
  simp only [code, isNegative, Nat.pow_eq, decide_eq_true_eq]
  split <;> omega

/-- Code and sign are all there is to a number. -/
theorem eq_of_code {x y : Float} (hcode : code x = code y)
    (hsign : isNegative x = isNegative y) : x = y := by
  apply toBits_injective
  apply UInt64.toNat_inj.mp
  rw [toNat_toBits, toNat_toBits, hcode, hsign]

theorem exists_of_code {c : Nat} (hc : c ≤ infinityCode) (negative : Bool) :
    ∃ x, code x = c ∧ isNegative x = negative := by
  have hbound : infinityCode = 2047 * 2 ^ 52 := rfl
  obtain ⟨w, hw⟩ : ∃ w : UInt64, w.toNat = c + if negative then 2 ^ 63 else 0 := by
    refine ⟨UInt64.ofNat (c + if negative then 2 ^ 63 else 0), ?_⟩
    rw [UInt64.toNat_ofNat']
    split <;> omega
  have hbits : (Float.ofBits w).toBits = w := by
    apply toBits_ofBits
    rw [hw]
    split <;> omega
  refine ⟨Float.ofBits w, ?_, ?_⟩
  · rw [code, hbits, hw, Nat.pow_eq]
    split <;> omega
  · rw [isNegative, hbits, hw, Nat.pow_eq]
    cases negative
    · simpa using by omega
    · simp

theorem code_ofCode {c : Nat} (hc : c ≤ infinityCode) :
    code (ofCode c) = c ∧ isNegative (ofCode c) = false := by
  have hbound : infinityCode = 2047 * 2 ^ 52 := rfl
  have hword : (UInt64.ofNat c).toNat = c := toNat_ofNat hc
  rw [code, isNegative, toBits_ofCode hc, hword, Nat.pow_eq, decide_eq_false_iff_not]
  omega

/-! ## Values -/

/-- The value of a finite number. -/
def value (x : Float) : ℚ :=
  match x.toModel.unpack with
  | .finite s m e _ => s.apply m * 2 ^ e
  | _ => 0

/-- The steps that make up one. -/
def unit : Nat := 2 ^ 1074

theorem pow_eq_unit : Nat.pow 2 1074 = unit := by
  -- Taken as it is, `Nat.pow_eq` has Lean try to evaluate the power.
  have hpow : ∀ b n : Nat, Nat.pow b n = b ^ n := fun _ _ => Nat.pow_eq
  simp only [hpow, unit]

theorem unit_pos : 0 < unit := pow_pos two_pos 1074

theorem cast_unit_pos : (0 : ℚ) < unit := Nat.cast_pos.mpr unit_pos

/-- The magnitude that a code stands for. -/
def size (c : Nat) : ℚ := steps c / unit

theorem size_strictMono : StrictMono size := by
  intro c c' h
  have hsteps : (steps c : ℚ) < steps c' := Nat.cast_lt.mpr (steps_strictMono h)
  exact div_lt_div_of_pos_right hsteps cast_unit_pos

@[simp]
theorem size_zero : size 0 = 0 := by rw [size, steps_zero, Nat.cast_zero, zero_div]

theorem size_pos {c : Nat} (h : 0 < c) : 0 < size c := size_zero ▸ size_strictMono h

theorem size_nonneg (c : Nat) : 0 ≤ size c := by
  exact div_nonneg (Nat.cast_nonneg _) cast_unit_pos.le

theorem size_eq {g m : Nat} (h : g = 0 ∨ 2 ^ 52 ≤ m) (hm : m < 2 ^ 53) :
    size (g * 2 ^ 52 + m) = m * 2 ^ ((g : Int) - 1074) := by
  rw [size, unit, steps_eq h hm.le, zpow_sub₀ two_ne_zero, zpow_natCast, zpow_ofNat, Nat.cast_mul,
    Nat.cast_pow, Nat.cast_pow, Nat.cast_ofNat, mul_div_assoc]

theorem value_eq {x : Float} (h : x.isFinite = true) :
    value x = if isNegative x then -size (code x) else size (code x) := by
  rw [isFinite_iff] at h
  unfold value
  rcases unpack_cases x with ⟨hc, hx⟩ | ⟨hc, hx⟩ | ⟨hc, hx⟩ | ⟨g, m, hm, -, hc, hg, hlt, hx⟩
  · omega
  · omega
  · rw [hx, hc]
    simp
  · rw [hx, hc, size_eq hg hlt, sign]
    cases isNegative x with
    | false => rfl
    | true => exact neg_mul (m : ℚ) _

/-! ## Comparisons -/

theorem compare_size (c c' : Nat) : compare (size c) (size c') = compare c c' := by
  rcases lt_trichotomy c c' with h | rfl | h
  · rw [compare_lt_iff_lt.mpr h, compare_lt_iff_lt.mpr (size_strictMono h)]
  · rw [compare_eq_iff_eq.mpr rfl, compare_eq_iff_eq.mpr rfl]
  · rw [compare_gt_iff_gt.mpr h, compare_gt_iff_gt.mpr (size_strictMono h)]

theorem compare_parts {g m g' m' : Nat} (h : g = 0 ∨ 2 ^ 52 ≤ m) (hm : m < 2 ^ 53)
    (h' : g' = 0 ∨ 2 ^ 52 ≤ m') (hm' : m' < 2 ^ 53) :
    (compare ((g : Int) - 1074) ((g' : Int) - 1074)).then (compare m m') =
      compare (g * 2 ^ 52 + m) (g' * 2 ^ 52 + m') := by
  rcases lt_trichotomy g g' with hg | rfl | hg
  · rw [compare_lt_iff_lt.mpr (by omega : (g : Int) - 1074 < g' - 1074),
      compare_lt_iff_lt.mpr (by omega : g * 2 ^ 52 + m < g' * 2 ^ 52 + m')]
    rfl
  · rw [compare_eq_iff_eq.mpr rfl]
    rcases lt_trichotomy m m' with hlt | rfl | hlt
    · rw [compare_lt_iff_lt.mpr hlt, compare_lt_iff_lt.mpr (Nat.add_lt_add_left hlt _)]
      rfl
    · rw [compare_eq_iff_eq.mpr rfl, compare_eq_iff_eq.mpr rfl]
      rfl
    · rw [compare_gt_iff_gt.mpr hlt, compare_gt_iff_gt.mpr (Nat.add_lt_add_left hlt _)]
      rfl
  · rw [compare_gt_iff_gt.mpr (by omega : (g' : Int) - 1074 < g - 1074),
      compare_gt_iff_gt.mpr (by omega : g' * 2 ^ 52 + m' < g * 2 ^ 52 + m)]
    rfl

theorem compare_neg_neg (a b : ℚ) : compare (-a) (-b) = (compare a b).swap := by
  rcases lt_trichotomy a b with h | rfl | h
  · rw [compare_lt_iff_lt.mpr h, compare_gt_iff_gt.mpr (neg_lt_neg h)]
    rfl
  · rw [compare_eq_iff_eq.mpr rfl, compare_eq_iff_eq.mpr rfl]
    rfl
  · rw [compare_gt_iff_gt.mpr h, compare_lt_iff_lt.mpr (neg_lt_neg h)]
    rfl

/-- Finite numbers compare as their values do. -/
theorem compare_value {x y : Float} (hx : x.isFinite = true) (hy : y.isFinite = true) :
    x.toModel.unpack.compare y.toModel.unpack = some (compare (value x) (value y)) := by
  have hzero : ∀ z : Float, (if isNegative z then -size 0 else size 0) = 0 := by simp
  rw [value_eq hx, value_eq hy]
  rw [isFinite_iff] at hx hy
  rcases unpack_cases x with ⟨hc, hux⟩ | ⟨hc, hux⟩ | ⟨hc, hux⟩ | ⟨g, m, hm, -, hc, hg, hlt, hux⟩
  · omega
  · omega
  · rcases unpack_cases y with
      ⟨hc', huy⟩ | ⟨hc', huy⟩ | ⟨hc', huy⟩ | ⟨g', m', hm', -, hc', -, -, huy⟩
    · omega
    · omega
    · rw [hux, huy, hc, hc', hzero, hzero]
      exact congrArg some (compare_eq_iff_eq.mpr rfl).symm
    · have hpos : 0 < size (code y) := size_pos (by omega)
      rw [hux, huy, hc, hzero, sign, sign]
      cases isNegative y with
      | false => exact congrArg some (compare_lt_iff_lt.mpr hpos).symm
      | true => exact congrArg some (compare_gt_iff_gt.mpr (neg_lt_zero.mpr hpos)).symm
  · have hpos : 0 < size (code x) := size_pos (by omega)
    rcases unpack_cases y with
      ⟨hc', huy⟩ | ⟨hc', huy⟩ | ⟨hc', huy⟩ | ⟨g', m', hm', -, hc', hg', hlt', huy⟩
    · omega
    · omega
    · rw [hux, huy, hc', hzero, sign, sign]
      cases isNegative x with
      | false => exact congrArg some (compare_gt_iff_gt.mpr hpos).symm
      | true => exact congrArg some (compare_lt_iff_lt.mpr (neg_lt_zero.mpr hpos)).symm
    · have hpos' : 0 < size (code y) := size_pos (by omega)
      have hparts := compare_parts hg hlt hg' hlt'
      rw [← hc, ← hc', ← compare_size (code x)] at hparts
      rw [hux, huy, sign, sign]
      cases isNegative x <;> cases isNegative y
      · exact congrArg some hparts
      · have hlt : -size (code y) < size (code x) := by linarith
        exact congrArg some (compare_gt_iff_gt.mpr hlt).symm
      · have hlt : -size (code x) < size (code y) := by linarith
        exact congrArg some (compare_lt_iff_lt.mpr hlt).symm
      · have hswap := congrArg Ordering.swap hparts
        exact congrArg some (hswap.trans (compare_neg_neg _ _).symm)

theorem beq_iff {x y : Float} (hx : x.isFinite = true) (hy : y.isFinite = true) :
    (x == y) = true ↔ value x = value y := by
  change (x.toModel.unpack.compare y.toModel.unpack == some .eq) = true ↔ _
  rw [compare_value hx hy]
  simp

theorem le_iff {x y : Float} (hx : x.isFinite = true) (hy : y.isFinite = true) :
    x ≤ y ↔ value x ≤ value y := by
  have hle : x ≤ y ↔ (x.toModel.unpack.compare y.toModel.unpack).any (·.isLE) = true := by
    change decide (x.toModel ≤ y.toModel) = true ↔ _
    rw [decide_eq_true_iff]
    rfl
  rw [hle, compare_value hx hy]
  simp [Ordering.isLE_iff_ne_gt, compare_gt_iff_gt]

end Abacus.Binary
