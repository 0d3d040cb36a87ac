import Mathlib.Algebra.Order.Field.Power
import Abacus.Number.Decimal
import Abacus.Proofs.Nearest

/-!
# Shortest decimals

The shortest decimal of a code reads back as the code, and no decimal on a coarser grid does. So
none with fewer digits does either.
-/

namespace Abacus.Decimal

open Binary

/-! ## Magnitudes -/

/-- The magnitude of a decimal. -/
def value (d : Decimal) : ℚ := d.digits * 10 ^ ((d.place : ℤ) - 1074)

theorem value_nonneg (d : Decimal) : 0 ≤ d.value := by
  unfold value
  positivity

theorem stepSize_pos : 0 < stepSize := by decide +kernel

theorem stepSize_mul_unit : stepSize * unit = 10 ^ 1074 := by decide +kernel

theorem code_eq (d : Decimal) : d.code = nearest d.value := by
  have hgrid : 0 < stepSize * unit := Nat.mul_pos stepSize_pos unit_pos
  have hvalue : d.value = ((d.digits * 10 ^ d.place : Nat) : ℚ) / (stepSize * unit : Nat) := by
    rw [value, stepSize_mul_unit, zpow_sub₀ (by norm_num), zpow_natCast, zpow_ofNat, Nat.cast_mul,
      Nat.cast_pow, Nat.cast_pow, Nat.cast_ofNat, mul_div_assoc]
  rw [hvalue, ← nearestCode_eq _ hgrid, code]
  apply nearestCode_congr stepSize_pos hgrid
  rw [Nat.pow_eq]
  ring

theorem code_mono (d d' : Decimal) (h : d.digits * 10 ^ d.place ≤ d'.digits * 10 ^ d'.place) :
    d.code ≤ d'.code :=
  nearestCode_mono stepSize_pos stepSize_pos (Nat.mul_le_mul_right _ h)

/-! ## The search -/

variable {c w : Nat}

theorem roundHalfEven_neighbour (n d : Nat) :
    roundHalfEven n d = n / d ∨ roundHalfEven n d = n / d + 1 := by
  unfold roundHalfEven
  simp only
  split <;> omega

/-- A grid gives a decimal that reads back, unless neither neighbour of `w` does. -/
theorem onGrid?_cases (c w place : Nat) :
    (∃ d, onGrid? c w place = some d ∧ d.code = c ∧ d.place = place) ∨
      onGrid? c w place = none ∧ (⟨w / 10 ^ place, place⟩ : Decimal).code ≠ c ∧
        (⟨w / 10 ^ place + 1, place⟩ : Decimal).code ≠ c := by
  unfold onGrid?
  simp only [Nat.pow_eq]
  by_cases hlow : (⟨w / 10 ^ place, place⟩ : Decimal).code = c
  · rw [if_pos hlow]
    by_cases hhigh : (⟨w / 10 ^ place + 1, place⟩ : Decimal).code = c
    · rw [if_pos hhigh]
      -- The nearest of the two is one of them.
      rcases roundHalfEven_neighbour w (10 ^ place) with heq | heq
      · exact .inl ⟨_, rfl, by rw [heq, hlow], rfl⟩
      · exact .inl ⟨_, rfl, by rw [heq, hhigh], rfl⟩
    · rw [if_neg hhigh]
      exact .inl ⟨_, rfl, hlow, rfl⟩
  · rw [if_neg hlow]
    by_cases hhigh : (⟨w / 10 ^ place + 1, place⟩ : Decimal).code = c
    · rw [if_pos hhigh]
      exact .inl ⟨_, rfl, hhigh, rfl⟩
    · rw [if_neg hhigh]
      exact .inr ⟨rfl, hlow, hhigh⟩

/-- A grid of which neither neighbour reads back has no decimal that does. -/
theorem code_ne_of_onGrid? {place : Nat} (hw : (⟨w, 0⟩ : Decimal).code = c)
    (h : onGrid? c w place = none) (digits : Nat) : (⟨digits, place⟩ : Decimal).code ≠ c := by
  have hpos : 0 < 10 ^ place := Nat.pow_pos (by decide)
  obtain ⟨d, hd, -⟩ | ⟨-, hlow, hhigh⟩ := onGrid?_cases c w place
  · cases hd.symm.trans h
  have hbelow := code_mono ⟨w / 10 ^ place, place⟩ ⟨w, 0⟩
    (by simpa using Nat.div_mul_le_self w (10 ^ place))
  have habove := code_mono ⟨w, 0⟩ ⟨w / 10 ^ place + 1, place⟩
    (by simpa using (Nat.lt_mul_of_div_lt (Nat.lt_succ_self _) hpos).le)
  rcases Nat.lt_or_ge (w / 10 ^ place) digits with hlt | hge
  · have hdigits := code_mono ⟨w / 10 ^ place + 1, place⟩ ⟨digits, place⟩
      (Nat.mul_le_mul_right _ hlt)
    omega
  · have hdigits := code_mono ⟨digits, place⟩ ⟨w / 10 ^ place, place⟩
      (Nat.mul_le_mul_right _ hge)
    omega

theorem code_search (hw : (⟨w, 0⟩ : Decimal).code = c) (place : Nat) :
    (search c w place).code = c := by
  induction place with
  | zero => exact hw
  | succ place ih =>
    rw [search]
    obtain ⟨d, hd, hcode, -⟩ | ⟨hnone, -⟩ := onGrid?_cases c w (place + 1)
    · rw [hd, Option.getD_some, hcode]
    · rw [hnone, Option.getD_none, ih]

theorem code_ne_of_search (hw : (⟨w, 0⟩ : Decimal).code = c) {place coarsest : Nat}
    (h : (search c w coarsest).place < place) (hle : place ≤ coarsest) (digits : Nat) :
    (⟨digits, place⟩ : Decimal).code ≠ c := by
  induction coarsest with
  | zero => omega
  | succ coarsest ih =>
    rw [search] at h
    obtain ⟨d, hd, -, hplace⟩ | ⟨hnone, -⟩ := onGrid?_cases c w (coarsest + 1)
    · rw [hd, Option.getD_some, hplace] at h
      omega
    · rw [hnone, Option.getD_none] at h
      rcases hle.lt_or_eq with hlt | rfl
      · exact ih h (by omega)
      · exact code_ne_of_onGrid? hw hnone digits

/-! ## The coarsest grid -/

theorem two_pow_lt_ten_pow {l t : Nat} (h : l * 30103 < 100000 * t) : 2 ^ l < 10 ^ t := by
  have hbase : 2 ^ 100000 ≤ 10 ^ 30103 := by decide +kernel
  apply lt_of_pow_lt_pow_left₀ 100000 (Nat.zero_le _)
  calc (2 ^ l) ^ 100000 = (2 ^ 100000) ^ l := pow_right_comm 2 l 100000
    _ ≤ (10 ^ 30103) ^ l := Nat.pow_le_pow_left hbase l
    _ = 10 ^ (30103 * l) := (pow_mul 10 30103 l).symm
    _ < 10 ^ (100000 * t) := Nat.pow_lt_pow_right (by decide) (by omega)
    _ = (10 ^ t) ^ 100000 := by rw [Nat.mul_comm, pow_mul]

theorem lt_coarsest (w : Nat) : 5 * w < 10 ^ coarsestPlace w := by
  have hlog : 2 ^ w.log2 < 10 ^ (w.log2 * 30103 / 100000 + 1) := two_pow_lt_ten_pow (by omega)
  have hlt : w < 2 ^ (w.log2 + 1) := Nat.lt_log2_self
  rw [coarsestPlace, pow_succ]
  rw [pow_succ] at hlt
  omega

theorem code_zero (place : Nat) : (⟨0, place⟩ : Decimal).code = 0 := by
  have hzero := nearestCode_steps (Nat.zero_le infinityCode) stepSize_pos
  rw [steps_zero, Nat.zero_mul] at hzero
  simp only [code, Nat.zero_mul, hzero]

theorem code_ne_of_coarse (hpos : 0 < c) (hc : c < infinityCode) {place : Nat}
    (h : coarsestPlace (steps c * stepSize) ≤ place) (digits : Nat) :
    (⟨digits, place⟩ : Decimal).code ≠ c := by
  rcases Nat.eq_zero_or_pos digits with rfl | hdigits
  · rw [code_zero]
    exact hpos.ne
  · intro hcode
    have hle := (nearestCode_le_iff stepSize_pos hc).mp hcode.le
    have hcoarse := lt_coarsest (steps c * stepSize)
    have hgrid : 10 ^ coarsestPlace (steps c * stepSize) ≤ 10 ^ place :=
      Nat.pow_le_pow_right (by decide) h
    have hmany : 10 ^ place ≤ digits * 10 ^ place := Nat.le_mul_of_pos_left _ hdigits
    have hnext := Nat.mul_le_mul_right stepSize (steps_succ_le hpos)
    simp only [Nat.pow_eq, Nat.add_mul] at hle
    rw [Nat.mul_assoc] at hnext
    omega

/-! ## The shortest decimal -/

theorem code_finest (hc : c ≤ infinityCode) : (⟨steps c * stepSize, 0⟩ : Decimal).code = c := by
  have hexact := nearestCode_steps hc stepSize_pos
  rw [← Nat.mul_one (steps c * stepSize)] at hexact
  exact hexact

/-- The shortest decimal reads back. -/
theorem code_shortest (hc : c ≤ infinityCode) : (shortest c).code = c :=
  code_search (code_finest hc) _

/-- No decimal on a coarser grid than the shortest one's reads back. -/
theorem code_ne_of_place_lt (hpos : 0 < c) (hc : c < infinityCode) {place : Nat}
    (h : (shortest c).place < place) (digits : Nat) : (⟨digits, place⟩ : Decimal).code ≠ c := by
  rcases Nat.le_total place (coarsestPlace (steps c * stepSize)) with hle | hge
  · exact code_ne_of_search (code_finest hc.le) h hle digits
  · exact code_ne_of_coarse hpos hc hge digits

/-! ## Digits -/

theorem length_toString (n : Nat) : (toString n).length = (Nat.toDigits 10 n).length := by
  rw [Nat.toString_eq_ofList_toDigits, String.length_ofList]

theorem length_toString_pos (n : Nat) : 0 < (toString n).length := by
  rw [length_toString]
  exact Nat.length_toDigits_pos

theorem lt_pow_length (n : Nat) : n < 10 ^ (toString n).length := by
  rw [length_toString]
  exact (Nat.length_toDigits_le_iff (by decide) Nat.length_toDigits_pos).mp le_rfl

theorem pow_length_le {n : Nat} (h : 0 < n) : 10 ^ ((toString n).length - 1) ≤ n := by
  rcases Nat.eq_zero_or_pos ((toString n).length - 1) with hzero | hpos
  · rw [hzero]
    exact h
  · have hpos' := length_toString_pos n
    by_contra hlt
    have hle := (Nat.length_toDigits_le_iff (by decide) hpos).mpr (Nat.lt_of_not_le hlt)
    rw [← length_toString] at hle
    omega

theorem digits_pos (hpos : 0 < c) (hc : c ≤ infinityCode) : 0 < (shortest c).digits := by
  have hcode := code_shortest hc
  generalize shortest c = d at hcode ⊢
  obtain ⟨digits, place⟩ := d
  rcases Nat.eq_zero_or_pos digits with rfl | hdigits
  · rw [code_zero] at hcode
    omega
  · exact hdigits

theorem pow_leadingExponent_le {d : Decimal} (h : 0 < d.digits) :
    10 ^ d.leadingExponent ≤ d.value := by
  have hdigits : ((10 ^ ((toString d.digits).length - 1) : Nat) : ℚ) ≤ d.digits :=
    Nat.cast_le.mpr (pow_length_le h)
  have hlength := length_toString_pos d.digits
  have hsum : d.leadingExponent =
      (((toString d.digits).length - 1 : Nat) : ℤ) + ((d.place : ℤ) - 1074) := by
    rw [leadingExponent]
    omega
  rw [hsum, zpow_add₀ (by norm_num), zpow_natCast, value]
  rw [Nat.cast_pow, Nat.cast_ofNat] at hdigits
  exact mul_le_mul_of_nonneg_right hdigits (by positivity)

theorem value_lt_pow_leadingExponent (d : Decimal) : d.value < 10 ^ (d.leadingExponent + 1) := by
  have hdigits : (d.digits : ℚ) < (10 ^ (toString d.digits).length : Nat) :=
    Nat.cast_lt.mpr (lt_pow_length d.digits)
  have hsum : d.leadingExponent + 1 = ((toString d.digits).length : ℤ) + ((d.place : ℤ) - 1074) := by
    rw [leadingExponent]
    omega
  rw [hsum, zpow_add₀ (by norm_num), zpow_natCast, value]
  rw [Nat.cast_pow, Nat.cast_ofNat] at hdigits
  exact mul_lt_mul_of_pos_right hdigits (by positivity)

/-! ## No shorter decimal -/

theorem nearest_shortest (hc : c ≤ infinityCode) : nearest (shortest c).value = c := by
  rw [← code_eq, code_shortest hc]

theorem nearest_ne_of_coarse (hpos : 0 < c) (hc : c < infinityCode) {e : ℤ}
    (h : ((shortest c).place : ℤ) - 1074 < e) (n : Nat) : nearest (n * 10 ^ e) ≠ c := by
  obtain ⟨place, rfl⟩ : ∃ place : Nat, e = place - 1074 := ⟨(e + 1074).toNat, by omega⟩
  have hcode := code_ne_of_place_lt hpos hc (by omega : (shortest c).place < place) n
  rwa [code_eq] at hcode

/-- The decimal is rounded to the code, and no decimal on a coarser grid is. -/
structure IsShortest (c : Nat) (d : Decimal) : Prop where
  digits_pos : 0 < d.digits
  nearest_eq : nearest d.value = c
  coarse : ∀ e : ℤ, (d.place : ℤ) - 1074 < e → ∀ n : Nat, nearest (n * 10 ^ e) ≠ c

theorem isShortest (hpos : 0 < c) (hc : c < infinityCode) : IsShortest c (shortest c) where
  digits_pos := digits_pos hpos hc.le
  nearest_eq := nearest_shortest hc.le
  coarse := fun _ he n => nearest_ne_of_coarse hpos hc he n

namespace IsShortest

variable {d : Decimal}

theorem le_place (h : IsShortest c d) {e : ℤ} {n : Nat} (hn : nearest (n * 10 ^ e) = c) :
    e ≤ (d.place : ℤ) - 1074 := by
  by_contra hlt
  exact h.coarse e (not_le.mp hlt) n hn

theorem le_place_of_pow (h : IsShortest c d) {e : ℤ} (he : nearest (10 ^ e) = c) :
    e ≤ (d.place : ℤ) - 1074 := by
  apply h.le_place (n := 1)
  rwa [Nat.cast_one, one_mul]

/-- A power of ten that is not rounded up beyond the code is not beyond its shortest decimal. -/
theorem pow_le_value (h : IsShortest c d) {e : ℤ} (he : nearest (10 ^ e) ≤ c) :
    10 ^ e ≤ d.value := by
  rcases he.lt_or_eq with hlt | heq
  · by_contra hnot
    have hmono := nearest_mono d.value_nonneg (not_le.mp hnot).le
    rw [h.nearest_eq] at hmono
    omega
  · have hdigits : (1 : ℚ) ≤ d.digits := Nat.one_le_cast.mpr h.digits_pos
    calc (10 : ℚ) ^ e ≤ 10 ^ ((d.place : ℤ) - 1074) :=
          zpow_le_zpow_right₀ (by norm_num) (h.le_place_of_pow heq)
      _ ≤ d.value := le_mul_of_one_le_left (by positivity) hdigits

/-- No decimal with fewer digits reads back. -/
theorem nearest_ne_of_short (h : IsShortest c d) (hpos : 0 < c) {n k : Nat} (e : ℤ)
    (hn : n < 10 ^ k) (hk : k < (toString d.digits).length) : nearest (n * 10 ^ e) ≠ c := by
  intro hcode
  have hplace := h.le_place hcode
  rcases Nat.eq_zero_or_pos k with rfl | hkpos
  · obtain rfl : n = 0 := by omega
    rw [Nat.cast_zero, zero_mul, ← size_zero, nearest_size (Nat.zero_le _)] at hcode
    omega
  · -- The power of ten between the two decimals reads back as well.
    have hlow : (n : ℚ) * 10 ^ e ≤ 10 ^ d.leadingExponent := by
      have hn : (n : ℚ) ≤ (10 ^ k : Nat) := Nat.cast_le.mpr hn.le
      rw [Nat.cast_pow, Nat.cast_ofNat] at hn
      calc (n : ℚ) * 10 ^ e ≤ 10 ^ k * 10 ^ e := mul_le_mul_of_nonneg_right hn (by positivity)
        _ = 10 ^ ((k : ℤ) + e) := by rw [zpow_add₀ (by norm_num), zpow_natCast]
        _ ≤ 10 ^ d.leadingExponent := by
          apply zpow_le_zpow_right₀ (by norm_num)
          rw [leadingExponent]
          omega
    have hbelow := nearest_mono (by positivity) hlow
    have habove := nearest_mono (by positivity) (pow_leadingExponent_le h.digits_pos)
    rw [hcode] at hbelow
    rw [h.nearest_eq] at habove
    have hcoarse := h.le_place_of_pow (le_antisymm habove hbelow)
    rw [leadingExponent] at hcoarse
    omega

end IsShortest

/-! ## Fractions -/

/-- Whole numbers up to 2^52 have a code. -/
theorem exists_size_eq {n : Nat} (h : n ≤ 2 ^ 52) : ∃ c ≤ infinityCode, size c = n := by
  have hbound : infinityCode = 2047 * 2 ^ 52 := rfl
  rcases Nat.eq_zero_or_pos n with rfl | hpos
  · exact ⟨0, Nat.zero_le _, by rw [size_zero, Nat.cast_zero]⟩
  have hlow : 2 ^ n.log2 ≤ n := Nat.log2_self_le hpos.ne'
  have hhigh : n < 2 ^ (n.log2 + 1) := Nat.lt_log2_self
  have hlog : n.log2 ≤ 52 := by
    by_contra hlt
    have hpow : 2 ^ 53 ≤ 2 ^ n.log2 := Nat.pow_le_pow_right (by decide) (by omega)
    omega
  have hfull : 2 ^ n.log2 * 2 ^ (52 - n.log2) = 2 ^ 52 := by
    rw [← pow_add, Nat.add_sub_cancel' hlog]
  have hk : 2 ^ 52 ≤ n * 2 ^ (52 - n.log2) := hfull ▸ Nat.mul_le_mul_right _ hlow
  have hk' : n * 2 ^ (52 - n.log2) < 2 ^ 53 := by
    have hlt := Nat.mul_lt_mul_of_pos_right hhigh (Nat.two_pow_pos (52 - n.log2))
    rw [pow_succ, Nat.mul_right_comm, hfull] at hlt
    omega
  refine ⟨(1022 + n.log2) * 2 ^ 52 + n * 2 ^ (52 - n.log2), by omega, ?_⟩
  rw [size_eq (.inr hk) hk', Nat.cast_mul, Nat.cast_pow, Nat.cast_ofNat, mul_assoc, ← zpow_natCast,
    ← zpow_add₀ (by norm_num)]
  have hexp : ((52 - n.log2 : Nat) : ℤ) + (((1022 + n.log2 : Nat) : ℤ) - 1074) = 0 := by omega
  rw [hexp, zpow_zero, mul_one]

theorem size_lt_of_fraction (h : ∀ n : Nat, size c ≠ n) : size c < 2 ^ 52 := by
  obtain ⟨g, m, rfl, hg, hm⟩ := exists_binade c
  rw [size_eq hg hm] at h ⊢
  have hexp : (g : ℤ) - 1074 ≤ -1 := by
    by_contra hlt
    obtain ⟨k, hk⟩ : ∃ k : Nat, (g : ℤ) - 1074 = k := ⟨((g : ℤ) - 1074).toNat, by omega⟩
    apply h (m * 2 ^ k)
    rw [hk, zpow_natCast, Nat.cast_mul, Nat.cast_pow, Nat.cast_ofNat]
  have hm : (m : ℚ) < (2 ^ 53 : Nat) := Nat.cast_lt.mpr hm
  rw [Nat.cast_pow, Nat.cast_ofNat] at hm
  calc (m : ℚ) * 2 ^ ((g : ℤ) - 1074) ≤ m * 2 ^ (-1 : ℤ) := by
        gcongr
        norm_num
    _ < 2 ^ 53 * 2 ^ (-1 : ℤ) := mul_lt_mul_of_pos_right hm (by norm_num)
    _ = 2 ^ 52 := by norm_num

namespace IsShortest

variable {d : Decimal}

theorem value_lt_of_fraction (hd : IsShortest c d) (h : ∀ n : Nat, size c ≠ n) :
    d.value < 2 ^ 52 := by
  have hsize := size_lt_of_fraction h
  obtain ⟨c', hc', hsize'⟩ := exists_size_eq le_rfl
  rw [Nat.cast_pow, Nat.cast_ofNat] at hsize'
  by_contra hnot
  have hmono := nearest_mono (by positivity) (not_lt.mp hnot)
  rw [hd.nearest_eq, ← hsize', nearest_size hc'] at hmono
  have hle := size_strictMono.monotone hmono
  linarith

/-- The shortest decimal of a fraction has digits behind the point. -/
theorem place_lt_of_fraction (hd : IsShortest c d) (h : ∀ n : Nat, size c ≠ n) :
    d.place < 1074 := by
  have hvalue := hd.value_lt_of_fraction h
  have hnearest := hd.nearest_eq
  by_contra hlt
  obtain ⟨k, hk⟩ : ∃ k : Nat, d.place = k + 1074 := ⟨d.place - 1074, by omega⟩
  have hwhole : d.value = (d.digits * 10 ^ k : Nat) := by
    have hexp : (d.place : ℤ) - 1074 = k := by omega
    rw [value, hexp, zpow_natCast, Nat.cast_mul, Nat.cast_pow, Nat.cast_ofNat]
  rw [hwhole] at hvalue hnearest
  have hle : d.digits * 10 ^ k ≤ 2 ^ 52 := by exact_mod_cast hvalue.le
  obtain ⟨c', hc', hsize⟩ := exists_size_eq hle
  rw [← hsize, nearest_size hc'] at hnearest
  exact h _ (hnearest ▸ hsize)

theorem leadingExponent_lt_of_fraction (hd : IsShortest c d) (h : ∀ n : Nat, size c ≠ n) :
    d.leadingExponent < 16 := by
  have hvalue := hd.value_lt_of_fraction h
  have hlt : (10 : ℚ) ^ d.leadingExponent < 10 ^ (16 : ℤ) :=
    (pow_leadingExponent_le hd.digits_pos).trans_lt (hvalue.trans (by norm_num))
  exact (zpow_lt_zpow_iff_right₀ (by norm_num)).mp hlt

end IsShortest

/-! ## Small magnitudes -/

theorem le_size_nearest : (10 : ℚ) ^ (-4 : ℤ) ≤ size (nearest (10 ^ (-4 : ℤ))) := by
  have hratio : (10 : ℚ) ^ (-4 : ℤ) = (1 : Nat) / (10000 : Nat) := by norm_num
  have hsteps : unit ≤ steps (nearestCode (1 * unit) 10000) * 10000 := by decide +kernel
  have hcast : (unit : ℚ) ≤ (steps (nearestCode (1 * unit) 10000) * 10000 : Nat) :=
    Nat.cast_le.mpr hsteps
  rw [hratio, ← nearestCode_eq 1 (by decide : 0 < 10000), size, Nat.cast_one,
    div_le_div_iff₀ (by norm_num) cast_unit_pos, one_mul]
  rwa [Nat.cast_mul] at hcast

theorem nearest_le_iff_le_size (hc : c ≤ infinityCode) :
    nearest (10 ^ (-4 : ℤ)) ≤ c ↔ (10 : ℚ) ^ (-4 : ℤ) ≤ size c := by
  constructor
  · intro h
    exact le_size_nearest.trans (size_strictMono.monotone h)
  · intro h
    have hmono := nearest_mono (by positivity) h
    rwa [nearest_size hc] at hmono

/-- The shortest decimal is below 0.0001 just where the magnitude is. -/
theorem IsShortest.leadingExponent_ge_iff {d : Decimal} (h : IsShortest c d)
    (hc : c ≤ infinityCode) :
    -4 ≤ d.leadingExponent ↔ (10 : ℚ) ^ (-4 : ℤ) ≤ size c := by
  rw [← nearest_le_iff_le_size hc]
  constructor
  · intro hge
    have hpow : (10 : ℚ) ^ (-4 : ℤ) ≤ 10 ^ d.leadingExponent :=
      zpow_le_zpow_right₀ (by norm_num) hge
    rw [← h.nearest_eq]
    exact nearest_mono (by positivity) (hpow.trans (pow_leadingExponent_le h.digits_pos))
  · intro hle
    have hlt := (h.pow_le_value hle).trans_lt (value_lt_pow_leadingExponent d)
    have hexp := (zpow_lt_zpow_iff_right₀ (by norm_num)).mp hlt
    omega

end Abacus.Decimal
