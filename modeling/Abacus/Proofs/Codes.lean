import Abacus.Number.Reading
import Abacus.Proofs.Rounding

/-!
# Numbers and their codes

A word of 64 bits that stands for a number is found again when it is taken apart and put together.
So a number that is made from a code has this code and no sign: one of these is zero, and all others
are positive.
-/

namespace Abacus.Binary

open Float.Model Float.Model.UnpackedFloat

/-! ## Words -/

theorem toBitVec_ofBitVec (b : BitVec 1) : (Sign.ofBitVec b).toBitVec = b := by
  revert b
  decide

theorem toNat_unpackExponent (b : BitVec Format.binary64.numBits) :
    (unpackExponent b).toNat = b.toNat / 2 ^ 52 % 2 ^ 11 := by
  simp [unpackExponent, Nat.shiftRight_eq_div_pow]

theorem toNat_unpackMantissa (b : BitVec Format.binary64.numBits) :
    (unpackMantissa b).toNat = b.toNat % 2 ^ 52 := by
  simp [unpackMantissa]

theorem toNat_unpackSign (b : BitVec Format.binary64.numBits) :
    (unpackSign b).toNat = b.toNat / 2 ^ 63 := by
  have hlt : b.toNat < 2 ^ 64 := b.isLt
  change (BitVec.extractLsb 63 63 b).toNat = _
  rw [BitVec.extractLsb_toNat, Nat.shiftRight_eq_div_pow]
  omega

theorem unpackExponent_eq_top_iff (b : BitVec Format.binary64.numBits) :
    unpackExponent b = -1#_ ↔ b.toNat / 2 ^ 52 % 2 ^ 11 = 2047 := by
  rw [← toNat_unpackExponent]
  exact ⟨fun h => congrArg BitVec.toNat h, fun h => BitVec.eq_of_toNat_eq h⟩

theorem unpackExponent_eq_zero_iff (b : BitVec Format.binary64.numBits) :
    unpackExponent b = 0#_ ↔ b.toNat / 2 ^ 52 % 2 ^ 11 = 0 := by
  rw [← toNat_unpackExponent]
  exact ⟨fun h => congrArg BitVec.toNat h, fun h => BitVec.eq_of_toNat_eq h⟩

theorem unpackMantissa_eq_zero_iff (b : BitVec Format.binary64.numBits) :
    unpackMantissa b = 0#_ ↔ b.toNat % 2 ^ 52 = 0 := by
  rw [← toNat_unpackMantissa]
  exact ⟨fun h => congrArg BitVec.toNat h, fun h => BitVec.eq_of_toNat_eq h⟩

/-- One word behind another. -/
theorem toNat_append_eq {n k : Nat} (x : BitVec n) (y : BitVec k) :
    (x ++ y).toNat = x.toNat * 2 ^ k + y.toNat := by
  rw [BitVec.toNat_append, ← Nat.shiftLeft_add_eq_or_of_lt y.isLt, Nat.shiftLeft_eq]

/-- Sign, exponent and mantissa make up the word again. -/
theorem packComponents_unpack (b : BitVec Format.binary64.numBits) :
    packComponents .binary64 (Sign.ofBitVec (unpackSign b)) (unpackExponent b)
      (unpackMantissa b) = b := by
  have hlt : b.toNat < 2 ^ 64 := b.isLt
  apply BitVec.eq_of_toNat_eq
  rw [packComponents, toBitVec_ofBitVec, toNat_append_eq, toNat_append_eq, toNat_unpackSign,
    toNat_unpackExponent, toNat_unpackMantissa]
  change (b.toNat / 2 ^ 63 * 2 ^ 11 + b.toNat / 2 ^ 52 % 2 ^ 11) * 2 ^ 52 + b.toNat % 2 ^ 52 =
    b.toNat
  omega

/-- The mantissa with its leading one. -/
theorem toNat_append_unpackMantissa (b : BitVec Format.binary64.numBits) :
    (1#1 ++ unpackMantissa b).toNat = 2 ^ 52 + (unpackMantissa b).toNat := by
  rw [toNat_append_eq]
  exact congrArg (· + _) (Nat.one_mul _)

/-- What a word stands for, by its exponent and its mantissa. -/
theorem unpack_parts (b : BitVec Format.binary64.numBits) :
    unpackExponent b = -1#_ ∧ unpackMantissa b ≠ 0#_ ∧
        UnpackedFloat.unpack .binary64 b = .notANumber ∨
      unpackExponent b = -1#_ ∧ unpackMantissa b = 0#_ ∧
        UnpackedFloat.unpack .binary64 b = .infinity (.ofBitVec (unpackSign b)) ∨
      unpackExponent b = 0#_ ∧ unpackMantissa b = 0#_ ∧
        UnpackedFloat.unpack .binary64 b = .zero (.ofBitVec (unpackSign b)) ∨
      unpackExponent b = 0#_ ∧ unpackMantissa b ≠ 0#_ ∧ (∃ hm,
        UnpackedFloat.unpack .binary64 b = .finite (.ofBitVec (unpackSign b))
          (unpackMantissa b).toNat ((unpackExponent b).toNat - 1075 + 1) hm) ∨
      unpackExponent b ≠ -1#_ ∧ unpackExponent b ≠ 0#_ ∧ ∃ hm,
        UnpackedFloat.unpack .binary64 b = .finite (.ofBitVec (unpackSign b))
          (1#1 ++ unpackMantissa b).toNat ((unpackExponent b).toNat - 1075) hm := by
  by_cases hinf : unpackExponent b = -1#_
  · by_cases hmant : unpackMantissa b = 0#_
    · exact .inr (.inl ⟨hinf, hmant, (if_pos hinf).trans (if_pos hmant)⟩)
    · exact .inl ⟨hinf, hmant, (if_pos hinf).trans (if_neg hmant)⟩
  by_cases hzero : unpackExponent b = 0#_
  · by_cases hmant : unpackMantissa b = 0#_
    · refine .inr (.inr (.inl ⟨hzero, hmant, ?_⟩))
      exact (if_neg hinf).trans ((if_pos hzero).trans (dif_pos hmant))
    · have hpos : (unpackMantissa b).toNat ≠ 0 := fun h => hmant (BitVec.eq_of_toNat_eq h)
      refine .inr (.inr (.inr (.inl ⟨hzero, hmant, Nat.pos_of_ne_zero hpos, ?_⟩)))
      exact (if_neg hinf).trans ((if_pos hzero).trans (dif_neg hmant))
  · have hpos : 0 < (1#1 ++ unpackMantissa b).toNat := by
      rw [toNat_append_unpackMantissa]
      omega
    refine .inr (.inr (.inr (.inr ⟨hinf, hzero, hpos, ?_⟩)))
    exact (if_neg hinf).trans (if_neg hzero)

theorem pack_finite (s : Sign) (m exponent : Nat) (hm : 0 < m) (he : exponent < 2047)
    (hlt : m < 2 ^ 53) (e : Int) (heq : e + 1075 = exponent) :
    UnpackedFloat.pack .binary64 (.finite s m e hm) =
      packComponents .binary64 s (if 2 ^ 52 ≤ m then BitVec.ofNat 11 exponent else 0#11)
        (BitVec.ofNat 52 m) := by
  have hbiased : (e + Format.binary64.exponentBias
      + Format.binary64.mantissaBitsWithoutImplicit).toNat = exponent := by
    have : (Format.binary64.exponentBias : Int) = 1023 := rfl
    have : (Format.binary64.mantissaBitsWithoutImplicit : Int) = 52 := rfl
    omega
  have hbits : m.log2 + 1 = Format.binary64.mantissaBits ↔ 2 ^ 52 ≤ m := by
    have : Format.binary64.mantissaBits = 53 := rfl
    rw [← Nat.le_log2 (Nat.ne_of_gt hm)]
    have := (Nat.log2_lt (Nat.ne_of_gt hm)).mpr hlt
    omega
  have hfits : ¬ 2 ^ Format.binary64.exponentBits ≤ exponent + 1 := by
    have : 2 ^ Format.binary64.exponentBits = 2048 := rfl
    omega
  unfold UnpackedFloat.pack
  simp only [hbiased, hbits]
  rw [if_neg hfits]
  split <;> rfl

/-- A word that is no NaN is packed as it was. -/
theorem pack_unpack (b : BitVec Format.binary64.numBits)
    (h : unpackExponent b = -1#_ → unpackMantissa b = 0#_) :
    UnpackedFloat.pack .binary64 (UnpackedFloat.unpack .binary64 b) = b := by
  have hwhole := packComponents_unpack b
  have hm : (unpackMantissa b).toNat < 2 ^ 52 := (unpackMantissa b).isLt
  have he : (unpackExponent b).toNat < 2 ^ 11 := (unpackExponent b).isLt
  rcases unpack_parts b with ⟨hexp, hmant, -⟩ | ⟨hexp, hmant, hb⟩ | ⟨hexp, hmant, hb⟩ |
    ⟨hexp, hmant, hpos, hb⟩ | ⟨hinf, hzero, hpos, hb⟩
  · exact absurd (h hexp) hmant
  · rw [hexp, hmant] at hwhole
    rw [hb]
    exact hwhole
  · rw [hexp, hmant] at hwhole
    rw [hb]
    exact hwhole
  · -- The smallest numbers have the exponent of one, but their mantissa does not reach it.
    have hexp' : (unpackExponent b).toNat = 0 := by rw [hexp]; rfl
    rw [hexp] at hwhole
    rw [hb, pack_finite _ _ 1 _ (by omega) (by omega) _ (by omega), if_neg (by omega),
      BitVec.ofNat_toNat, BitVec.setWidth_eq]
    exact hwhole
  · have hexp : (unpackExponent b).toNat ≠ 2047 := fun h => hinf (BitVec.eq_of_toNat_eq h)
    have hfull := toNat_append_unpackMantissa b
    have hmant : BitVec.ofNat 52 (2 ^ 52 + (unpackMantissa b).toNat) = unpackMantissa b := by
      apply BitVec.eq_of_toNat_eq
      rw [BitVec.toNat_ofNat]
      omega
    rw [hb, pack_finite _ _ (unpackExponent b).toNat _ (by omega) (by omega) _ (by omega),
      if_pos (by omega), hfull, hmant, BitVec.ofNat_toNat, BitVec.setWidth_eq]
    exact hwhole

/-- A word is taken apart by its low 63 bits. -/
theorem unpack_word_cases (b : BitVec Format.binary64.numBits) :
    infinityCode < b.toNat % 2 ^ 63 ∧ UnpackedFloat.unpack .binary64 b = .notANumber ∨
      b.toNat % 2 ^ 63 = infinityCode ∧
        UnpackedFloat.unpack .binary64 b = .infinity (.ofBitVec (unpackSign b)) ∨
      b.toNat % 2 ^ 63 = 0 ∧
        UnpackedFloat.unpack .binary64 b = .zero (.ofBitVec (unpackSign b)) ∨
      ∃ g m hm, b.toNat % 2 ^ 63 < infinityCode ∧ b.toNat % 2 ^ 63 = g * 2 ^ 52 + m ∧
        (g = 0 ∨ 2 ^ 52 ≤ m) ∧ m < 2 ^ 53 ∧
        UnpackedFloat.unpack .binary64 b =
          .finite (.ofBitVec (unpackSign b)) m ((g : Int) - 1074) hm := by
  have hbound : infinityCode = 2047 * 2 ^ 52 := rfl
  have hexp := toNat_unpackExponent b
  have hmant := toNat_unpackMantissa b
  have hfull := toNat_append_unpackMantissa b
  have htop := unpackExponent_eq_top_iff b
  have hbottom := unpackExponent_eq_zero_iff b
  have hlow := unpackMantissa_eq_zero_iff b
  rcases unpack_parts b with ⟨hinf, hzero, hb⟩ | ⟨hinf, hzero, hb⟩ | ⟨hsmall, hzero, hb⟩ |
    ⟨hsmall, hzero, hm, hb⟩ | ⟨hinf, hsmall, hm, hb⟩
  · rw [htop] at hinf
    rw [Ne, hlow] at hzero
    exact .inl ⟨by omega, hb⟩
  · rw [htop] at hinf
    rw [hlow] at hzero
    exact .inr (.inl ⟨by omega, hb⟩)
  · rw [hbottom] at hsmall
    rw [hlow] at hzero
    exact .inr (.inr (.inl ⟨by omega, hb⟩))
  · rw [hbottom] at hsmall
    refine .inr (.inr (.inr ⟨0, (unpackMantissa b).toNat, hm, by omega, by omega, .inl rfl,
      by omega, ?_⟩))
    rw [hb]
    congr 1
    omega
  · rw [Ne, htop] at hinf
    rw [Ne, hbottom] at hsmall
    refine .inr (.inr (.inr ⟨b.toNat / 2 ^ 52 % 2 ^ 11 - 1, (1#1 ++ unpackMantissa b).toNat, hm,
      by omega, by omega, .inr (by omega), by omega, ?_⟩))
    rw [hb]
    congr 1
    omega

/-! ## Codes -/

variable {c : Nat}

theorem toNat_ofNat (h : c ≤ infinityCode) : (UInt64.ofNat c).toBitVec.toNat = c := by
  have : infinityCode < 2 ^ 64 := by decide
  simp
  omega

/-- A word that is no NaN makes up a number. -/
theorem toBits_ofBits (w : UInt64) (h : w.toNat % 2 ^ 63 ≤ infinityCode) :
    (Float.ofBits w).toBits = w := by
  have hbound : infinityCode = 2047 * 2 ^ 52 := rfl
  have hw : w.toNat < 2 ^ 64 := w.toNat_lt
  change UInt64.ofBitVec (UnpackedFloat.pack Format.binary64 (UnpackedFloat.unpack _ _)) = _
  rw [pack_unpack]
  rw [unpackExponent_eq_top_iff, unpackMantissa_eq_zero_iff]
  change w.toNat / 2 ^ 52 % 2 ^ 11 = 2047 → w.toNat % 2 ^ 52 = 0
  omega

/-- The code is all there is to a number that is made from it. -/
theorem toBits_ofCode (h : c ≤ infinityCode) : (ofCode c).toBits = UInt64.ofNat c := by
  apply toBits_ofBits
  have hc : (UInt64.ofNat c).toNat = c := toNat_ofNat h
  rw [hc]
  exact (Nat.mod_le _ _).trans h

theorem zero_lt_unpack (b : BitVec Format.binary64.numBits) (hpos : 0 < b.toNat)
    (hle : b.toNat ≤ infinityCode) :
    (UnpackedFloat.zero .positive).lt (UnpackedFloat.unpack .binary64 b) = true := by
  have hbound : infinityCode = 2047 * 2 ^ 52 := rfl
  have hsign : unpackSign b = 0#1 := by
    apply BitVec.eq_of_toNat_eq
    rw [toNat_unpackSign]
    change b.toNat / 2 ^ 63 = 0
    omega
  rcases unpack_word_cases b with ⟨hc, -⟩ | ⟨-, hb⟩ | ⟨hc, -⟩ | ⟨g, m, hm, -, -, -, -, hb⟩
  · omega
  · rw [hb, hsign]
    rfl
  · omega
  · rw [hb, hsign]
    rfl

theorem ofCode_pos (h : c ≤ infinityCode) (hpos : 0 < c) : 0 < ofCode c := by
  have hzero : (0 : Float).toBits = 0 := by decide +kernel
  have hbits := congrArg UInt64.toBitVec (toBits_ofCode h)
  change Float.lt 0 (ofCode c) = true
  unfold Float.lt
  apply decide_eq_true
  change UnpackedFloat.lt (UnpackedFloat.unpack .binary64 (Float.toBits 0).toBitVec)
    (UnpackedFloat.unpack .binary64 (ofCode c).toBits.toBitVec) = true
  rw [hzero, hbits]
  exact zero_lt_unpack _ (by rw [toNat_ofNat h]; exact hpos) (by rw [toNat_ofNat h]; exact h)

/-! ## Numbers read from text -/

/-- A number without a sign is never below zero, and its zero has no sign either. -/
theorem leadingNumber_sign (cs : List Char) :
    (Reading.leadingNumber cs).isNaN = true ∨ (Reading.leadingNumber cs).toBits = 0 ∨
      0 < Reading.leadingNumber cs := by
  unfold Reading.leadingNumber
  split
  split
  · exact .inl (by decide +kernel)
  · right
    unfold ofRatio
    generalize hc : nearestCode _ _ = c
    have hle : c ≤ infinityCode := hc ▸ nearestCode_le _ _
    rcases Nat.eq_zero_or_pos c with rfl | hpos
    · exact .inl (toBits_ofCode hle)
    · exact .inr (ofCode_pos hle hpos)

end Abacus.Binary
