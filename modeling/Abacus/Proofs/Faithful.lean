import Abacus.Proofs.AnswerText
import Abacus.Proofs.DecimalText

/-!
# Answers that read back

The text of a finite number reads back as a number that is equal to it, so equal texts mean equal
numbers. A whole number is written in full, and any other in as few digits as read back.
-/

namespace Abacus.Binary

/-! ## Equal numbers -/

theorem isFinite_of_beq {x y : Float} (hx : x.isFinite = true) (h : (y == x) = true) :
    y.isFinite = true := by
  change (y.toModel.unpack.compare x.toModel.unpack == some .eq) = true at h
  have hpos : 0 < infinityCode := by decide
  rw [isFinite_iff] at hx ⊢
  rcases unpack_cases y with ⟨-, huy⟩ | ⟨-, huy⟩ | ⟨hc, -⟩ | ⟨-, -, -, hc, -⟩
  · rw [huy] at h
    exact absurd h Bool.false_ne_true
  · rw [huy] at h
    generalize sign y = s at h
    rcases unpack_cases x with ⟨hc, -⟩ | ⟨hc, -⟩ | ⟨-, hux⟩ | ⟨g, m, hm, -, -, -, -, hux⟩
    · omega
    · omega
    · rw [hux] at h
      cases s <;> exact absurd h Bool.false_ne_true
    · rw [hux] at h
      cases s <;> exact absurd h Bool.false_ne_true
  · rwa [hc]
  · exact hc

theorem nearest_value {x : Float} (hx : x.isFinite = true) : nearest (value x) = code x := by
  rw [← nearest_abs, abs_value hx, nearest_size ((isFinite_iff x).mp hx).le]

theorem signOf_value {x : Float} (hx : x.isFinite = true) : SignOf (value x) x := by
  rcases Nat.eq_zero_or_pos (code x) with hzero | hpos
  · exact .inl hzero
  · have hsize := size_pos hpos
    right
    rw [value_eq hx]
    cases isNegative x with
    | true => simpa using hsize
    | false => simpa using hsize.le

theorem sign_eq_of_value {x y : Float} (hx : x.isFinite = true) (hy : y.isFinite = true)
    (h : value x = value y) : code x = code y ∧ (code x = 0 ∨ isNegative x = isNegative y) := by
  have hsize := congrArg abs h
  rw [abs_value hx, abs_value hy] at hsize
  have hcode := size_strictMono.injective hsize
  refine ⟨hcode, ?_⟩
  have hsx := signOf_value hx
  have hsy := signOf_value hy
  rw [← h] at hsy
  rcases hsx with hzero | hsx
  · exact .inl hzero
  rcases hsy with hzero | hsy
  · exact .inl (hcode.trans hzero)
  · exact .inr (Bool.eq_iff_iff.mpr (hsx.trans hsy.symm))

/-- A rational with the code and the sign of a number is rounded to what equals the number. -/
theorem roundsTo_iff_beq {q : ℚ} {x : Float} (hx : x.isFinite = true) (hcode : nearest q = code x)
    (hs : SignOf q x) (y : Float) : RoundsTo q y ↔ (y == x) = true := by
  rw [roundsTo_iff, hcode]
  constructor
  · rintro ⟨hsame, hsy⟩
    have hy : y.isFinite = true := by rw [isFinite_iff, hsame]; exact (isFinite_iff x).mp hx
    rw [beq_iff hy hx]
    exact value_eq_of_sign hy hx hsame hsy hs
  · intro h
    have hy := isFinite_of_beq hx h
    rw [beq_iff hy hx] at h
    obtain ⟨hsame, hzero | hneg⟩ := sign_eq_of_value hy hx h
    · exact ⟨hsame, .inl hzero⟩
    · refine ⟨hsame, ?_⟩
      rcases hs with hzero | hs
      · exact .inl (hsame.trans hzero)
      · exact .inr (by rw [hneg, hs])

end Abacus.Binary

namespace Abacus.Notation

open Binary

/-! ## Signs and whole numbers -/

theorem unsignedValue?_minus (cs : List Char) : unsignedValue? ('-' :: cs) = none := by
  have hnone : ∀ more, digitsValue? ('-' :: more) = none := fun more => if_neg (by simp)
  have hmantissa : ∀ more, mantissaValue? ('-' :: more) = none := by
    intro more
    unfold mantissaValue?
    rw [List.dropWhile_cons_of_pos (by decide), List.takeWhile_cons_of_pos (by decide)]
    split
    · rw [hnone]
      rfl
    · rw [hnone]
      rfl
  unfold unsignedValue?
  rw [List.takeWhile_cons_of_pos (by decide), hmantissa]
  rfl

theorem decimalValue?_unsigned {text : String} {q : ℚ} (h : unsignedValue? text.toList = some q) :
    decimalValue? text = some q := by
  unfold decimalValue?
  split
  · rename_i cs hcs
    rw [hcs, unsignedValue?_minus] at h
    cases h
  · exact h

theorem decimalValue?_signed (x : Float) {text : String} {q : ℚ}
    (h : unsignedValue? text.toList = some q) :
    decimalValue? (signText x ++ text) = some (if isNegative x then -q else q) := by
  unfold signText
  cases isNegative x with
  | true =>
    unfold decimalValue?
    rw [String.toList_append]
    change (unsignedValue? text.toList).map (fun q => -q) = _
    rw [h]
    rfl
  | false =>
    rw [if_neg Bool.false_ne_true, if_neg Bool.false_ne_true, String.empty_append]
    exact decimalValue?_unsigned h

theorem unsignedValue?_toString (n : Nat) : unsignedValue? (toString n).toList = some (n : ℚ) := by
  have hdigits := isDigits_toDigits n
  have hvalue : Nat.ofDigitChars 10 (Nat.toDigits 10 n) 0 = n := Nat.ofDigitChars_ten_toDigits
  have hwhole := unsignedValue?_eq (hdigits.not_mem (by decide))
    (mantissaValue?_whole hdigits) (rfl : exponentValue? [] = some 0)
  rw [List.append_nil, hvalue, zpow_zero, mul_one] at hwhole
  rw [Nat.toString_eq_ofList_toDigits, String.toList_ofList, hwhole]

theorem isWhole_iff (x : Float) : isWhole x = true ↔ ∃ n : Nat, size (code x) = n := by
  have hunit := cast_unit_pos.ne'
  rw [isWhole, magnitude, pow_eq_unit, beq_iff_eq]
  constructor
  · intro h
    obtain ⟨n, hn⟩ := Nat.dvd_of_mod_eq_zero h
    refine ⟨n, ?_⟩
    rw [size, hn, Nat.cast_mul, mul_div_cancel_left₀ _ hunit]
  · rintro ⟨n, hn⟩
    rw [size, div_eq_iff hunit] at hn
    have hsteps : steps (code x) = n * unit := by exact_mod_cast hn
    rw [hsteps, Nat.mul_mod_left]

theorem wholeText_eq {x : Float} {n : Nat} (h : size (code x) = n) :
    wholeText x = if n = 0 then "0" else signText x ++ toString n := by
  have hunit := cast_unit_pos.ne'
  rw [size, div_eq_iff hunit] at h
  have hsteps : steps (code x) = n * unit := by exact_mod_cast h
  have hcount : magnitude x / Nat.pow 2 1074 = n := by
    rw [magnitude, pow_eq_unit, hsteps, Nat.mul_div_cancel _ unit_pos]
  unfold wholeText
  simp only [hcount, beq_iff_eq]

/-! ## The text of a finite number -/

variable {x : Float}

theorem answerText_finite (hx : x.isFinite = true) :
    answerText x = if isWhole x then wholeText x
      else signText x ++ decimalText (Decimal.shortest (code x)) := by
  obtain ⟨hnan, hinf⟩ : x.isNaN = false ∧ x.isInf = false := by
    rcases float_cases x with ⟨-, -, hfin⟩ | ⟨-, -, hfin⟩ | ⟨hnan, hinf, -⟩
    · simp [hx] at hfin
    · simp [hx] at hfin
    · exact ⟨hnan, hinf⟩
  unfold answerText
  rw [if_neg (Bool.eq_false_iff.mp hnan), if_neg (Bool.eq_false_iff.mp hinf)]

theorem answerText_whole (hx : x.isFinite = true) {n : Nat} (h : size (code x) = n) :
    answerText x = if n = 0 then "0" else signText x ++ toString n := by
  rw [answerText_finite hx, if_pos ((isWhole_iff x).mpr ⟨n, h⟩), wholeText_eq h]

theorem answerText_fraction (hx : x.isFinite = true) (h : ∀ n : Nat, size (code x) ≠ n) :
    answerText x = signText x ++ decimalText (Decimal.shortest (code x)) := by
  have hwhole : ¬ isWhole x = true := by
    rw [isWhole_iff]
    rintro ⟨n, hn⟩
    exact h n hn
  rw [answerText_finite hx, if_neg hwhole]

theorem code_pos_of_fraction (h : ∀ n : Nat, size (code x) ≠ n) : 0 < code x := by
  apply Nat.pos_of_ne_zero
  intro hzero
  exact h 0 (by rw [hzero, size_zero, Nat.cast_zero])

theorem isShortest_of_fraction (hx : x.isFinite = true) (h : ∀ n : Nat, size (code x) ≠ n) :
    (Decimal.shortest (code x)).IsShortest (code x) :=
  Decimal.isShortest (code_pos_of_fraction h) ((isFinite_iff x).mp hx)

/-- Mantissa and exponent of the text of a fraction. -/
theorem exists_writes (hx : x.isFinite = true) (h : ∀ n : Nat, size (code x) ≠ n) :
    ∃ mantissa exponent, Writes (Decimal.shortest (code x)) mantissa exponent ∧
      (decimalText (Decimal.shortest (code x))).toList = mantissa ++ exponent ∧
      ('.' ∈ mantissa ∧ exponent = [] ∧ (10 : ℚ) ^ (-4 : ℤ) ≤ size (code x) ∨
        (∃ more, exponent = 'e' :: '-' :: more) ∧ size (code x) < 10 ^ (-4 : ℤ)) := by
  have hshortest := isShortest_of_fraction hx h
  have hplace := hshortest.place_lt_of_fraction h
  have hlarge := hshortest.leadingExponent_lt_of_fraction h
  have hsmall := hshortest.leadingExponent_ge_iff ((isFinite_iff x).mp hx).le
  generalize Decimal.shortest (code x) = d at *
  unfold decimalText
  simp only
  by_cases hpositional : isPositional d.leadingExponent = true
  · have hge : -4 ≤ d.leadingExponent := by
      simp only [isPositional, Bool.and_eq_true, decide_eq_true_eq] at hpositional
      exact hpositional.1
    obtain ⟨before, behind, -, -, htext, hwrites⟩ := writes_positional hplace
    rw [if_pos hpositional]
    exact ⟨_, [], hwrites, by rw [htext, List.append_nil], .inl ⟨by simp, rfl, hsmall.mp hge⟩⟩
  · have hlt : ¬ -4 ≤ d.leadingExponent := by
      intro hge
      simp [isPositional, hge, hlarge] at hpositional
    obtain ⟨mantissa, htext, hwrites⟩ := writes_scientific d
    obtain ⟨more, hmore⟩ := exponentText_minus (by omega : d.leadingExponent < 0)
    rw [hmore] at htext hwrites
    rw [if_neg hpositional]
    exact ⟨mantissa, _, hwrites, htext,
      .inr ⟨⟨more, rfl⟩, not_le.mp fun hge => hlt (hsmall.mpr hge)⟩⟩

theorem unsignedValue?_writes {d : Decimal} {mantissa exponent : List Char}
    (h : Writes d mantissa exponent) : unsignedValue? (mantissa ++ exponent) = some d.value := by
  obtain ⟨m, e, hm, he, hvalue⟩ := h.value
  rw [unsignedValue?_eq h.unmarked hm he, hvalue]

/-- The text stands for a rational that is rounded to the number. -/
theorem exists_decimalValue? (hx : x.isFinite = true) :
    ∃ q, decimalValue? (answerText x) = some q ∧ nearest q = code x ∧ SignOf q x := by
  by_cases hwhole : ∃ n : Nat, size (code x) = n
  · obtain ⟨n, hn⟩ := hwhole
    refine ⟨value x, ?_, nearest_value hx, signOf_value hx⟩
    rw [answerText_whole hx hn, value_eq hx, hn]
    split
    · rename_i hzero
      rw [hzero, Nat.cast_zero, neg_zero, ite_self]
      exact unsignedValue?_toString 0
    · exact decimalValue?_signed x (unsignedValue?_toString n)
  · rw [not_exists] at hwhole
    obtain ⟨mantissa, exponent, hwrites, htext, -⟩ := exists_writes hx hwhole
    have hvalue : unsignedValue? (decimalText (Decimal.shortest (code x))).toList =
        some (Decimal.shortest (code x)).value := by rw [htext, unsignedValue?_writes hwrites]
    have hshortest := isShortest_of_fraction hx hwhole
    refine ⟨_, (congrArg decimalValue? (answerText_fraction hx hwhole)).trans
      (decimalValue?_signed x hvalue), ?_, .inr ?_⟩
    · split
      · rw [nearest_neg, hshortest.nearest_eq]
      · exact hshortest.nearest_eq
    · have hdigits := hshortest.digits_pos
      generalize Decimal.shortest (code x) = d at *
      have hmagnitude : 0 < d.value := by
        unfold Decimal.value
        positivity
      cases isNegative x with
      | true => simpa using hmagnitude
      | false => simpa using hmagnitude.le

/-! ## Whole numbers -/

theorem head?_toDigits {n : Nat} (h : 0 < n) : (Nat.toDigits 10 n).head? ≠ some '0' := by
  induction n using Nat.strong_induction_on with
  | _ n ih =>
    rcases Nat.lt_or_ge n 10 with hlt | hge
    · rw [Nat.toDigits_of_lt_base hlt]
      simpa using h.ne'
    · rw [Nat.toDigits_of_base_le (by decide) hge,
        List.head?_append_of_ne_nil _ (isDigits_toDigits _).1]
      exact ih (n / 10) (by omega) (by omega)

theorem toString_int (z : ℤ) :
    toString z = (if z < 0 then "-" else "") ++ toString z.natAbs := by
  cases z with
  | ofNat n =>
    rw [if_neg (by simp)]
    exact (String.empty_append).symm
  | negSucc n =>
    rw [if_pos (Int.negSucc_lt_zero n)]
    rfl

/-- A whole number in full: no point, no exponent and no zero too many in front. -/
theorem toList_toString_int (z : ℤ) :
    ∃ digits, IsDigits digits ∧ (digits.head? = some '0' → digits = ['0']) ∧
      (toString z).toList = (if z < 0 then ['-'] else []) ++ digits := by
  refine ⟨Nat.toDigits 10 z.natAbs, isDigits_toDigits _, ?_, ?_⟩
  · intro hhead
    rcases Nat.eq_zero_or_pos z.natAbs with hzero | hpos
    · rw [hzero]
      rfl
    · exact absurd hhead (head?_toDigits hpos)
  · rw [toString_int, String.toList_append, Nat.toString_eq_ofList_toDigits, String.toList_ofList]
    split <;> rfl

theorem answerText_int (hx : x.isFinite = true) {z : ℤ} (h : value x = z) :
    answerText x = toString z := by
  have hsize : size (code x) = z.natAbs := by
    rw [← abs_value hx, h, Nat.cast_natAbs, Int.cast_abs]
  rw [answerText_whole hx hsize]
  split
  · rename_i hzero
    rw [Int.natAbs_eq_zero.mp hzero]
    rfl
  · rename_i hne
    have hsign := (signOf_value hx).resolve_left fun hzero => hne (by
      rw [hzero, size_zero] at hsize
      exact_mod_cast hsize.symm)
    rw [h, Int.cast_lt_zero] at hsign
    rw [toString_int, signText]
    simp only [hsign]

/-! ## Fractions -/

theorem toList_signText (x : Float) :
    'e' ∉ (signText x).toList ∧ (signText x).toList.filter Char.isDigit = [] := by
  unfold signText
  split <;> decide

theorem significantDigits_writes {text : String} {d : Decimal} {mantissa exponent : List Char}
    (h : Writes d mantissa exponent) (hpos : 0 < d.digits)
    (htext : text.toList = mantissa ++ exponent)
    (hexponent : exponent = [] ∨ ∃ more, exponent = 'e' :: more) :
    significantDigits (signText x ++ text) = (toString d.digits).length := by
  obtain ⟨hmark, hsign⟩ := toList_signText x
  have hunmarked : 'e' ∉ (signText x).toList ++ mantissa := by
    simp [hmark, h.unmarked]
  obtain ⟨k, hdigits⟩ := h.digits
  have hzeros : ∀ c ∈ List.replicate k '0', decide (c = '0') = true := by
    intro c hc
    rw [List.eq_of_mem_replicate hc]
    rfl
  unfold significantDigits
  rw [String.toList_append, htext, ← List.append_assoc, (takeWhile_eq hunmarked hexponent).1,
    List.filter_append, hsign, List.nil_append, hdigits, List.dropWhile_append_of_pos hzeros,
    Decimal.length_toString]
  obtain ⟨first, rest, hfirst⟩ := List.exists_cons_of_ne_nil (isDigits_toDigits d.digits).1
  have hhead := head?_toDigits hpos
  rw [hfirst] at hhead ⊢
  rw [List.dropWhile_cons_of_neg (by simpa using hhead)]

theorem size_ne_of_fraction (hx : x.isFinite = true) (h : ¬ ∃ z : ℤ, value x = z) (n : Nat) :
    size (code x) ≠ n := by
  intro hn
  apply h
  rw [value_eq hx, hn]
  split
  · exact ⟨-n, by simp⟩
  · exact ⟨n, by simp⟩

theorem not_beq_of_short (hx : x.isFinite = true) (h : ∀ n : Nat, size (code x) ≠ n) {n e : ℤ}
    {k : Nat} (hn : n.natAbs < 10 ^ k)
    (hk : k < (toString (Decimal.shortest (code x)).digits).length) {y : Float}
    (hy : RoundsTo (n * 10 ^ e) y) : ¬ (y == x) = true := by
  intro hbeq
  have hfinite := isFinite_of_beq hx hbeq
  rw [beq_iff hfinite hx] at hbeq
  have hcode := ((roundsTo_iff _ y).mp hy).1
  rw [(sign_eq_of_value hfinite hx hbeq).1, ← nearest_abs, abs_mul, ← Int.cast_abs,
    ← Nat.cast_natAbs, abs_of_pos (by positivity : (0 : ℚ) < 10 ^ e)] at hcode
  exact (isShortest_of_fraction hx h).nearest_ne_of_short (code_pos_of_fraction h) e hn hk
    hcode.symm

/-- A fraction has a point or an exponent, the latter below 0.0001, and no digit too many. -/
theorem answerText_fraction_shape (hx : x.isFinite = true) (h : ¬ ∃ z : ℤ, value x = z) :
    ('.' ∈ (answerText x).toList ∨ 'e' ∈ (answerText x).toList) ∧
      ('e' ∈ (answerText x).toList ↔ 0 < |value x| ∧ |value x| < 1 / 10000) ∧
      significantDigits (answerText x) =
        (toString (Decimal.shortest (code x)).digits).length := by
  have hsize := size_ne_of_fraction hx h
  have hpos := code_pos_of_fraction hsize
  have hdigits := (isShortest_of_fraction hx hsize).digits_pos
  obtain ⟨mantissa, exponent, hwrites, htext, hkind⟩ := exists_writes hx hsize
  have hten : (10 : ℚ) ^ (-4 : ℤ) = 1 / 10000 := by norm_num
  rw [answerText_fraction hx hsize, abs_value hx, ← hten]
  obtain ⟨hmark, -⟩ := toList_signText x
  rcases hkind with ⟨hpoint, rfl, hlarge⟩ | ⟨⟨more, rfl⟩, hsmall⟩
  · rw [significantDigits_writes hwrites hdigits htext (.inl rfl), String.toList_append, htext,
      List.append_nil]
    refine ⟨.inl (List.mem_append_right _ hpoint), ⟨fun hmem => ?_, fun hlt => ?_⟩, rfl⟩
    · rw [List.mem_append] at hmem
      exact absurd hmem (not_or.mpr ⟨hmark, hwrites.unmarked⟩)
    · exact absurd hlt.2 (not_lt.mpr hlarge)
  · rw [significantDigits_writes hwrites hdigits htext (.inr ⟨_, rfl⟩), String.toList_append,
      htext]
    refine ⟨.inr (by simp), ⟨fun _ => ⟨size_pos hpos, hsmall⟩, fun _ => by simp⟩, rfl⟩

theorem answerText_eq_iff (hx : x.isFinite = true) {y : Float} (hy : y.isFinite = true) :
    answerText x = answerText y ↔ (x == y) = true := by
  constructor
  · intro h
    obtain ⟨q, htext, hcode, hs⟩ := exists_decimalValue? hx
    obtain ⟨q', htext', hcode', hs'⟩ := exists_decimalValue? hy
    rw [h, htext'] at htext
    obtain rfl := Option.some.inj htext
    rw [← roundsTo_iff_beq hy hcode' hs', roundsTo_iff_beq hx hcode hs, beq_iff hx hx]
  · intro h
    rw [beq_iff hx hy] at h
    obtain ⟨hcode, hzero | hneg⟩ := sign_eq_of_value hx hy h
    · have hsize : size (code x) = (0 : Nat) := by rw [hzero, size_zero, Nat.cast_zero]
      rw [answerText_whole hx hsize, answerText_whole hy (hcode ▸ hsize), if_pos rfl, if_pos rfl]
    · rw [eq_of_code hcode hneg]

/-- The text of a finite number stands for a rational that is rounded to the number. It is the whole
number itself, or a fraction in the fewest digits that are rounded to it. -/
theorem answerText_faithful (x : Float) (hx : x.isFinite = true) :
    (∃ q, decimalValue? (answerText x) = some q ∧
      ∀ y : Float, RoundsTo q y ↔ (y == x) = true) ∧
    (∀ y : Float, y.isFinite = true → (answerText x = answerText y ↔ (x == y) = true)) ∧
    answerText x ∉ ["NaN", "Infinity", "-Infinity"] ∧
    (∀ z : ℤ, value x = z → answerText x = toString z ∧
      ∃ digits, IsDigits digits ∧ (digits.head? = some '0' → digits = ['0']) ∧
        (answerText x).toList = (if z < 0 then ['-'] else []) ++ digits) ∧
    ((¬ ∃ z : ℤ, value x = z) →
      ('.' ∈ (answerText x).toList ∨ 'e' ∈ (answerText x).toList) ∧
      ('e' ∈ (answerText x).toList ↔ 0 < |value x| ∧ |value x| < 1 / 10000) ∧
      ∀ k < significantDigits (answerText x), ∀ n e : ℤ, n.natAbs < 10 ^ k →
        ∀ y : Float, RoundsTo (n * 10 ^ e) y → ¬ (y == x) = true) := by
  refine ⟨?_, fun y hy => answerText_eq_iff hx hy, ?_, ?_, ?_⟩
  · obtain ⟨q, htext, hcode, hs⟩ := exists_decimalValue? hx
    exact ⟨q, htext, roundsTo_iff_beq hx hcode hs⟩
  · intro hmem
    have hchars := decimalChars_answerText hx
    simp only [List.mem_cons, List.not_mem_nil, or_false] at hmem
    rcases hmem with h | h | h <;> rw [h] at hchars <;> exact absurd hchars (by decide)
  · intro z hz
    rw [answerText_int hx hz]
    exact ⟨rfl, toList_toString_int z⟩
  · intro hfraction
    obtain ⟨hmark, hexponent, hcount⟩ := answerText_fraction_shape hx hfraction
    refine ⟨hmark, hexponent, fun k hk n e hn y hy => ?_⟩
    rw [hcount] at hk
    exact not_beq_of_short hx (size_ne_of_fraction hx hfraction) hn hk hy

/-- The sum of 0.1 and 0.2 is not 0.3, and no sixteen digits tell it from its neighbours. -/
theorem answerText_faithful_sum :
    ((0.1 : Float) + 0.2).isFinite = true ∧ answerText (0.1 + 0.2) = "0.30000000000000004" ∧
      ∀ n e : ℤ, n.natAbs < 10 ^ 16 → ∀ y : Float, RoundsTo (n * 10 ^ e) y →
        ¬ (y == 0.1 + 0.2) = true := by
  have hfinite : ((0.1 : Float) + 0.2).isFinite = true := by decide +kernel
  have htext : answerText (0.1 + 0.2) = "0.30000000000000004" := by decide +kernel
  obtain ⟨-, -, -, hwhole, hfraction⟩ := answerText_faithful (0.1 + 0.2) hfinite
  have hpoint : ¬ ∃ z : ℤ, value (0.1 + 0.2) = z := by
    rintro ⟨z, hz⟩
    obtain ⟨-, digits, hdigits, -, hlist⟩ := hwhole z hz
    have hmem : '.' ∈ (answerText (0.1 + 0.2)).toList := by
      rw [htext]
      decide
    rw [hlist, List.mem_append] at hmem
    rcases hmem with hmem | hmem
    · split at hmem <;> simp at hmem
    · exact hdigits.not_mem (by decide) hmem
  refine ⟨hfinite, htext, (hfraction hpoint).2.2 16 ?_⟩
  rw [htext]
  decide

end Abacus.Notation
