import Abacus.Number.Notation
import Abacus.Proofs.Shortest

/-!
# What a decimal text stands for

A decimal is a sign, digits with at most one point between them, and an exponent of ten. The two
notations of a shortest decimal stand for its magnitude and write its digits and no others, besides
zeros in front.
-/

namespace Abacus.Notation

open Binary

/-! ## Decimals as rationals -/

def digitsValue? (cs : List Char) : Option Nat :=
  if cs ≠ [] ∧ cs.all Char.isDigit then some (Nat.ofDigitChars 10 cs 0) else none

def mantissaValue? (cs : List Char) : Option ℚ :=
  match cs.dropWhile (· ≠ '.') with
  | [] => (digitsValue? cs).map fun n : Nat => (n : ℚ)
  | _ :: fraction => do
    let whole ← digitsValue? (cs.takeWhile (· ≠ '.'))
    let digits ← digitsValue? fraction
    return whole + digits / 10 ^ fraction.length

def exponentValue? : List Char → Option ℤ
  | [] => some 0
  | 'e' :: '-' :: digits => (digitsValue? digits).map fun n : Nat => -(n : ℤ)
  | 'e' :: '+' :: digits => (digitsValue? digits).map fun n : Nat => (n : ℤ)
  | _ => none

def unsignedValue? (cs : List Char) : Option ℚ := do
  let mantissa ← mantissaValue? (cs.takeWhile (· ≠ 'e'))
  let exponent ← exponentValue? (cs.dropWhile (· ≠ 'e'))
  return mantissa * 10 ^ exponent

/-- The rational that a decimal text stands for. -/
def decimalValue? (text : String) : Option ℚ :=
  match text.toList with
  | '-' :: cs => (unsignedValue? cs).map fun q => -q
  | cs => unsignedValue? cs

/-- The digits before the exponent, from the first one that is not zero. -/
def significantDigits (text : String) : Nat :=
  (((text.toList.takeWhile (· ≠ 'e')).filter Char.isDigit).dropWhile (· = '0')).length

example : significantDigits "-0.0120e+07" = 3 := by decide

/-! ## Runs of digits -/

/-- One digit or more, and nothing else. -/
def IsDigits (cs : List Char) : Prop := cs ≠ [] ∧ ∀ c ∈ cs, c.isDigit

theorem digitsValue?_eq {cs : List Char} (h : IsDigits cs) :
    digitsValue? cs = some (Nat.ofDigitChars 10 cs 0) :=
  if_pos (h.imp_right List.all_eq_true.mpr)

theorem isDigits_of_digitsValue? {cs : List Char} {n : Nat} (h : digitsValue? cs = some n) :
    IsDigits cs :=
  (Option.ite_none_right_eq_some.mp h).1.imp_right List.all_eq_true.mp

theorem IsDigits.not_mem {cs : List Char} (h : IsDigits cs) {c : Char} (hc : c.isDigit = false) :
    c ∉ cs := by
  intro hmem
  simp [h.2 c hmem] at hc

theorem isDigits_toDigits (n : Nat) : IsDigits (Nat.toDigits 10 n) :=
  ⟨List.ne_nil_of_length_pos Nat.length_toDigits_pos,
    fun _ hc => Nat.isDigit_of_mem_toDigits (by decide) (by decide) hc⟩

theorem IsDigits.append {xs ys : List Char} (hx : ∀ c ∈ xs, c.isDigit) (hy : IsDigits ys) :
    IsDigits (xs ++ ys) :=
  ⟨List.append_ne_nil_of_right_ne_nil xs hy.1, List.forall_mem_append.mpr ⟨hx, hy.2⟩⟩

theorem ofDigitChars_append_eq (xs ys : List Char) :
    Nat.ofDigitChars 10 (xs ++ ys) 0 =
      Nat.ofDigitChars 10 xs 0 * 10 ^ ys.length + Nat.ofDigitChars 10 ys 0 := by
  rw [Nat.ofDigitChars_append, Nat.ofDigitChars_eq_ofDigitChars_zero, Nat.mul_comm]

/-! ## Mantissas and exponents -/

theorem takeWhile_eq {c : Char} {xs rest : List Char} (h : c ∉ xs)
    (hrest : rest = [] ∨ ∃ more, rest = c :: more) :
    (xs ++ rest).takeWhile (· ≠ c) = xs ∧ (xs ++ rest).dropWhile (· ≠ c) = rest := by
  have hall : ∀ x ∈ xs, decide (x ≠ c) = true := by
    intro x hx
    simp only [decide_eq_true_eq]
    rintro rfl
    exact h hx
  rw [List.takeWhile_append_of_pos hall, List.dropWhile_append_of_pos hall]
  rcases hrest with rfl | ⟨more, rfl⟩ <;> simp

theorem mantissaValue?_whole {cs : List Char} (h : IsDigits cs) :
    mantissaValue? cs = some (Nat.ofDigitChars 10 cs 0 : ℚ) := by
  have hdrop := (takeWhile_eq (h.not_mem (by decide : '.'.isDigit = false)) (.inl rfl)).2
  rw [List.append_nil] at hdrop
  unfold mantissaValue?
  rw [hdrop, digitsValue?_eq h]
  rfl

theorem mantissaValue?_point {whole fraction : List Char} (hw : IsDigits whole)
    (hf : IsDigits fraction) :
    mantissaValue? (whole ++ '.' :: fraction) =
      some ((Nat.ofDigitChars 10 (whole ++ fraction) 0 : ℚ) / 10 ^ fraction.length) := by
  obtain ⟨htake, hdrop⟩ := takeWhile_eq (hw.not_mem (by decide : '.'.isDigit = false))
    (.inr ⟨fraction, rfl⟩)
  have hpow : (10 : ℚ) ^ fraction.length ≠ 0 := by positivity
  unfold mantissaValue?
  rw [hdrop, htake]
  simp only [digitsValue?_eq hw, digitsValue?_eq hf, ofDigitChars_append_eq, Nat.cast_add,
    Nat.cast_mul, Nat.cast_pow, Nat.cast_ofNat, add_div, mul_div_cancel_right₀ _ hpow]
  rfl

theorem mantissaValue?_cases {cs : List Char} {q : ℚ} (h : mantissaValue? cs = some q) :
    IsDigits cs ∧ q = (Nat.ofDigitChars 10 cs 0 : ℚ) ∨
      ∃ whole fraction, IsDigits whole ∧ IsDigits fraction ∧ cs = whole ++ '.' :: fraction ∧
        q = (Nat.ofDigitChars 10 (whole ++ fraction) 0 : ℚ) / 10 ^ fraction.length := by
  cases hdrop : cs.dropWhile (· ≠ '.') with
  | nil =>
    have hwhole := h
    rw [mantissaValue?, hdrop] at hwhole
    obtain ⟨n, hn, -⟩ := Option.map_eq_some_iff.mp hwhole
    have hcs := isDigits_of_digitsValue? hn
    rw [mantissaValue?_whole hcs] at h
    exact .inl ⟨hcs, (Option.some.inj h).symm⟩
  | cons c fraction =>
    have hparts := h
    rw [mantissaValue?, hdrop] at hparts
    obtain ⟨m, hm, hparts⟩ := Option.bind_eq_some_iff.mp hparts
    obtain ⟨n, hn, -⟩ := Option.bind_eq_some_iff.mp hparts
    have hw := isDigits_of_digitsValue? hm
    have hf := isDigits_of_digitsValue? hn
    obtain rfl : c = '.' := by
      have hhead := List.head?_dropWhile_not (· ≠ '.') cs
      rw [hdrop] at hhead
      simpa using hhead
    have hcs : cs = cs.takeWhile (· ≠ '.') ++ '.' :: fraction := by
      rw [← hdrop, List.takeWhile_append_dropWhile]
    rw [hcs, mantissaValue?_point hw hf] at h
    exact .inr ⟨_, fraction, hw, hf, hcs, (Option.some.inj h).symm⟩

theorem unsignedValue?_eq {mantissa exponent : List Char} {m : ℚ} {e : ℤ} (hnot : 'e' ∉ mantissa)
    (hm : mantissaValue? mantissa = some m) (he : exponentValue? exponent = some e) :
    unsignedValue? (mantissa ++ exponent) = some (m * 10 ^ e) := by
  have hexponent : exponent = [] ∨ ∃ more, exponent = 'e' :: more := by
    unfold exponentValue? at he
    split at he
    · exact .inl rfl
    · exact .inr ⟨_, rfl⟩
    · exact .inr ⟨_, rfl⟩
    · cases he
  obtain ⟨htake, hdrop⟩ := takeWhile_eq hnot hexponent
  unfold unsignedValue?
  rw [htake, hdrop, hm, he]
  rfl

/-! ## The two notations -/

theorem isDigits_zeros (n : Nat) : ∀ c ∈ List.replicate n '0', c.isDigit := by
  intro c hc
  rw [List.eq_of_mem_replicate hc]
  rfl

/-- Digits around a point: none is lost, and zeros come only in front. -/
theorem toList_positional {ds : List Char} (hds : IsDigits ds) {whole : ℤ}
    (h : whole < ds.length) :
    ∃ before behind k, (positional (String.ofList ds) whole).toList = before ++ '.' :: behind ∧
      IsDigits before ∧ IsDigits behind ∧ before ++ behind = List.replicate k '0' ++ ds ∧
      (behind.length : ℤ) = ds.length - whole := by
  unfold positional
  split
  · refine ⟨['0'], List.replicate (-whole).toNat '0' ++ ds, (-whole).toNat + 1, ?_,
      ⟨by simp, by simp⟩, .append (isDigits_zeros _) hds, ?_, ?_⟩
    · simp [zeros]
    · simp [List.replicate_succ]
    · simp
      omega
  · rw [String.length_ofList, if_pos h]
    have hsplit := List.take_append_drop whole.toNat ds
    have hlength := congrArg List.length hsplit
    rw [List.length_append, List.length_take] at hlength
    have hbehind : 0 < (ds.drop whole.toNat).length := by
      rw [List.length_drop]
      omega
    have hbefore : 0 < (ds.take whole.toNat).length := by
      rw [List.length_take]
      omega
    refine ⟨ds.take whole.toNat, ds.drop whole.toNat, 0, ?_,
      ⟨List.ne_nil_of_length_pos hbefore, fun c hc => hds.2 c (List.mem_of_mem_take hc)⟩,
      ⟨List.ne_nil_of_length_pos hbehind, fun c hc => hds.2 c (List.mem_of_mem_drop hc)⟩, ?_, ?_⟩
    · simp [List.splitAt_eq]
    · rw [List.replicate_zero, List.nil_append, hsplit]
    · rw [List.length_drop]
      omega

theorem exists_digits_padded (n : Nat) :
    ∃ digits, (if (toString n).length < 2 then "0" ++ toString n else toString n).toList = digits ∧
      IsDigits digits ∧ Nat.ofDigitChars 10 digits 0 = n := by
  have hdigits := isDigits_toDigits n
  have hvalue : Nat.ofDigitChars 10 (Nat.toDigits 10 n) 0 = n := Nat.ofDigitChars_ten_toDigits
  rw [Nat.toString_eq_ofList_toDigits]
  split
  · have hzero : ∀ c ∈ ['0'], c.isDigit := by simp
    refine ⟨'0' :: Nat.toDigits 10 n, by simp, .append hzero hdigits, ?_⟩
    rw [Nat.ofDigitChars_cons]
    exact hvalue
  · exact ⟨_, String.toList_ofList, hdigits, hvalue⟩

theorem exponentValue?_exponentText (e : ℤ) :
    exponentValue? ('e' :: (exponentText e).toList) = some e := by
  obtain ⟨digits, htext, hdigits, hvalue⟩ := exists_digits_padded e.natAbs
  unfold exponentText
  simp only [String.toList_append, htext]
  split
  · change (digitsValue? digits).map (fun n : Nat => -(n : ℤ)) = some e
    rw [digitsValue?_eq hdigits, hvalue, Option.map_some, Option.some.injEq]
    omega
  · change (digitsValue? digits).map (fun n : Nat => (n : ℤ)) = some e
    rw [digitsValue?_eq hdigits, hvalue, Option.map_some, Option.some.injEq]
    omega

theorem exponentText_minus {e : ℤ} (h : e < 0) :
    ∃ more, (exponentText e).toList = '-' :: more := by
  unfold exponentText
  rw [if_pos h, String.toList_append]
  exact ⟨_, List.singleton_append⟩

/-- Mantissa and exponent of a text that writes the decimal. -/
structure Writes (d : Decimal) (mantissa exponent : List Char) : Prop where
  unmarked : 'e' ∉ mantissa
  value : ∃ m e, mantissaValue? mantissa = some m ∧ exponentValue? exponent = some e ∧
    m * 10 ^ e = d.value
  digits : ∃ k, mantissa.filter Char.isDigit = List.replicate k '0' ++ Nat.toDigits 10 d.digits

theorem filter_isDigit {cs : List Char} (h : ∀ c ∈ cs, c.isDigit) : cs.filter Char.isDigit = cs :=
  List.filter_eq_self.mpr h

theorem writes_positional {d : Decimal} (hplace : d.place < 1074) :
    ∃ before behind, IsDigits before ∧ IsDigits behind ∧
      (positional (toString d.digits) (d.leadingExponent + 1)).toList =
        before ++ '.' :: behind ∧ Writes d (before ++ '.' :: behind) [] := by
  have hds := isDigits_toDigits d.digits
  have hlength := Decimal.length_toString d.digits
  have hpoint : d.leadingExponent + 1 < (Nat.toDigits 10 d.digits).length := by
    rw [Decimal.leadingExponent]
    omega
  obtain ⟨before, behind, k, htext, hbefore, hbehind, hall, hbehind'⟩ :=
    toList_positional hds hpoint
  rw [← Nat.toString_eq_ofList_toDigits] at htext
  refine ⟨before, behind, hbefore, hbehind, htext, ?_, ?_, k, ?_⟩
  · simp [hbefore.not_mem (by decide : 'e'.isDigit = false),
      hbehind.not_mem (by decide : 'e'.isDigit = false)]
  · refine ⟨_, 0, mantissaValue?_point hbefore hbehind, rfl, ?_⟩
    have hplaces : ((d.place : ℤ) - 1074) = -(behind.length : ℤ) := by
      rw [hbehind', Decimal.leadingExponent]
      omega
    rw [hall, Nat.ofDigitChars_append, Nat.ofDigitChars_replicate_zero, Nat.mul_zero,
      Nat.ofDigitChars_ten_toDigits, Decimal.value, hplaces, zpow_neg, zpow_natCast, zpow_zero,
      mul_one, div_eq_mul_inv]
  · rw [List.filter_append, List.filter_cons_of_neg (by decide), filter_isDigit hbefore.2,
      filter_isDigit hbehind.2, hall]

theorem writes_scientific (d : Decimal) :
    ∃ mantissa, (scientific (toString d.digits) d.leadingExponent).toList =
        mantissa ++ 'e' :: (exponentText d.leadingExponent).toList ∧
      Writes d mantissa ('e' :: (exponentText d.leadingExponent).toList) := by
  have hds := isDigits_toDigits d.digits
  have hvalue : Nat.ofDigitChars 10 (Nat.toDigits 10 d.digits) 0 = d.digits :=
    Nat.ofDigitChars_ten_toDigits
  have hlength := Decimal.length_toString d.digits
  have hten : (10 : ℚ) ≠ 0 := by norm_num
  unfold scientific
  rw [Nat.toString_eq_ofList_toDigits]
  generalize hchars : Nat.toDigits 10 d.digits = ds at *
  obtain ⟨hne, hall⟩ := hds
  obtain ⟨first, rest, rfl⟩ := List.exists_cons_of_ne_nil hne
  rw [List.forall_mem_cons] at hall
  have hfirst : IsDigits [first] := ⟨by simp, by simpa using hall.1⟩
  -- The exponent makes up for the digits behind the point.
  have hplaces : (10 : ℚ) ^ d.leadingExponent =
      10 ^ rest.length * 10 ^ ((d.place : ℤ) - 1074) := by
    rw [← zpow_natCast, ← zpow_add₀ hten, Decimal.leadingExponent, hlength, List.length_cons]
    congr 1
    omega
  rcases List.eq_nil_or_concat' rest with rfl | ⟨init, last, hrest⟩
  · refine ⟨[first], by simp, hfirst.not_mem (by decide), ?_, 0, ?_⟩
    · refine ⟨_, _, mantissaValue?_whole hfirst, exponentValue?_exponentText _, ?_⟩
      rw [hplaces, hvalue, Decimal.value, List.length_nil, pow_zero, one_mul]
    · simp [hall.1, hchars]
  · have hrest : IsDigits rest := ⟨by simp [hrest], hall.2⟩
    refine ⟨first :: '.' :: rest, by simp [hrest.1], ?_, ?_, 0, ?_⟩
    · simp [hrest.not_mem (by decide : 'e'.isDigit = false)]
      rintro rfl
      exact absurd hall.1 (by decide)
    · refine ⟨_, _, mantissaValue?_point hfirst hrest, exponentValue?_exponentText _, ?_⟩
      rw [hplaces, List.singleton_append, hvalue, Decimal.value, ← mul_assoc,
        div_mul_cancel₀ _ (pow_ne_zero _ hten)]
    · simp [hall.1, hchars, filter_isDigit hrest.2]

end Abacus.Notation
