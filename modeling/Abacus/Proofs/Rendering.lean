import Mathlib.Algebra.Order.BigOperators.Group.List
import Abacus.Number.Reading
import Abacus.Proofs.Accounts
import Abacus.Proofs.Faithful
import Abacus.Proofs.Lexing

/-!
# Tokens that read back

Tokens are rendered with a space between two, so a scan of the text takes them one by one. It finds
the operators, the parentheses and the numbers that are written with digits and a point alone. It
passes over the text of an infinity and of a NaN, and it breaks an exponent at its minus sign.
-/

namespace Abacus

namespace Reading

open Binary Notation Text

/-! ## Decimals that are read -/

def digitValues (cs : List Char) : List Nat := cs.map fun c => c.toNat - '0'.toNat

theorem digitValue?_eq {c : Char} (h : c.isDigit) : digitValue? c = some (c.toNat - '0'.toNat) := by
  obtain ⟨hlow, hhigh⟩ := Char.isDigit_iff_toNat.mp h
  change 48 ≤ c.toNat at hlow
  change c.toNat ≤ 57 at hhigh
  have hzeros : zeroDigits = 48 :: zeroDigits.tail := rfl
  rw [digitValue?, hzeros, List.find?_cons_of_pos (by simpa using by omega)]
  rfl

theorem leadingDigits_append {cs rest : List Char} (h : ∀ c ∈ cs, c.isDigit)
    (hrest : leadingDigits rest = ([], rest)) :
    leadingDigits (cs ++ rest) = (digitValues cs, rest) := by
  induction cs with
  | nil => exact hrest
  | cons c cs ih =>
    obtain ⟨hc, hcs⟩ := List.forall_mem_cons.mp h
    rw [List.cons_append, leadingDigits, digitValue?_eq hc, ih hcs]
    rfl

theorem leadingDigits_eq {cs : List Char} (h : ∀ c ∈ cs, c.isDigit) :
    leadingDigits cs = (digitValues cs, []) := by
  have hdigits := leadingDigits_append h (rfl : leadingDigits [] = ([], []))
  rwa [List.append_nil] at hdigits

theorem leadingDigits_point (rest : List Char) : leadingDigits ('.' :: rest) = ([], '.' :: rest) := by
  have hpoint : digitValue? '.' = none := by decide
  rw [leadingDigits, hpoint]

theorem numberOfDigits_digitValues (cs : List Char) :
    numberOfDigits (digitValues cs) = Nat.ofDigitChars 10 cs 0 := List.foldl_map

theorem digitValues_append (cs cs' : List Char) :
    digitValues cs ++ digitValues cs' = digitValues (cs ++ cs') := List.map_append.symm

theorem isEmpty_digitValues {cs : List Char} (h : IsDigits cs) : (digitValues cs).isEmpty = false := by
  simpa [digitValues] using h.1

theorem decimalDigits_whole {cs : List Char} (h : IsDigits cs) :
    decimalDigits cs = (digitValues cs, []) := by
  rw [decimalDigits, leadingDigits_eq h.2]

theorem decimalDigits_point {whole fraction : List Char} (hw : IsDigits whole)
    (hf : IsDigits fraction) :
    decimalDigits (whole ++ '.' :: fraction) = (digitValues whole, digitValues fraction) := by
  rw [decimalDigits, leadingDigits_append hw.2 (leadingDigits_point fraction)]
  simp only [leadingDigits_eq hf.2]

theorem ofRatio_pow (n k : Nat) :
    ofRatio n (Nat.pow 10 k) = ofCode (nearest (n / 10 ^ k)) := by
  have hpow : 0 < Nat.pow 10 k := Nat.pow_pos (by decide)
  rw [ofRatio, pow_eq_unit, nearestCode_eq n hpow, Nat.pow_eq, Nat.cast_pow, Nat.cast_ofNat]

/-- A mantissa is read as the number nearest to it. -/
theorem leadingNumber_mantissa {cs : List Char} {q : ℚ} (h : mantissaValue? cs = some q) :
    leadingNumber cs = ofCode (nearest q) := by
  unfold leadingNumber
  rcases mantissaValue?_cases h with ⟨hcs, rfl⟩ | ⟨whole, fraction, hw, hf, rfl, rfl⟩
  · rw [decimalDigits_whole hcs]
    simp only [isEmpty_digitValues hcs, Bool.false_and, Bool.false_eq_true, if_false,
      List.append_nil, numberOfDigits_digitValues]
    rw [ofRatio_pow, List.length_nil, pow_zero, div_one]
  · have hlength : (digitValues fraction).length = fraction.length := List.length_map _
    rw [decimalDigits_point hw hf]
    simp only [isEmpty_digitValues hw, Bool.false_and, Bool.false_eq_true, if_false,
      digitValues_append, numberOfDigits_digitValues, hlength]
    exact ofRatio_pow _ _

theorem isNumberChar_of_isDigit {c : Char} (h : c.isDigit) : isNumberChar c := by
  obtain ⟨hlow, hhigh⟩ := Char.isDigit_iff_toNat.mp h
  have hrange : '0' ≤ c ∧ c ≤ '9' := ⟨hlow, hhigh⟩
  simp [isNumberChar, hrange]

/-- A mantissa makes up a numeral. -/
theorem numeric_mantissa {cs : List Char} {q : ℚ} (h : mantissaValue? cs = some q) :
    cs ≠ [] ∧ ∀ c ∈ cs, isNumberChar c := by
  rcases mantissaValue?_cases h with ⟨hcs, -⟩ | ⟨whole, fraction, hw, hf, rfl, -⟩
  · exact ⟨hcs.1, fun c hc => isNumberChar_of_isDigit (hcs.2 c hc)⟩
  · refine ⟨by simp, fun c hc => ?_⟩
    rcases List.mem_append.mp hc with hc | hc
    · exact isNumberChar_of_isDigit (hw.2 c hc)
    · rcases List.mem_cons.mp hc with rfl | hc
      · rfl
      · exact isNumberChar_of_isDigit (hf.2 c hc)

end Reading

namespace Notation

open Binary

/-! ## Numbers that read back -/

/-- Zero, or a magnitude of at least 0.0001. -/
def Plain (x : Float) : Prop := code x = 0 ∨ (10 : ℚ) ^ (-4 : ℤ) ≤ size (code x)

variable {x : Float}

/-- In the text of a plain number there are digits and a point alone. -/
theorem exists_mantissaValue? (hx : x.isFinite = true) (hsign : isNegative x = false)
    (h : Plain x) :
    ∃ q, mantissaValue? (answerText x).toList = some q ∧ nearest q = code x := by
  have hc := (isFinite_iff x).mp hx
  have hunsigned : signText x = "" := by rw [signText, hsign]; rfl
  by_cases hwhole : ∃ n : Nat, size (code x) = n
  · obtain ⟨n, hn⟩ := hwhole
    have htext : answerText x = toString n := by
      rw [answerText_whole hx hn, hunsigned, String.empty_append]
      split
      · rename_i hzero
        rw [hzero]
        rfl
      · rfl
    refine ⟨n, ?_, by rw [← hn, nearest_size hc.le]⟩
    rw [htext, Nat.toString_eq_ofList_toDigits, String.toList_ofList,
      mantissaValue?_whole (isDigits_toDigits n), Nat.ofDigitChars_ten_toDigits]
  · rw [not_exists] at hwhole
    obtain ⟨mantissa, exponent, hwrites, htext, hkind⟩ := exists_writes hx hwhole
    rcases hkind with ⟨-, rfl, -⟩ | ⟨-, hsmall⟩
    · obtain ⟨m, e, hm, he, hvalue⟩ := hwrites.value
      obtain rfl : 0 = e := Option.some.inj he
      rw [zpow_zero, mul_one] at hvalue
      refine ⟨m, ?_, by rw [hvalue, Decimal.nearest_shortest hc.le]⟩
      rw [answerText_fraction hx hwhole, hunsigned, String.empty_append, htext, List.append_nil, hm]
    · have hpos := code_pos_of_fraction hwhole
      rcases h with hzero | hlarge
      · omega
      · exact absurd hsmall (not_lt.mpr hlarge)

/-- The text of any other number has an exponent below zero. -/
theorem minus_mem_answerText (hx : x.isFinite = true) (h : ¬ Plain x) :
    '-' ∈ (answerText x).toList := by
  obtain ⟨hne, hlt⟩ := not_or.mp h
  have hpos := Nat.pos_of_ne_zero hne
  have hsmall := not_le.mp hlt
  have hwhole : ∀ n : Nat, size (code x) ≠ n := by
    intro n hn
    have hsize := size_pos hpos
    rw [hn] at hsize hsmall
    have hone : (1 : ℚ) ≤ n := Nat.one_le_cast.mpr (Nat.cast_pos.mp hsize)
    norm_num at hsmall
    linarith
  obtain ⟨mantissa, exponent, -, htext, hkind⟩ := exists_writes hx hwhole
  rcases hkind with ⟨-, -, hlarge⟩ | ⟨⟨more, rfl⟩, -⟩
  · exact absurd hsmall (not_lt.mpr hlarge)
  · rw [answerText_fraction hx hwhole, String.toList_append, htext]
    simp

theorem plain_iff (hx : x.isFinite = true) (hsign : isNegative x = false) :
    Plain x ↔ (x == 0) = true ∨ 0.0001 ≤ x := by
  have hzero : (0 : Float).isFinite = true ∧ code 0 = 0 := by decide +kernel
  have hsmall : (0.0001 : Float).isFinite = true ∧ isNegative 0.0001 = false ∧
      code 0.0001 = nearestCode (1 * unit) 10000 := by decide +kernel
  have hratio : ((1 : Nat) : ℚ) / (10000 : Nat) = 10 ^ (-4 : ℤ) := by norm_num
  have hc := ((isFinite_iff x).mp hx).le
  symm
  apply or_congr
  · rw [beq_iff hx hzero.1, value_eq hx, value_eq hzero.1, hsign, hzero.2, size_zero, neg_zero,
      ite_self, if_neg Bool.false_ne_true, ← size_zero]
    exact size_strictMono.injective.eq_iff
  · rw [le_iff hsmall.1 hx, value_eq hx, value_eq hsmall.1, hsign, hsmall.2.1, hsmall.2.2,
      nearestCode_eq 1 (by decide), hratio, ← Decimal.nearest_le_iff_le_size hc]
    exact size_strictMono.le_iff_le

theorem leadingNumber_answerText (hx : x.isFinite = true) (hsign : isNegative x = false)
    {q : ℚ} (htext : mantissaValue? (answerText x).toList = some q) (hq : nearest q = code x) :
    Reading.leadingNumber (answerText x).toList = x := by
  obtain ⟨hcode, hpositive⟩ := code_ofCode ((isFinite_iff x).mp hx).le
  rw [Reading.leadingNumber_mantissa htext, hq]
  exact eq_of_code hcode (hpositive.trans hsign.symm)

end Notation

/-! ## One token -/

namespace Token

open Binary

/-- A proper token whose number, if it is one, has no sign and is written without an exponent. -/
def Legible : Token → Prop
  | number x => isNegative x = false ∧ (x.isFinite = true → Notation.Plain x)
  | t => t.isProper

def isFinite : Token → Bool
  | number x => x.isFinite
  | _ => true

theorem gap_word {word : String} (h : word ∈ ["NaN", "Infinity"]) : Gap false word.toList := by
  have hmeaningless : ∀ c ∈ ['N', 'a', 'I', 'n', 'f', 'i', 't', 'y'], isMeaningful c = false := by
    simp [isMeaningful, isNumberChar, Operator.ofChar?]
  have hchars : ∀ c ∈ word.toList, c ∈ ['N', 'a', 'I', 'n', 'f', 'i', 't', 'y'] := by
    rcases List.mem_pair.mp h with rfl | rfl
    · simp
    · simp
  exact fun c hc => ⟨hmeaningless c (hchars c hc), fun h => absurd h Bool.false_ne_true⟩

/-- The text of an infinity or of a NaN has no meaning in an expression. -/
theorem Legible.gap {t : Token} (h : t.Legible) (hinfinite : t.isFinite = false) :
    Gap false t.symbol.toList := by
  cases t with
  | number x =>
    have hfinite : x.isFinite = false := hinfinite
    rcases Notation.float_cases x with ⟨hnan, -⟩ | ⟨hnan, hinf, -⟩ | ⟨-, -, hfin⟩
    · have htext : Notation.answerText x = "NaN" := (Notation.answerText_eq_nan_iff x).mpr hnan
      rw [symbol, htext]
      exact gap_word (by decide)
    · have htext : Notation.answerText x = "Infinity" := by
        rw [Notation.answerText, if_neg (Bool.eq_false_iff.mp hnan), if_pos hinf,
          Notation.signText, h.1]
        rfl
      rw [symbol, htext]
      exact gap_word (by decide)
    · simp [hfin] at hfinite
  | operator op => cases hinfinite
  | leftParen => cases hinfinite
  | rightParen => cases hinfinite
  | unknownOperator symbol => cases h
  | foreign text => cases h

/-- The text of any other token is a lexeme of the token. -/
theorem Legible.lexeme {t : Token} (h : t.Legible) (hfinite : t.isFinite = true) :
    ∃ l : Lexeme, l.token = t ∧ l.chars = t.symbol.toList := by
  cases t with
  | number x =>
    obtain ⟨hsign, hplain⟩ := h
    obtain ⟨q, htext, hq⟩ := Notation.exists_mantissaValue? hfinite hsign (hplain hfinite)
    obtain ⟨hne, hnumeric⟩ := Reading.numeric_mantissa htext
    refine ⟨.numeral ⟨_, hne, hnumeric⟩, ?_, rfl⟩
    exact congrArg number (Notation.leadingNumber_answerText hfinite hsign htext hq)
  | operator op => exact ⟨.operator op, rfl, rfl⟩
  | leftParen => exact ⟨.leftParen, rfl, rfl⟩
  | rightParen => exact ⟨.rightParen, rfl, rfl⟩
  | unknownOperator symbol => cases h
  | foreign text => cases h

/-! ## A rendered list -/

theorem toList_render_cons (t u : Token) (ts : List Token) :
    (render (t :: u :: ts)).toList = t.symbol.toList ++ [' '] ++ (render (u :: ts)).toList := by
  rw [render, List.map_cons, List.map_cons, String.intercalate_cons_cons, String.toList_append,
    String.toList_append]
  rfl

theorem legible_of_plain {ts : List Token} (hproper : ∀ t ∈ ts, t.isProper)
    (hsign : ∀ x ∈ numbers ts, isNegative x = false)
    (hplain : ∀ x ∈ numbers ts, x.isFinite = true → Notation.Plain x) : ∀ t ∈ ts, t.Legible := by
  intro t ht
  cases t with
  | number x =>
    have hx := (mem_numbers ts x).mpr ht
    exact ⟨hsign x hx, hplain x hx⟩
  | operator op => rfl
  | leftParen => rfl
  | rightParen => rfl
  | unknownOperator symbol => exact hproper _ ht
  | foreign text => exact hproper _ ht

theorem forall_isFinite_iff (ts : List Token) :
    (∀ t ∈ ts, t.isFinite = true) ↔ ∀ x ∈ numbers ts, x.isFinite = true := by
  constructor
  · intro h x hx
    exact h _ ((mem_numbers ts x).mp hx)
  · intro h t ht
    cases t with
    | number x => exact h x ((mem_numbers ts x).mpr ht)
    | operator op => rfl
    | leftParen => rfl
    | rightParen => rfl
    | unknownOperator symbol => rfl
    | foreign text => rfl

theorem opened_filter (ts : List Token) : opened (ts.filter isFinite) = opened ts :=
  List.count_filter rfl

theorem closed_filter (ts : List Token) : closed (ts.filter isFinite) = closed ts :=
  List.count_filter rfl

end Token

namespace Scan

theorem reads_token (s : Scan) (hbuffer : s.buffer = []) {t : Token} (ht : t.Legible)
    (hnested : Nested s.depth [t]) :
    ∃ s', Reads false s t.symbol.toList ([t].filter Token.isFinite) s' := by
  cases hfinite : t.isFinite with
  | true =>
    obtain ⟨l, rfl, hchars⟩ := ht.lexeme hfinite
    obtain ⟨s', hreads, -⟩ := reads_lexeme false s l (fun _ => hbuffer) hnested
    rw [hchars] at hreads
    rw [List.filter_singleton, hfinite]
    exact ⟨s', hreads⟩
  | false =>
    obtain ⟨s', hreads, -⟩ := reads_gap false s _ (ht.gap hfinite)
    rw [List.filter_singleton, hfinite]
    exact ⟨s', hreads⟩

theorem reads_space (strict : Bool) (s : Scan) :
    ∃ s', Reads strict s [' '] [] s' ∧ s'.buffer = [] := by
  refine ⟨s.flush.advance, ⟨?_, ?_, ?_⟩, flush_buffer s⟩
  · rw [List.foldlM_cons, step_meaningless strict s ' ' rfl]
    rfl
  · rw [flush_eq s.flush.advance (flush_buffer s)]
    rfl
  · rw [closed_nil, opened_nil, ← flush_depth s]
    rfl

theorem reads_render {ts : List Token} (s : Scan) (hbuffer : s.buffer = [])
    (h : ∀ t ∈ ts, t.Legible) (hnested : Nested s.depth ts) :
    ∃ s', Reads false s (Token.render ts).toList (ts.filter Token.isFinite) s' := by
  induction ts generalizing s with
  | nil => exact ⟨s, rfl, rfl, rfl⟩
  | cons t ts ih =>
    obtain ⟨ht, hts⟩ := List.forall_mem_cons.mp h
    obtain ⟨s₁, hreads₁⟩ := reads_token s hbuffer ht (@Nested.front _ [t] ts hnested)
    cases ts with
    | nil =>
      rw [Token.render, List.map_singleton, String.intercalate_singleton]
      exact ⟨s₁, hreads₁⟩
    | cons u ts =>
      obtain ⟨s₂, hreads₂, hbuffer₂⟩ := reads_space false s₁
      have hreads := hreads₁.trans hreads₂
      have hdepth : s₂.depth + closed [t] = s.depth + opened [t] := by
        have hnests := hreads.nests
        rwa [List.append_nil, Token.closed_filter, Token.opened_filter] at hnests
      obtain ⟨s₃, hreads₃⟩ := ih s₂ hbuffer₂ hts (@Nested.behind _ _ [t] (u :: ts) hnested hdepth)
      have hall := hreads.trans hreads₃
      rw [List.append_nil, ← List.filter_append] at hall
      rw [Token.toList_render_cons]
      exact ⟨s₃, hall⟩

end Scan

/-- Of legible tokens all but the numbers that are not finite are found again. -/
theorem scan_legible {ts : List Token} (h : ∀ t ∈ ts, t.Legible) (hbalanced : Balanced ts) :
    (Token.scan false (Token.render ts)).outcome = .ok (ts.filter Token.isFinite) := by
  obtain ⟨s, hreads⟩ := Scan.reads_render {} rfl h hbalanced.nested
  apply scan_of_reads hreads
  rw [Token.closed_filter, Token.opened_filter, hbalanced.settled]

theorem scan_legible_eq_iff {ts : List Token} (h : ∀ t ∈ ts, t.Legible) (hbalanced : Balanced ts) :
    (Token.scan false (Token.render ts)).outcome = .ok ts ↔
      ∀ x ∈ Token.numbers ts, x.isFinite = true := by
  rw [scan_legible h hbalanced, Except.ok.injEq, List.filter_eq_self]
  exact Token.forall_isFinite_iff ts

/-! ## Minus signs -/

namespace Token

theorem countP_render (ts : List Token) :
    (render ts).toList.countP isOperatorChar =
      (ts.map fun t => t.symbol.toList.countP isOperatorChar).sum := by
  induction ts with
  | nil => rfl
  | cons t ts ih =>
    cases ts with
    | nil =>
      rw [render, List.map_singleton, String.intercalate_singleton]
      simp
    | cons u ts =>
      have hspace : [' '].countP isOperatorChar = 0 := by decide
      rw [toList_render_cons, List.countP_append, List.countP_append, hspace, ih]
      rfl

theorem length_operators_eq (ts : List Token) :
    (operators ts).length = (ts.map fun t => (operators [t]).length).sum := by
  induction ts with
  | nil => rfl
  | cons t ts ih =>
    rw [← List.singleton_append, operators_append, List.length_append, ih]
    rfl

theorem length_operators_singleton_le (t : Token) :
    (operators [t]).length ≤ t.symbol.toList.countP isOperatorChar := by
  cases t with
  | operator op => cases op <;> decide
  | number x => exact Nat.zero_le _
  | leftParen => exact Nat.zero_le _
  | rightParen => exact Nat.zero_le _
  | unknownOperator symbol => exact Nat.zero_le _
  | foreign text => exact Nat.zero_le _

/-- A minus sign in the text of a number is one operator more than the list has. -/
theorem minus_not_mem {ts : List Token}
    (h : (operators ts).length = (render ts).toList.countP isOperatorChar) {x : Float}
    (hx : x ∈ numbers ts) : '-' ∉ (Notation.answerText x).toList := by
  intro hmem
  have hnumber := (mem_numbers ts x).mp hx
  have hmore : (operators [number x]).length < (number x).symbol.toList.countP isOperatorChar :=
    List.countP_pos_iff.mpr ⟨'-', hmem, rfl⟩
  have hlt := List.sum_lt_sum _ _ (fun t _ => length_operators_singleton_le t) ⟨_, hnumber, hmore⟩
  rw [← length_operators_eq, ← countP_render] at hlt
  omega

end Token

/-! ## Lists that read back -/

open Binary Token

/-- A list of proper and balanced tokens reads back if no number is too small, infinite or a NaN. -/
theorem scan_render_eq_iff {ts : List Token} (hproper : ∀ t ∈ ts, t.isProper)
    (hbalanced : Balanced ts) (hsign : ∀ x ∈ numbers ts, isNegative x = false) :
    (Token.scan false (render ts)).outcome = .ok ts ↔
      ∀ x ∈ numbers ts, x.isFinite = true ∧ ((x == 0) = true ∨ 0.0001 ≤ x) := by
  constructor
  · intro h
    -- A scan finds as many operators as the text has, so no number is broken at a minus sign.
    have hplain : ∀ x ∈ numbers ts, x.isFinite = true → Notation.Plain x := by
      intro x hx hfin
      by_contra hnot
      exact minus_not_mem (length_operators_scan h) hx (Notation.minus_mem_answerText hfin hnot)
    have hlegible := legible_of_plain hproper hsign hplain
    intro x hx
    have hfin := (scan_legible_eq_iff hlegible hbalanced).mp h x hx
    exact ⟨hfin, (Notation.plain_iff hfin (hsign x hx)).mp (hplain x hx hfin)⟩
  · intro h
    have hlegible := legible_of_plain hproper hsign fun x hx hfin =>
      (Notation.plain_iff hfin (hsign x hx)).mpr (h x hx).2
    exact (scan_legible_eq_iff hlegible hbalanced).mpr fun x hx => (h x hx).1

theorem isNegative_leadingNumber (cs : List Char) :
    isNegative (Reading.leadingNumber cs) = false := by
  unfold Reading.leadingNumber
  split
  split
  · decide +kernel
  · exact (code_ofCode (nearestCode_le _ _)).2

theorem isNegative_scan {strict : Bool} {text : String} {tokens : List Token}
    (h : (Token.scan strict text).outcome = .ok tokens) :
    ∀ x ∈ numbers tokens, isNegative x = false := by
  intro x hx
  obtain ⟨n, rfl⟩ := exists_numeral_of_scan h hx
  exact isNegative_leadingNumber n.chars

theorem balanced_of_isPostfix {ts : List Token} (h : ∀ t ∈ ts, t.isPostfix) : Balanced ts := by
  have hnone : ∀ first, first <+: ts → closed first = 0 ∧ opened first = 0 := by
    intro first hfirst
    refine ⟨List.count_eq_zero.mpr fun hmem => ?_, List.count_eq_zero.mpr fun hmem => ?_⟩
    · cases h _ (hfirst.mem hmem)
    · cases h _ (hfirst.mem hmem)
  refine ⟨fun first hfirst => ?_, ?_⟩
  · rw [(hnone first hfirst).1]
    exact Nat.zero_le _
  · rw [(hnone ts List.prefix_rfl).1, (hnone ts List.prefix_rfl).2]

/-- The tokens of a text, as they stand there and in postfix order, read back from what they are
rendered to if each number is finite and is zero or at least 0.0001, and only then. -/
theorem scan_render_iff (text : String) (tokens : List Token)
    (h : (Token.scan false text).outcome = .ok tokens) :
    ∃ ordered, Token.toPostfix tokens = .ok ordered ∧ ∀ ts ∈ [tokens, ordered],
      ((Token.scan false (Token.render ts)).outcome = .ok ts ↔
        ∀ x ∈ Token.numbers ts, x.isFinite = true ∧ ((x == 0) = true ∨ 0.0001 ≤ x)) := by
  have hproper := isProper_of_scan h
  have hsign := isNegative_scan h
  have hpostfix := isPostfix_postfixFrom tokens
  refine ⟨_, toPostfix_eq tokens hproper, fun ts hts => ?_⟩
  rcases List.mem_pair.mp hts with rfl | rfl
  · exact scan_render_eq_iff hproper (scan_sound h).2 hsign
  · refine scan_render_eq_iff (fun t ht => ?_) (balanced_of_isPostfix hpostfix) ?_
    · have hkind := hpostfix t ht
      cases t <;> simp_all [isPostfix, isProper]
    · rw [numbers_postfixFrom]
      exact hsign

theorem scan_render_iff_small :
    (∃ tokens, (Token.scan false "(0.5+2)*3").outcome = .ok tokens ∧
      (Token.scan false (Token.render tokens)).outcome = .ok tokens) ∧
    ∃ tokens, (Token.scan false "1/0.00001").outcome = .ok tokens ∧
      (Token.scan false (Token.render tokens)).outcome ≠ .ok tokens := by
  have hgroup : (Token.scan false "(0.5+2)*3").outcome =
      .ok [.leftParen, .number 0.5, .operator .add, .number 2, .rightParen, .operator .mul,
        .number 3] := by decide +kernel
  have hsmall : (Token.scan false "1/0.00001").outcome =
      .ok [.number 1, .operator .div, .number 0.00001] := by decide +kernel
  obtain ⟨ordered, -, hreads⟩ := scan_render_iff _ _ hgroup
  obtain ⟨ordered', -, hbreaks⟩ := scan_render_iff _ _ hsmall
  refine ⟨⟨_, hgroup, (hreads _ List.mem_cons_self).mpr ?_⟩, _, hsmall, fun h => ?_⟩
  · decide +kernel
  · have hnumbers := (hbreaks _ List.mem_cons_self).mp h
    exact absurd hnumbers (by decide +kernel)

end Abacus
