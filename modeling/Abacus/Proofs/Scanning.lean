import Mathlib.Tactic.SplitIfs
import Abacus.Proofs.Traced
import Abacus.Proofs.Placement

/-!
# The scan

A character is part of a number, is a symbol or has no meaning, and a step has one rule for each. A
scan that succeeds gives balanced lexemes, and lexemes that are written down with meaningless
characters around them are found again.
-/

namespace Abacus

/-! ## Classes of characters -/

/-- Digits, the point, operators and parentheses. -/
def isMeaningful (c : Char) : Bool :=
  isNumberChar c || (Operator.ofChar? c).isSome || c == '(' || c == ')'

theorem char_cases (c : Char) :
    isNumberChar c ∨ (∃ op : Operator, op.symbol.toList = [c]) ∨ c = '(' ∨ c = ')' ∨
      isMeaningful c = false := by
  simp only [← Operator.ofChar?_eq_some_iff]
  cases hn : isNumberChar c <;> cases ho : Operator.ofChar? c <;> simp [isMeaningful, hn, ho]
  tauto

namespace Scan

/-! ## One character -/

theorem flush_eq (s : Scan) (h : s.buffer = []) : s.flush = s := by
  unfold flush
  rw [h]

@[simp]
theorem flush_buffer (s : Scan) : s.flush.buffer = [] := by
  unfold flush
  split <;> simp_all

@[simp]
theorem flush_depth (s : Scan) : s.flush.depth = s.depth := by
  unfold flush
  split <;> rfl

@[simp]
theorem flush_position (s : Scan) : s.flush.position = s.position := by
  unfold flush
  split <;> rfl

@[simp]
theorem flush_skipped (s : Scan) : s.flush.skipped = s.skipped := by
  unfold flush
  split <;> rfl

@[simp]
theorem push_depth (s : Scan) (t : Token) : (s.push t).depth = s.depth := rfl

theorem step_number (strict : Bool) (s : Scan) (c : Char) (h : isNumberChar c) :
    s.step strict c = .ok { s.advance with buffer := c :: s.buffer } := by
  unfold step
  rw [if_pos h]

theorem step_operator (strict : Bool) (s : Scan) (op : Operator) (c : Char)
    (h : op.symbol.toList = [c]) :
    s.step strict c = .ok (s.flush.push (.operator op)).advance := by
  cases op <;> simp [Operator.symbol] at h <;> subst h <;> rfl

theorem step_leftParen (strict : Bool) (s : Scan) :
    s.step strict '(' = .ok { (s.flush.push .leftParen).advance with depth := s.depth + 1 } := by
  rw [← flush_depth s]
  rfl

theorem step_rightParen (strict : Bool) (s : Scan) :
    s.step strict ')' =
      match s.depth with
      | 0 => .error (.unexpectedClose s.position)
      | depth + 1 => .ok { (s.flush.push .rightParen).advance with depth } := by
  rw [← flush_depth s, ← flush_position s]
  rfl

theorem step_meaningless (strict : Bool) (s : Scan) (c : Char) (h : isMeaningful c = false) :
    s.step strict c =
      if isLayout c then .ok s.flush.advance
      else if strict then .error (.unrecognized c s.position)
      else .ok { s.flush.advance with skipped := (c, s.position) :: s.flush.skipped } := by
  unfold isMeaningful at h
  cases ho : Operator.ofChar? c with
  | some op => simp [ho] at h
  | none => simp_all [step, symbolStep]

/-- What a scan becomes when it takes a character. -/
inductive Takes (strict : Bool) (s : Scan) (c : Char) : Scan → Prop
  | number (h : isNumberChar c) : Takes strict s c { s.advance with buffer := c :: s.buffer }
  | operator (op : Operator) (h : op.symbol.toList = [c]) :
    Takes strict s c (s.flush.push (.operator op)).advance
  | leftParen (h : c = '(') :
    Takes strict s c { (s.flush.push .leftParen).advance with depth := s.depth + 1 }
  | rightParen (depth : Nat) (h : c = ')') (hdepth : s.depth = depth + 1) :
    Takes strict s c { (s.flush.push .rightParen).advance with depth }
  | layout (h : isMeaningful c = false) (hlayout : isLayout c) : Takes strict s c s.flush.advance
  | stranger (h : isMeaningful c = false) (hlayout : ¬ isLayout c) (hstrict : ¬ strict) :
    Takes strict s c { s.flush.advance with skipped := (c, s.position) :: s.skipped }

theorem step_of_takes {strict : Bool} {s s' : Scan} {c : Char} (h : s.Takes strict c s') :
    s.step strict c = .ok s' := by
  cases h with
  | number h => exact step_number strict s c h
  | operator op h => exact step_operator strict s op c h
  | leftParen h =>
    subst h
    exact step_leftParen strict s
  | rightParen depth h hdepth =>
    subst h
    rw [step_rightParen, hdepth]
  | layout h hlayout => rw [step_meaningless strict s c h, if_pos hlayout]
  | stranger h hlayout hstrict =>
    rw [step_meaningless strict s c h, if_neg hlayout, if_neg hstrict, flush_skipped]

theorem takes_of_step {strict : Bool} {s s' : Scan} {c : Char} (h : s.step strict c = .ok s') :
    s.Takes strict c s' := by
  rcases char_cases c with hc | ⟨op, hc⟩ | rfl | rfl | hc
  · rw [step_number strict s c hc] at h
    obtain rfl := Except.ok.inj h
    exact .number hc
  · rw [step_operator strict s op c hc] at h
    obtain rfl := Except.ok.inj h
    exact .operator op hc
  · rw [step_leftParen] at h
    obtain rfl := Except.ok.inj h
    exact .leftParen rfl
  · rw [step_rightParen] at h
    cases hdepth : s.depth with
    | zero => simp [hdepth] at h
    | succ depth =>
      rw [hdepth] at h
      obtain rfl := Except.ok.inj h
      exact .rightParen depth rfl hdepth
  · rw [step_meaningless strict s c hc, flush_skipped] at h
    split_ifs at h with hlayout hstrict
    · obtain rfl := Except.ok.inj h
      exact .layout hc hlayout
    · obtain rfl := Except.ok.inj h
      exact .stranger hc hlayout hstrict

/-- What a scan stops at. -/
inductive Refuses (strict : Bool) (s : Scan) (c : Char) : Fault → Prop
  | close (h : c = ')') (hdepth : s.depth = 0) : Refuses strict s c (.unexpectedClose s.position)
  | stranger (h : isMeaningful c = false) (hlayout : ¬ isLayout c) (hstrict : strict) :
    Refuses strict s c (.unrecognized c s.position)

theorem refuses_of_step {strict : Bool} {s : Scan} {c : Char} {fault : Fault}
    (h : s.step strict c = .error fault) : s.Refuses strict c fault := by
  rcases char_cases c with hc | ⟨op, hc⟩ | rfl | rfl | hc
  · simp [step_number strict s c hc] at h
  · simp [step_operator strict s op c hc] at h
  · simp [step_leftParen] at h
  · rw [step_rightParen] at h
    cases hdepth : s.depth with
    | zero =>
      rw [hdepth] at h
      obtain rfl := Except.error.inj h
      exact .close rfl hdepth
    | succ depth => simp [hdepth] at h
  · rw [step_meaningless strict s c hc] at h
    split_ifs at h with hlayout hstrict
    obtain rfl := Except.error.inj h
    exact .stranger hc hlayout hstrict

/-! ## A whole text -/

theorem run_outcome (strict : Bool) (s : Scan) (cs : List Char) :
    (s.run strict cs).outcome = cs.foldlM (step strict) s >>= finish := by
  induction cs generalizing s with
  | nil => rfl
  | cons c cs ih =>
    rw [List.foldlM_cons]
    unfold run
    cases h : s.step strict c with
    | error fault => rfl
    | ok s' => exact ih s'

/-- What a scan holds at any point: lexemes, nested as deep as it counts, and part of a numeral. -/
structure Sound (s : Scan) : Prop where
  numeric : ∀ c ∈ s.buffer, isNumberChar c
  lexical : ∀ t ∈ s.tokens, ∃ l : Lexeme, l.token = t
  nested : Nested 0 s.tokens.reverse
  depth : s.depth + closed s.tokens.reverse = opened s.tokens.reverse

theorem Sound.push {s : Scan} (h : s.Sound) (l : Lexeme) (depth : Nat)
    (hd : depth + closed [l.token] = s.depth + opened [l.token]) :
    Sound { (s.push l.token).advance with depth } where
  numeric := h.numeric
  lexical := by
    intro t ht
    rcases List.mem_cons.mp ht with rfl | ht
    · exact ⟨l, rfl⟩
    · exact h.lexical t ht
  nested := by
    have hs := h.depth
    simp only [Scan.push, advance, List.reverse_cons]
    apply nested_append _ _ _ h.nested (by omega)
    intro first hfirst
    rw [← List.nil_append [l.token]] at hfirst
    rcases List.prefix_concat_iff.mp hfirst with rfl | hnil
    · simp only [List.nil_append]
      omega
    · simp [List.prefix_nil.mp hnil]
  depth := by
    have hs := h.depth
    simp only [Scan.push, advance, List.reverse_cons, opened_append, closed_append]
    omega

theorem Sound.flush {s : Scan} (h : s.Sound) : s.flush.Sound := by
  unfold Scan.flush
  split
  · exact h
  · rename_i buffer hne
    let n : Numeral := ⟨s.buffer.reverse, by simpa using hne, by simpa using h.numeric⟩
    have := h.push (.numeral n) s.depth (by simp [Lexeme.token])
    exact ⟨by simp, this.lexical, this.nested, this.depth⟩

theorem Sound.step {strict : Bool} {s s' : Scan} {c : Char} (h : s.Sound)
    (hstep : s.step strict c = .ok s') : s'.Sound := by
  have hf := h.flush
  cases takes_of_step hstep with
  | number hc =>
    refine ⟨?_, h.lexical, h.nested, h.depth⟩
    intro d hd
    rcases List.mem_cons.mp hd with rfl | hd
    · exact hc
    · exact h.numeric d hd
  | operator op hc => exact hf.push (.operator op) _ (by simp [Lexeme.token])
  | leftParen hc => exact hf.push .leftParen _ (by simp [Lexeme.token])
  | rightParen depth hc hd => exact hf.push .rightParen _ (by simp [Lexeme.token, hd])
  | layout hc hlayout => exact ⟨hf.numeric, hf.lexical, hf.nested, hf.depth⟩
  | stranger hc hlayout hstrict => exact ⟨hf.numeric, hf.lexical, hf.nested, hf.depth⟩

theorem sound_start : Sound {} := ⟨by simp, by simp, nested_nil 0, rfl⟩

end Scan

/-- What a scan gives are the tokens of lexemes, with balanced parentheses. -/
theorem scan_sound {strict : Bool} {text : String} {tokens : List Token}
    (h : (Token.scan strict text).outcome = .ok tokens) :
    (∀ t ∈ tokens, ∃ l : Lexeme, l.token = t) ∧ Balanced tokens := by
  unfold Token.scan at h
  rw [Scan.run_outcome] at h
  obtain ⟨s, hs, hfinish⟩ := bind_eq_ok h
  have hend := foldlM_invariant Scan.Sound (fun _ _ _ hi => hi.step) _ _ _ Scan.sound_start hs
  have hsound := hend.flush
  unfold Scan.finish at hfinish
  split_ifs at hfinish with hdepth
  obtain rfl := Except.ok.inj hfinish
  refine ⟨fun t ht => hsound.lexical t (List.mem_reverse.mp ht), hsound.nested, ?_⟩
  have := hsound.depth
  simp only [Scan.flush_depth] at this
  simp at hdepth
  omega

theorem isProper_of_scan {strict : Bool} {text : String} {tokens : List Token}
    (h : (Token.scan strict text).outcome = .ok tokens) : ∀ t ∈ tokens, t.isProper := by
  intro t ht
  obtain ⟨l, rfl⟩ := (scan_sound h).1 t ht
  exact l.token_isProper

theorem scan_error {strict : Bool} {text : String} {fault : Fault}
    (h : (Token.scan strict text).outcome = .error fault) :
    (∃ position, fault = .unexpectedClose position) ∨ (∃ count, fault = .unclosed count) ∨
      strict ∧ ∃ c position, fault = .unrecognized c position := by
  unfold Token.scan at h
  rw [Scan.run_outcome] at h
  cases hs : text.toList.foldlM (Scan.step strict) {} with
  | error e =>
    rw [hs] at h
    obtain rfl : e = fault := Except.error.inj h
    obtain ⟨_, c, _, s, -, -, hc⟩ := foldlM_error _ _ _ hs
    cases Scan.refuses_of_step hc with
    | close hchar hdepth => exact .inl ⟨_, rfl⟩
    | stranger hchar hlayout hstrict => exact .inr (.inr ⟨hstrict, _, _, rfl⟩)
  | ok s =>
    rw [hs, ok_bind] at h
    unfold Scan.finish at h
    split_ifs at h
    exact .inr (.inl ⟨s.depth, (Except.error.inj h).symm⟩)

end Abacus
