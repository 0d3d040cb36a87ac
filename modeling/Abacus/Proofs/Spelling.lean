import Abacus.Proofs.Scanning

/-!
# Lexemes written as text

Lexemes may be written with any gaps around them. Where no two numerals meet, so that none can run
together, a scan of the text finds the lexemes again.
-/

namespace Abacus

/-- Characters that separate lexemes; a strict scan allows layout only. -/
def Gap (strict : Bool) (gap : List Char) : Prop :=
  ∀ c ∈ gap, isMeaningful c = false ∧ (strict → isLayout c)

/-- The lexemes in order, with gaps before, between and after them. -/
inductive Spelling (strict : Bool) : List Lexeme → List Char → Prop
  | nil {gap : List Char} (h : Gap strict gap) : Spelling strict [] gap
  | cons {gap cs : List Char} {lexemes : List Lexeme} (l : Lexeme) (h : Gap strict gap)
      (rest : Spelling strict lexemes cs) : Spelling strict (l :: lexemes) (gap ++ l.chars ++ cs)

/-! ## Numerals that meet -/

def Lexeme.isNumeral : Lexeme → Bool
  | .numeral _ => true
  | _ => false

def Apart (lexemes : List Lexeme) : Prop :=
  lexemes.IsChain fun a b => ¬ (a.isNumeral ∧ b.isNumeral)

theorem Derivation.apart {c : Category} (d : Derivation c) : Apart d.lexemes := by
  have hfits := d.isChain_fits .leftParen .rightParen rfl rfl
  have htokens : d.tokens.IsChain Fits := hfits.tail.left_of_append
  rw [Derivation.tokens, List.isChain_map] at htokens
  refine htokens.imp fun a b hab => ?_
  cases a <;> cases b <;> simp_all [Fits, Lexeme.token, Lexeme.isNumeral]

namespace Scan

/-! ## The scan of a spelling -/

/-- The characters take one scan to the next, with these tokens more. -/
structure Reads (strict : Bool) (s : Scan) (cs : List Char) (tokens : List Token) (s' : Scan) :
    Prop where
  run : cs.foldlM (step strict) s = .ok s'
  gives : s'.flush.tokens = tokens.reverse ++ s.flush.tokens
  nests : s'.depth + closed tokens = s.depth + opened tokens

theorem Reads.trans {strict : Bool} {s s₁ s₂ : Scan} {cs₁ cs₂ : List Char} {ts₁ ts₂ : List Token}
    (h₁ : Reads strict s cs₁ ts₁ s₁) (h₂ : Reads strict s₁ cs₂ ts₂ s₂) :
    Reads strict s (cs₁ ++ cs₂) (ts₁ ++ ts₂) s₂ where
  run := by rw [List.foldlM_append, h₁.run, ok_bind, h₂.run]
  gives := by rw [h₂.gives, h₁.gives]; simp
  nests := by
    have := h₁.nests
    have := h₂.nests
    simp only [opened_append, closed_append]
    omega

theorem reads_gap (strict : Bool) (s : Scan) (gap : List Char) (h : Gap strict gap) :
    ∃ s', Reads strict s gap [] s' ∧ (s' = s ∨ s'.buffer = []) := by
  induction gap generalizing s with
  | nil => exact ⟨s, ⟨rfl, rfl, rfl⟩, .inl rfl⟩
  | cons c gap ih =>
    obtain ⟨hc, hlayout⟩ := h c List.mem_cons_self
    have hstep : ∃ skipped, s.step strict c = .ok { s.flush.advance with skipped } := by
      rw [step_meaningless strict s c hc]
      split_ifs with hl hs
      · exact ⟨s.flush.skipped, rfl⟩
      · exact absurd (hlayout hs) hl
      · exact ⟨_, rfl⟩
    obtain ⟨skipped, hstep⟩ := hstep
    obtain ⟨s', hreads, hs'⟩ := ih { s.flush.advance with skipped }
      fun d hd => h d (List.mem_cons_of_mem _ hd)
    have hbuffer : ({ s.flush.advance with skipped } : Scan).buffer = [] := flush_buffer s
    refine ⟨s', ⟨?_, ?_, ?_⟩, .inr ?_⟩
    · rw [List.foldlM_cons, hstep, ok_bind, hreads.run]
    · rw [hreads.gives, flush_eq _ hbuffer]
      rfl
    · rw [hreads.nests, ← flush_depth s]
      rfl
    · rcases hs' with rfl | hs'
      · exact hbuffer
      · exact hs'

theorem foldlM_numeral (strict : Bool) (s : Scan) (cs : List Char) (h : ∀ c ∈ cs, isNumberChar c) :
    ∃ position, cs.foldlM (step strict) s =
      .ok { s with position, buffer := cs.reverse ++ s.buffer } := by
  induction cs generalizing s with
  | nil => exact ⟨s.position, rfl⟩
  | cons c cs ih =>
    obtain ⟨position, hrun⟩ := ih { s.advance with buffer := c :: s.buffer }
      fun d hd => h d (List.mem_cons_of_mem _ hd)
    refine ⟨position, ?_⟩
    rw [List.foldlM_cons, step_number strict s c (h c List.mem_cons_self), ok_bind, hrun]
    simp [advance]

theorem reads_symbol {strict : Bool} {s s' : Scan} {c : Char} {t : Token}
    (hstep : s.step strict c = .ok s') (hbuffer : s'.buffer = [])
    (htokens : s'.tokens = t :: s.flush.tokens)
    (hdepth : s'.depth + closed [t] = s.depth + opened [t]) : Reads strict s [c] [t] s' where
  run := by rw [List.foldlM_cons, hstep]; rfl
  gives := by rw [flush_eq s' hbuffer, htokens]; rfl
  nests := hdepth

theorem reads_lexeme (strict : Bool) (s : Scan) (l : Lexeme) (hbuf : l.isNumeral → s.buffer = [])
    (hnested : Nested s.depth [l.token]) :
    ∃ s', Reads strict s l.chars [l.token] s' ∧ (l.isNumeral = false → s'.buffer = []) := by
  cases l with
  | numeral n =>
    have hempty := hbuf rfl
    obtain ⟨position, hrun⟩ := foldlM_numeral strict s n.chars n.numeric
    refine ⟨_, ⟨hrun, ?_, by simp [Lexeme.token]⟩, by simp [Lexeme.isNumeral]⟩
    have hne := n.nonempty
    rw [flush_eq s hempty, hempty, List.append_nil]
    unfold flush
    split
    · simp_all
    · simp [Lexeme.token, Numeral.value]
  | operator op =>
    obtain ⟨c, hc⟩ : ∃ c, op.symbol.toList = [c] := by cases op <;> exact ⟨_, rfl⟩
    rw [Lexeme.chars, hc]
    exact ⟨_, reads_symbol (step_operator strict s op c hc) (flush_buffer s) rfl
      (by simp [Lexeme.token, advance]), fun _ => flush_buffer s⟩
  | leftParen =>
    exact ⟨_, reads_symbol (step_leftParen strict s) (flush_buffer s) rfl (by simp [Lexeme.token]),
      fun _ => flush_buffer s⟩
  | rightParen =>
    rw [Lexeme.token, nested_rightParen] at hnested
    obtain ⟨depth, hdepth⟩ : ∃ d, s.depth = d + 1 := ⟨s.depth - 1, by omega⟩
    have hstep := step_rightParen strict s
    rw [hdepth] at hstep
    exact ⟨_, reads_symbol hstep (flush_buffer s) rfl (by simp [Lexeme.token, hdepth]),
      fun _ => flush_buffer s⟩

theorem reads_spelling {strict : Bool} {lexemes : List Lexeme} {cs : List Char} (s : Scan)
    (h : Spelling strict lexemes cs) (hapart : Apart lexemes)
    (hbuf : s.buffer = [] ∨ ∀ l ∈ lexemes.head?, l.isNumeral = false)
    (hnested : Nested s.depth (lexemes.map Lexeme.token)) :
    ∃ s', Reads strict s cs (lexemes.map Lexeme.token) s' := by
  induction h generalizing s with
  | nil hgap =>
    obtain ⟨s', hreads, -⟩ := reads_gap strict s _ hgap
    exact ⟨s', hreads⟩
  | @cons gap cs lexemes l hgap rest ih =>
    obtain ⟨s₁, hreads₁, hs₁⟩ := reads_gap strict s gap hgap
    have hdepth₁ : s₁.depth = s.depth := by simpa using hreads₁.nests
    have hbuf₁ : l.isNumeral → s₁.buffer = [] := by
      intro hl
      rcases hs₁ with rfl | hs₁
      · exact hbuf.resolve_right fun hnot => by simpa [hl] using hnot l rfl
      · exact hs₁
    rw [List.map_cons, ← List.singleton_append] at hnested
    have hnested₁ : Nested s₁.depth [l.token] := by
      rw [hdepth₁]
      exact hnested.front
    obtain ⟨s₂, hreads₂, hs₂⟩ := reads_lexeme strict s₁ l hbuf₁ hnested₁
    obtain ⟨hhead, hapart⟩ := List.isChain_cons.mp hapart
    -- Only a numeral leaves its characters in the buffer, and no numeral follows one.
    have hbuf₂ : s₂.buffer = [] ∨ ∀ next ∈ lexemes.head?, next.isNumeral = false := by
      by_cases hl : l.isNumeral
      · exact .inr fun next hnext => by simpa [hl] using hhead next hnext
      · exact .inl (hs₂ (by simpa using hl))
    have hnested₂ := hnested.behind (by rw [← hdepth₁]; exact hreads₂.nests)
    obtain ⟨s₃, hreads₃⟩ := ih s₂ hapart hbuf₂ hnested₂
    exact ⟨s₃, (hreads₁.trans hreads₂).trans hreads₃⟩

end Scan

theorem scan_of_reads {strict : Bool} {text : String} {tokens : List Token} {s : Scan}
    (h : Scan.Reads strict {} text.toList tokens s) (hsettled : closed tokens = opened tokens) :
    (Token.scan strict text).outcome = .ok tokens := by
  have hdepth := h.nests
  rw [hsettled] at hdepth
  have hzero : s.depth = 0 := by simpa using hdepth
  unfold Token.scan
  rw [Scan.run_outcome, h.run, ok_bind, Scan.finish, if_pos (by simp [hzero]), h.gives]
  simp [Scan.flush]

theorem scan_spelling {strict : Bool} {lexemes : List Lexeme} {text : String}
    (h : Spelling strict lexemes text.toList) (hapart : Apart lexemes)
    (hbalanced : Balanced (lexemes.map Lexeme.token)) :
    (Token.scan strict text).outcome = .ok (lexemes.map Lexeme.token) := by
  obtain ⟨s, hreads⟩ := Scan.reads_spelling {} h hapart (.inl rfl) hbalanced.nested
  exact scan_of_reads hreads hbalanced.settled

end Abacus
