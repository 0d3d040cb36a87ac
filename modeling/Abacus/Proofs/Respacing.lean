import Mathlib.Data.List.TakeWhile
import Abacus.Proofs.Evaluation
import Abacus.Proofs.Lexing
import Abacus.Proofs.Safety
import Abacus.Text.Blank
import Abacus.Text.LineEnd

/-!
# Blanks and line ends

A lax scan passes over blanks, so it makes no difference whether they stand at the ends of a text,
and a line end may be any of the three. Positions may shift, but the tokens stay, and so does the
kind of a fault.
-/

namespace Abacus

/-! ## Blanks -/

theorem isMeaningful_of_isBlank {c : Char} (h : Text.isBlank c) : isMeaningful c = false := by
  by_contra hmeaning
  have hmem : c ∈ alphabet := (mem_alphabet_iff c).mpr (.inl (by simpa using hmeaning))
  have hlist : alphabet.all (fun c => !Text.isBlank c || !isMeaningful c) = true := by
    decide +kernel
  have hnot := List.all_eq_true.mp hlist c hmem
  rw [h] at hnot
  exact hmeaning (by simpa using hnot)

namespace Text

variable {cs : List Char}

/-- What is trimmed off a text are blanks at its ends. -/
theorem exists_trim (cs : List Char) : ∃ before after, cs = before ++ trim cs ++ after ∧
    (∀ c ∈ before, isBlank c) ∧ ∀ c ∈ after, isBlank c := by
  have hback := List.takeWhile_append_dropWhile (p := isBlank) (l := (trimLeft cs).reverse)
  refine ⟨cs.takeWhile isBlank, ((trimLeft cs).reverse.takeWhile isBlank).reverse, ?_,
    fun c hc => List.mem_takeWhile_imp hc, fun c hc => ?_⟩
  · have hreverse := congrArg List.reverse hback
    rw [List.reverse_append, List.reverse_reverse] at hreverse
    rw [List.append_assoc, trim, trimRight, hreverse]
    exact List.takeWhile_append_dropWhile.symm
  · exact List.mem_takeWhile_imp (List.mem_reverse.mp hc)

theorem trim_eq_nil_iff : trim cs = [] ↔ ∀ c ∈ cs, isBlank c := by
  constructor
  · intro h
    obtain ⟨before, after, hcs, hbefore, hafter⟩ := exists_trim cs
    rw [hcs, h, List.append_nil]
    exact List.forall_mem_append.mpr ⟨hbefore, hafter⟩
  · intro h
    have hnone : trimLeft cs = [] := List.dropWhile_eq_nil_iff.mpr h
    rw [trim, hnone]
    rfl

theorem isBlank_foldLineEnds : (∀ c ∈ foldLineEnds cs, isBlank c) ↔ ∀ c ∈ cs, isBlank c := by
  have hreturn : isBlank '\r' = true := rfl
  have hfeed : isBlank '\n' = true := rfl
  induction cs using foldLineEnds.induct with
  | case1 => simp [foldLineEnds]
  | case2 rest ih => simp [foldLineEnds, ih, hreturn, hfeed]
  | case3 rest hnot ih => simp [foldLineEnds, ih, hreturn, hfeed]
  | case4 c rest hnot hnot' ih => simp [foldLineEnds, ih]

end Text

namespace Scan

/-! ## Scans that differ in their positions -/

/-- The tokens that a lax scan comes to, or the kind of its fault. -/
def verdict (s : Scan) (cs : List Char) : Except FaultKind (List Token) :=
  (s.run false cs).outcome.mapError Fault.kind

/-- The scans have the same in them, but for positions and what they have passed over. -/
structure Alike (s s' : Scan) : Prop where
  depth : s.depth = s'.depth
  buffer : s.buffer = s'.buffer
  tokens : s.tokens = s'.tokens

variable {s s' : Scan} {c : Char}

theorem verdict_cons (s : Scan) (c : Char) (cs : List Char) :
    s.verdict (c :: cs) =
      match s.step false c with
      | .ok s' => s'.verdict cs
      | .error fault => .error fault.kind := by
  unfold verdict
  rw [run]
  cases s.step false c <;> rfl

theorem Alike.symm (h : Alike s s') : Alike s' s := ⟨h.depth.symm, h.buffer.symm, h.tokens.symm⟩

theorem Alike.trans {s'' : Scan} (h : Alike s s') (h' : Alike s' s'') : Alike s s'' :=
  ⟨h.depth.trans h'.depth, h.buffer.trans h'.buffer, h.tokens.trans h'.tokens⟩

theorem Alike.flush (h : Alike s s') : Alike s.flush s'.flush := by
  obtain ⟨_, _, buffer, _, _⟩ := s
  obtain ⟨_, _, _, _, _⟩ := s'
  obtain ⟨rfl, rfl, rfl⟩ := h
  cases buffer <;> exact ⟨rfl, rfl, rfl⟩

/-- A character without a meaning does no more than end a number. -/
theorem step_gap (s : Scan) (hc : isMeaningful c = false) :
    ∃ t, s.step false c = .ok t ∧ Alike t s.flush := by
  rw [step_meaningless false s c hc, if_neg Bool.false_ne_true]
  split
  · exact ⟨_, rfl, rfl, rfl, rfl⟩
  · exact ⟨_, rfl, rfl, rfl, rfl⟩

/-- Alike scans take a character alike. -/
theorem Alike.step (h : Alike s s') (c : Char) :
    (∃ t t', s.step false c = .ok t ∧ s'.step false c = .ok t' ∧ Alike t t') ∨
      ∃ fault fault', s.step false c = .error fault ∧ s'.step false c = .error fault' ∧
        fault.kind = fault'.kind := by
  have hf := h.flush
  rcases char_cases c with hc | ⟨op, hc⟩ | rfl | rfl | hc
  · refine .inl ⟨_, _, step_number false s c hc, step_number false s' c hc, h.depth, ?_, h.tokens⟩
    exact congrArg (c :: ·) h.buffer
  · refine .inl ⟨_, _, step_operator false s op c hc, step_operator false s' op c hc, hf.depth,
      hf.buffer, ?_⟩
    exact congrArg (Token.operator op :: ·) hf.tokens
  · refine .inl ⟨_, _, step_leftParen false s, step_leftParen false s',
      congrArg (· + 1) h.depth, hf.buffer, ?_⟩
    exact congrArg (Token.leftParen :: ·) hf.tokens
  · rw [step_rightParen, step_rightParen, ← h.depth]
    cases s.depth with
    | zero => exact .inr ⟨_, _, rfl, rfl, rfl⟩
    | succ depth =>
      exact .inl ⟨_, _, rfl, rfl, rfl, hf.buffer, congrArg (Token.rightParen :: ·) hf.tokens⟩
  · obtain ⟨t, ht, hlike⟩ := step_gap s hc
    obtain ⟨t', ht', hlike'⟩ := step_gap s' hc
    exact .inl ⟨t, t', ht, ht', (hlike.trans hf).trans hlike'.symm⟩

theorem Alike.verdict_eq (h : Alike s s') (cs : List Char) : s.verdict cs = s'.verdict cs := by
  induction cs generalizing s s' with
  | nil =>
    have hf := h.flush
    simp only [verdict, run, finish, h.depth, hf.tokens]
  | cons c cs ih =>
    rw [verdict_cons, verdict_cons]
    rcases h.step c with ⟨t, t', ht, ht', hlike⟩ | ⟨fault, fault', hf, hf', hkind⟩
    · rw [ht, ht']
      exact ih hlike
    · rw [hf, hf']
      exact congrArg Except.error hkind

/-! ## Blanks in a scan -/

theorem verdict_gap (s : Scan) (hc : isMeaningful c = false) (cs : List Char) :
    s.verdict (c :: cs) = s.flush.verdict cs := by
  obtain ⟨t, ht, hlike⟩ := step_gap s hc
  rw [verdict_cons, ht]
  exact hlike.verdict_eq cs

theorem flush_flush (s : Scan) : s.flush.flush = s.flush := flush_eq _ (flush_buffer s)

/-- With no number begun, characters without a meaning have no effect. -/
theorem verdict_append_front {gap : List Char} (hgap : ∀ c ∈ gap, isMeaningful c = false)
    (hbuffer : s.buffer = []) (cs : List Char) : s.verdict (gap ++ cs) = s.verdict cs := by
  induction gap with
  | nil => rfl
  | cons c gap ih =>
    obtain ⟨hc, hgap⟩ := List.forall_mem_cons.mp hgap
    rw [List.cons_append, verdict_gap s hc, flush_eq s hbuffer]
    exact ih hgap

/-- The end of a text ends a number as well as a character without a meaning does. -/
theorem verdict_append_back (s : Scan) (cs : List Char) {gap : List Char}
    (hgap : ∀ c ∈ gap, isMeaningful c = false) : s.verdict (cs ++ gap) = s.verdict cs := by
  induction cs generalizing s with
  | nil =>
    cases gap with
    | nil => rfl
    | cons c gap =>
      obtain ⟨hc, hgap⟩ := List.forall_mem_cons.mp hgap
      have hnothing := verdict_append_front hgap (flush_buffer s) []
      rw [List.append_nil] at hnothing
      rw [List.nil_append, verdict_gap s hc, hnothing]
      simp only [verdict, run, finish, flush_depth, flush_flush]
  | cons c cs ih =>
    rw [List.cons_append, verdict_cons, verdict_cons]
    cases s.step false c with
    | ok s' => exact ih s'
    | error fault => rfl

theorem verdict_trim (s : Scan) (hbuffer : s.buffer = []) (cs : List Char) :
    s.verdict (Text.trim cs) = s.verdict cs := by
  obtain ⟨before, after, hcs, hbefore, hafter⟩ := Text.exists_trim cs
  have hbefore : ∀ c ∈ before, isMeaningful c = false := fun c hc =>
    isMeaningful_of_isBlank (hbefore c hc)
  have hafter : ∀ c ∈ after, isMeaningful c = false := fun c hc =>
    isMeaningful_of_isBlank (hafter c hc)
  conv_rhs => rw [hcs]
  rw [verdict_append_back s _ hafter, verdict_append_front hbefore hbuffer]

theorem verdict_foldLineEnds (s : Scan) (cs : List Char) :
    s.verdict (Text.foldLineEnds cs) = s.verdict cs := by
  have hreturn : isMeaningful '\r' = false := rfl
  have hfeed : isMeaningful '\n' = false := rfl
  induction cs using Text.foldLineEnds.induct generalizing s with
  | case1 => rfl
  | case2 rest ih =>
    rw [Text.foldLineEnds, verdict_gap s hfeed, verdict_gap s hreturn, verdict_gap _ hfeed,
      flush_flush]
    exact ih _
  | case3 rest hnot ih =>
    rw [Text.foldLineEnds, verdict_gap s hfeed, verdict_gap s hreturn]
    · exact ih _
    · exact hnot
  | case4 c rest hnot hnot' ih =>
    rw [Text.foldLineEnds, verdict_cons, verdict_cons]
    · cases s.step false c with
      | ok s' => exact ih s'
      | error fault => rfl
    · exact hnot
    · exact hnot'

end Scan

/-! ## Explanations -/

/-- Texts that a lax scan takes for the same tokens, or refuses for a fault of the same kind. -/
def SameVerdict (text text' : String) : Prop :=
  (Token.scan false text).outcome.mapError Fault.kind =
    (Token.scan false text').outcome.mapError Fault.kind

/-- A text with its line ends folded and without blanks at its ends is explained alike. -/
theorem sameVerdict_trim (cs : List Char) :
    SameVerdict (String.ofList (Text.trim (Text.foldLineEnds cs))) (String.ofList cs) := by
  have htrim := Scan.verdict_trim {} rfl (Text.foldLineEnds cs)
  have hfold := Scan.verdict_foldLineEnds {} cs
  unfold SameVerdict Token.scan
  rw [String.toList_ofList, String.toList_ofList]
  exact htrim.trans hfold

theorem SameVerdict.explain {text text' : String} (h : SameVerdict text text')
    (strictOperands : Bool) :
    ∃ o o', ((Calculator.standard strictOperands false).explain text).outcome = .ok o ∧
      ((Calculator.standard strictOperands false).explain text').outcome = .ok o' ∧
      o.result = o'.result := by
  obtain ⟨result, hresult⟩ := standard_attempt_ok strictOperands false text
  obtain ⟨result', hresult'⟩ := standard_attempt_ok strictOperands false text'
  refine ⟨⟨text, result.mapError Fault.kind⟩, ⟨text', result'.mapError Fault.kind⟩, ?_, ?_, ?_⟩
  · rw [Calculator.explain_outcome, hresult]
    rfl
  · rw [Calculator.explain_outcome, hresult']
    rfl
  change result.mapError Fault.kind = result'.mapError Fault.kind
  unfold SameVerdict at h
  rw [Calculator.attempt_outcome, standard_outcome] at hresult hresult'
  cases hscan : (Token.scan false text).outcome with
  | ok tokens =>
    rw [hscan, mapError_ok] at h
    rw [mapError_eq_ok h.symm, ← hscan] at hresult'
    rw [Except.ok.inj (hresult.symm.trans hresult')]
  | error fault =>
    cases hscan' : (Token.scan false text').outcome with
    | ok tokens => simp [hscan, hscan'] at h
    | error fault' =>
      rw [hscan] at hresult h
      rw [hscan'] at hresult' h
      obtain rfl := Except.ok.inj hresult
      obtain rfl := Except.ok.inj hresult'
      exact congrArg Except.error (Except.error.inj h)

end Abacus
