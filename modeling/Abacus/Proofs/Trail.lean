import Mathlib.Order.Lattice.Nat
import Abacus.Proofs.Lexing
import Abacus.Proofs.Safety

/-!
# The records of an explanation

A lax scan records the characters that it passes over, as far as it gets. Then the reduction records
the operands that it drops, and at last the fault is recorded, if there is one. Nothing else is.
-/

namespace Abacus

/-! ## Characters that are passed over -/

/-- The characters without a meaning, each with its position. -/
def strangers (cs : List Char) : List (Char × Nat) := cs.zipIdx.filter (·.1 ∉ alphabet)

/-- A lax scan gets to the first place where the text closes too much, or to the end. -/
def ScannedTo (cs : List Char) (n : Nat) : Prop :=
  IsLeast {k | Overclosed cs k} n ∨ n = cs.length ∧ ∀ k, ¬ Overclosed cs k

theorem strangers_concat (cs : List Char) (c : Char) :
    strangers (cs ++ [c]) = strangers cs ++ if c ∈ alphabet then [] else [(c, cs.length)] := by
  rw [strangers, List.zipIdx_append, List.filter_append]
  by_cases hc : c ∈ alphabet <;> simp [strangers, hc]

namespace Scan

variable {strict : Bool} {s s' : Scan} {c : Char}

/-- A character is kept in mind if it is not in the alphabet, which a strict scan takes as a fault. -/
theorem skipped_step (h : s.step strict c = .ok s') :
    c ∈ alphabet ∧ s'.skipped = s.skipped ∨
      strict = false ∧ c ∉ alphabet ∧ s'.skipped = (c, s.position) :: s.skipped := by
  cases takes_of_step h with
  | number hc => exact .inl ⟨mem_alphabet_of_isNumberChar hc, rfl⟩
  | operator op hc => exact .inl ⟨mem_alphabet_of_operator hc, flush_skipped s⟩
  | leftParen hc => exact .inl ⟨hc ▸ by decide, flush_skipped s⟩
  | rightParen depth hc hdepth => exact .inl ⟨hc ▸ by decide, flush_skipped s⟩
  | layout hc hlayout => exact .inl ⟨(mem_alphabet_iff c).mpr (.inr hlayout), flush_skipped s⟩
  | stranger hc hlayout hstrict =>
    exact .inr ⟨by simpa using hstrict, by simp [mem_alphabet_iff, hc, hlayout], rfl⟩

/-- All that is known of a part that the scan has got through. -/
theorem follows_of_ok {cs : List Char} (h : cs.foldlM (step strict) {} = .ok s) :
    Follows strict cs s := by
  rcases follows_run strict cs with ⟨s', hs', hfollows⟩ | ⟨p, -, -, herr⟩ | ⟨q, c, -, -, -, -, herr⟩
  · obtain rfl := Except.ok.inj (hs'.symm.trans h)
    exact hfollows
  · cases herr.symm.trans h
  · cases herr.symm.trans h

/-- A lax scan that has got through a part keeps the strangers in it in mind. -/
theorem skipped_foldlM {cs : List Char} {s : Scan} (h : cs.foldlM (step false) {} = .ok s) :
    s.skipped.reverse = strangers cs := by
  refine foldlM_history (fun cs s => s.skipped.reverse = strangers cs) rfl ?_ h
  intro cs s₁ c s₂ hs₁ ih hstep
  rw [strangers_concat, ← ih]
  rcases skipped_step hstep with ⟨hc, hskipped⟩ | ⟨-, hc, hskipped⟩
  · rw [hskipped, if_pos hc, List.append_nil]
  · rw [hskipped, if_neg hc, List.reverse_cons, (follows_of_ok hs₁).position]

/-- The scan of a text goes on where the scan of its first part has ended. -/
theorem run_append (first rest : List Char) {s : Scan}
    (h : first.foldlM (step strict) s = .ok s') :
    s.run strict (first ++ rest) = s'.run strict rest := by
  induction first generalizing s with
  | nil =>
    obtain rfl := Except.ok.inj h
    rfl
  | cons c first ih =>
    rw [List.foldlM_cons] at h
    obtain ⟨s₁, hstep, hrest⟩ := bind_eq_ok h
    rw [List.cons_append, run, hstep]
    exact ih hrest

/-- The part that a lax scan gets through has no fault in it. -/
theorem exists_scanned {cs : List Char} {n : Nat} (h : ScannedTo cs n) :
    ∃ s, (cs.take n).foldlM (step false) {} = .ok s := by
  have hnone : ∀ k, ¬ Overclosed (cs.take n) k := by
    intro k hk
    have hlt : k < (cs.take n).length := hk.1
    have hcs : Overclosed cs k := by
      rw [← overclosed_append (cs.drop n) hlt, List.take_append_drop] at hk
      exact hk
    rcases h with hleast | ⟨-, hnone⟩
    · have hle := hleast.2 hcs
      rw [List.length_take] at hlt
      omega
    · exact hnone k hcs
  rcases follows_run false (cs.take n) with ⟨s, hs, -⟩ | ⟨p, hp, -, -⟩ | ⟨q, c, -, -, hstrict, -, -⟩
  · exact ⟨s, hs⟩
  · exact absurd hp.1 (hnone p)
  · cases hstrict

/-- What a lax scan has not got through starts with a fault, or there is nothing left. -/
theorem records_scanned {cs : List Char} {n : Nat} (h : ScannedTo cs n) {s : Scan}
    (hs : (cs.take n).foldlM (step false) {} = .ok s) :
    (s.run false (cs.drop n)).records = s.records := by
  rcases h with hleast | ⟨rfl, -⟩
  · have hn : n < cs.length := hleast.1.1
    have hfollows := follows_of_ok hs
    rw [List.drop_eq_getElem_cons hn, run]
    rcases hfollows.step cs[n] with ⟨s', -, hnext⟩ | ⟨-, -, hstep⟩ | ⟨-, hstrict, -⟩
    · -- One character further the scan would have passed the place that closes too much.
      have hover := hnext.closes n
      rw [← List.take_succ_eq_append_getElem hn, ← overclosed_append (cs.drop (n + 1)),
        List.take_append_drop] at hover
      · exact absurd hleast.1 hover
      · rw [List.length_take]
        omega
    · rw [hstep]
    · cases hstrict
  · rw [List.drop_length]
    rfl

theorem records_run_strict (cs : List Char) (s : Scan) : (s.run true cs).records = s.records := by
  induction cs generalizing s with
  | nil => rfl
  | cons c cs ih =>
    unfold run
    cases hstep : s.step true c with
    | error fault => rfl
    | ok s' =>
      rcases skipped_step hstep with ⟨-, hskipped⟩ | ⟨hlax, -⟩
      · exact (ih s').trans (by simp only [records, hskipped])
      · cases hlax

end Scan

/-- A strict scan records nothing, and a lax one the strangers in the part that it gets through. -/
theorem scan_records (strict : Bool) (text : String) {n : Nat} (h : ScannedTo text.toList n) :
    (Token.scan strict text).records =
      (if strict then [] else strangers (text.toList.take n)).map fun (c, k) => .skipped c k := by
  cases strict with
  | true => exact Scan.records_run_strict text.toList {}
  | false =>
    obtain ⟨s, hs⟩ := Scan.exists_scanned h
    have hrun := Scan.run_append (text.toList.take n) (text.toList.drop n) hs
    rw [List.take_append_drop] at hrun
    rw [Token.scan, hrun, Scan.records_scanned h hs, Scan.records, Scan.skipped_foldlM hs]
    rfl

theorem exists_scannedTo (cs : List Char) : ∃ n, ScannedTo cs n := by
  by_cases hnone : ∀ k, ¬ Overclosed cs k
  · exact ⟨_, .inr ⟨rfl, hnone⟩⟩
  · rw [not_forall_not] at hnone
    exact ⟨_, .inl ⟨Nat.sInf_mem hnone, fun k hk => Nat.sInf_le hk⟩⟩

/-! ## Operands that are dropped -/

/-- The evaluation of the text comes to its end with these operands below the value, bottom first. -/
def Leaves (strictCharacters : Bool) (text : String) (operands : List Float) : Prop :=
  ∃ tokens postfixTokens m value, (Token.scan strictCharacters text).outcome = .ok tokens ∧
    Token.toPostfix tokens = .ok postfixTokens ∧ Machine.run {} postfixTokens = .ok m ∧
    m.stack = value :: operands.reverse

/-- Operands of a lax machine that are below its value are dropped, and nothing else is recorded. -/
theorem Machine.exists_dropped (strict : Bool) (m : Machine) :
    ∃ dropped? : Option (List Float),
      (m.finish strict).records = dropped?.toList.map .dropped ∧
      ∀ operands, dropped? = some operands ↔
        strict = false ∧ operands ≠ [] ∧ ∃ value, m.stack = value :: operands.reverse := by
  obtain ⟨stack, steps⟩ := m
  match stack with
  | [] => exact ⟨none, rfl, by simp⟩
  | [value] => exact ⟨none, by cases strict <;> rfl, by simp⟩
  | value :: next :: below =>
    cases strict with
    | true => exact ⟨none, rfl, by simp⟩
    | false =>
      refine ⟨some (next :: below).reverse, rfl, fun operands => ⟨?_, ?_⟩⟩
      · intro h
        obtain rfl := Option.some.inj h
        exact ⟨rfl, by simp, value, by rw [List.reverse_reverse]⟩
      · rintro ⟨-, -, value', hstack⟩
        rw [(List.cons.inj hstack).2, List.reverse_reverse]

theorem exists_dropped_reduce (strict : Bool) (tokens : List Token) :
    ∃ dropped? : Option (List Float),
      (Token.reduce strict tokens).records = dropped?.toList.map .dropped ∧
      ∀ operands, dropped? = some operands ↔ strict = false ∧ operands ≠ [] ∧
        ∃ m value, Machine.run {} tokens = .ok m ∧ m.stack = value :: operands.reverse := by
  cases hrun : Machine.run {} tokens with
  | error failure => exact ⟨none, by rw [reduce_of_error hrun]; rfl, by simp⟩
  | ok m =>
    rw [reduce_of_ok hrun, Traced.recover_fail_records]
    simpa using m.exists_dropped strict

namespace Calculator

theorem exists_dropped (strictOperands strictCharacters : Bool) (text : String) :
    ∃ dropped? : Option (List Float),
      ((standard strictOperands strictCharacters).evaluate text).records =
        (Token.scan strictCharacters text).records ++ dropped?.toList.map .dropped ∧
      ∀ operands, dropped? = some operands ↔
        strictOperands = false ∧ operands ≠ [] ∧ Leaves strictCharacters text operands := by
  rw [records_standard]
  cases hscan : (Token.scan strictCharacters text).outcome with
  | error fault => exact ⟨none, rfl, by simp [Leaves, hscan]⟩
  | ok tokens =>
    have hordered := toPostfix_eq tokens (isProper_of_scan hscan)
    obtain ⟨dropped?, hrecords, hdropped⟩ :=
      exists_dropped_reduce strictOperands (postfixFrom [] tokens)
    refine ⟨dropped?, congrArg _ hrecords, fun operands => ?_⟩
    simp [hdropped, Leaves, hscan, hordered]

/-! ## The fault -/

theorem exists_fault (strictOperands strictCharacters : Bool) (text : String) :
    ∃ (fault? : Option Fault) (o : Outcome),
      ((standard strictOperands strictCharacters).explain text).outcome = .ok o ∧
      ((standard strictOperands strictCharacters).attempt text).records =
        ((standard strictOperands strictCharacters).evaluate text).records ++
          fault?.toList.map (.noResult text) ∧
      (o.ok = true ↔ fault? = none) ∧ o.errorCode? = fault?.map Fault.code := by
  rw [explain_outcome, attempt_outcome, records_attempt]
  cases he : ((standard strictOperands strictCharacters).evaluate text).outcome with
  | ok e => exact ⟨none, _, rfl, rfl, iff_of_true rfl rfl, rfl⟩
  | error failure =>
    obtain ⟨fault, rfl, -⟩ := evaluate_fault he
    exact ⟨some fault, _, rfl, rfl, iff_of_false Bool.false_ne_true nofun, rfl⟩

end Calculator

/-! ## All records -/

/-- What an explanation records: characters, then operands, then the fault of the text. -/
def trail (text : String) (skipped : List (Char × Nat)) (dropped? : Option (List Float))
    (fault? : Option Fault) : List Record :=
  (skipped.map fun (c, k) => .skipped c k) ++ dropped?.toList.map .dropped ++
    fault?.toList.map (.noResult text)

/-- An explanation and a value leave the same trail, and an evaluation leaves it without the fault.
The trail ends with a fault if the outcome has its code, and only then. -/
theorem explain_trail (strictOperands strictCharacters : Bool) (text : String) :
    ∃ n skipped dropped? fault? o,
      ((Calculator.standard strictOperands strictCharacters).explain text).outcome = .ok o ∧
      ((Calculator.standard strictOperands strictCharacters).explain text).records =
        trail text skipped dropped? fault? ∧
      ((Calculator.standard strictOperands strictCharacters).value? text).records =
        trail text skipped dropped? fault? ∧
      ((Calculator.standard strictOperands strictCharacters).evaluate text).records =
        trail text skipped dropped? none ∧
      ScannedTo text.toList n ∧
      skipped = (if strictCharacters then [] else strangers (text.toList.take n)) ∧
      (∀ operands, dropped? = some operands ↔
        strictOperands = false ∧ operands ≠ [] ∧ Leaves strictCharacters text operands) ∧
      (o.ok = true ↔ fault? = none) ∧ o.errorCode? = fault?.map Fault.code ∧
      ∀ r ∈ trail text skipped dropped? fault?, r.level = .debug := by
  obtain ⟨n, hn⟩ := exists_scannedTo text.toList
  obtain ⟨dropped?, hevaluate, hdropped⟩ :=
    Calculator.exists_dropped strictOperands strictCharacters text
  obtain ⟨fault?, o, houtcome, hattempt, hok, hcode⟩ :=
    Calculator.exists_fault strictOperands strictCharacters text
  rw [scan_records strictCharacters text hn] at hevaluate
  rw [hevaluate] at hattempt
  refine ⟨n, _, dropped?, fault?, o, houtcome, ?_, ?_, ?_, hn, rfl, hdropped, hok, hcode, ?_⟩
  · rw [Calculator.records_explain, hattempt, trail]
  · rw [Calculator.records_value?, hattempt, trail]
  · rw [hevaluate, trail]
    exact (List.append_nil _).symm
  · intro r hr
    simp only [trail, List.mem_append, List.mem_map] at hr
    rcases hr with (⟨_, -, rfl⟩ | ⟨_, -, rfl⟩) | ⟨_, -, rfl⟩ <;> rfl

example : (Calculator.lax.explain "a1 2)b").records =
    [.skipped 'a' 0, .noResult "a1 2)b" (.unexpectedClose 4)] := by decide +kernel

end Abacus
