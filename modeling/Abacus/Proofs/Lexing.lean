import Mathlib.Order.Bounds.Basic
import Abacus.Proofs.Codes
import Abacus.Proofs.Spelling

/-!
# What a scan finds

The first faulty character decides how a scan fails, and a text without one fails only for its open
parentheses. In all other texts a scan finds the longest runs of digits and points, the operators
and the parentheses, each at its place.
-/

namespace Abacus

/-! ## Places in a text -/

/-- All characters that have a meaning, and layout. -/
def alphabet : List Char := "0123456789.+-*/() \t\r\n".toList

/-- Up to the character at `n`, and with it, one parenthesis more is closed than opened. -/
def Overclosed (cs : List Char) (n : Nat) : Prop :=
  n < cs.length ∧ (cs.take (n + 1)).count ')' = (cs.take (n + 1)).count '(' + 1

def Unrecognized (cs : List Char) (n : Nat) : Prop := ∃ c ∈ cs[n]?, c ∉ alphabet

/-- The lexeme stands at `n`; a numeral has no more digits and points around it. -/
def Found (cs : List Char) (n : Nat) (l : Lexeme) : Prop :=
  ∃ before after, cs = before ++ l.chars ++ after ∧ before.length = n ∧
    (l.isNumeral →
      (∀ c ∈ before.getLast?, ¬ isNumberChar c) ∧ ∀ c ∈ after.head?, ¬ isNumberChar c)

/-- All lexemes of a text with their places, from left to right. -/
structure Lexing (cs : List Char) (placed : List (Nat × Lexeme)) : Prop where
  ordered : placed.Pairwise fun a b => a.1 < b.1
  complete : ∀ n l, (n, l) ∈ placed ↔ Found cs n l

/-! ## Characters -/

theorem isNumberChar_of_meaningless {c : Char} (h : isMeaningful c = false) :
    isNumberChar c = false := by
  simp only [isMeaningful, Bool.or_eq_false_iff] at h
  exact h.1.1.1

theorem count_paren_of_meaningless {c : Char} (h : isMeaningful c = false) :
    [c].count ')' = [c].count '(' := by
  have hleft : c ≠ '(' := by rintro rfl; cases h
  have hright : c ≠ ')' := by rintro rfl; cases h
  simp [hleft, hright]

theorem mem_alphabet_of_isNumberChar {c : Char} (h : isNumberChar c) : c ∈ alphabet := by
  have hsmall : c.toNat < 58 := by
    simp only [isNumberChar, Bool.or_eq_true, Bool.and_eq_true, decide_eq_true_eq, beq_iff_eq] at h
    rcases h with ⟨-, hhigh⟩ | rfl
    · exact Nat.lt_succ_of_le hhigh
    · decide
  have hlist : ∀ n < 58, isNumberChar (Char.ofNat n) → Char.ofNat n ∈ alphabet := by decide
  have := hlist c.toNat hsmall
  rw [Char.ofNat_toNat] at this
  exact this h

theorem mem_alphabet_of_operator {op : Operator} {c : Char} (h : op.symbol.toList = [c]) :
    c ∈ alphabet := by
  cases op <;> simp [Operator.symbol] at h <;> subst h <;> decide

theorem mem_alphabet_iff (c : Char) : c ∈ alphabet ↔ isMeaningful c ∨ isLayout c := by
  constructor
  · intro hc
    have hlist : alphabet.all (fun c => isMeaningful c || isLayout c) = true := by decide
    simpa using List.all_eq_true.mp hlist c hc
  · rintro (hmeaning | hlayout)
    · rcases char_cases c with hc | ⟨op, hc⟩ | rfl | rfl | hc
      · exact mem_alphabet_of_isNumberChar hc
      · exact mem_alphabet_of_operator hc
      · decide
      · decide
      · simp [hc] at hmeaning
    · simp only [isLayout, Bool.or_eq_true, beq_iff_eq] at hlayout
      rcases hlayout with ((rfl | rfl) | rfl) | rfl <;> decide

namespace Lexeme

theorem chars_ne_nil (l : Lexeme) : l.chars ≠ [] := by
  cases l with
  | numeral n => exact n.nonempty
  | operator op => cases op <;> decide
  | leftParen => decide
  | rightParen => decide

theorem chars_numeric {l : Lexeme} (h : l.isNumeral) : ∀ c ∈ l.chars, isNumberChar c := by
  cases l with
  | numeral n => exact n.numeric
  | operator op => simp [isNumeral] at h
  | leftParen => simp [isNumeral] at h
  | rightParen => simp [isNumeral] at h

theorem chars_symbol {l : Lexeme} (h : l.isNumeral = false) :
    ∃ c, l.chars = [c] ∧ isNumberChar c = false ∧ isMeaningful c := by
  cases l with
  | numeral n => simp [isNumeral] at h
  | operator op => cases op <;> exact ⟨_, rfl, by decide, by decide⟩
  | leftParen => exact ⟨_, rfl, by decide, by decide⟩
  | rightParen => exact ⟨_, rfl, by decide, by decide⟩

theorem isNumeral_eq {l : Lexeme} (c : Char) (h : c ∈ l.chars) : l.isNumeral = isNumberChar c := by
  cases hl : l.isNumeral with
  | true => exact (chars_numeric hl c h).symm
  | false =>
    obtain ⟨d, hd, hnot, -⟩ := chars_symbol hl
    obtain rfl : c = d := by simpa [hd] using h
    exact hnot.symm

theorem chars_concat (l : Lexeme) : ∃ chars c, l.chars = chars ++ [c] :=
  (List.eq_nil_or_concat' l.chars).resolve_left l.chars_ne_nil

theorem chars_meaningful {l : Lexeme} {c : Char} (h : c ∈ l.chars) : isMeaningful c := by
  cases hl : l.isNumeral with
  | true => simp [isMeaningful, chars_numeric hl c h]
  | false =>
    obtain ⟨d, hd, -, hmeaning⟩ := chars_symbol hl
    obtain rfl : c = d := by simpa [hd] using h
    exact hmeaning

theorem chars_injective {l l' : Lexeme} (h : l.chars = l'.chars) : l = l' := by
  have hsame : l.isNumeral = l'.isNumeral := by
    obtain ⟨chars, c, hc⟩ := l.chars_concat
    rw [isNumeral_eq c (by simp [hc]), isNumeral_eq c (by simp [← h, hc])]
  rcases l with ⟨chars, _, _⟩ | (_ | _ | _ | _) | _ | _ <;>
    rcases l' with ⟨chars', _, _⟩ | (_ | _ | _ | _) | _ | _ <;>
    simp_all [Lexeme.chars, isNumeral, Operator.symbol]

end Lexeme

/-! ## A longer text -/

section
variable {cs : List Char} {c : Char} {n : Nat} {l : Lexeme}

theorem overclosed_append (rest : List Char) (hn : n < cs.length) :
    Overclosed (cs ++ rest) n ↔ Overclosed cs n := by
  unfold Overclosed
  rw [List.take_append_of_le_length hn, List.length_append]
  exact and_congr_left fun _ => by omega

theorem overclosed_concat :
    Overclosed (cs ++ [c]) cs.length ↔ (cs ++ [c]).count ')' = (cs ++ [c]).count '(' + 1 := by
  unfold Overclosed
  rw [List.take_of_length_le (by simp)]
  exact and_iff_right (by simp)

/-- A first place stays the first in a longer text if places depend on the text up to them alone. -/
theorem isLeast_append {P : List Char → Nat → Prop} {rest : List Char}
    (hP : ∀ k < cs.length, (P (cs ++ rest) k ↔ P cs k)) (hn : n < cs.length)
    (h : IsLeast {k | P cs k} n) : IsLeast {k | P (cs ++ rest) k} n := by
  refine ⟨(hP n hn).mpr h.1, fun k hk => ?_⟩
  by_contra hlt
  exact hlt (h.2 ((hP k (by omega)).mp hk))

theorem isLeast_concat {P : List Char → Nat → Prop}
    (hP : ∀ k < cs.length, (P (cs ++ [c]) k ↔ P cs k)) (hnone : ∀ k, ¬ P cs k)
    (hlast : P (cs ++ [c]) cs.length) : IsLeast {k | P (cs ++ [c]) k} cs.length := by
  refine ⟨hlast, fun k hk => ?_⟩
  by_contra hlt
  exact hnone k ((hP k (by omega)).mp hk)

theorem unrecognized_append (rest : List Char) (hn : n < cs.length) :
    Unrecognized (cs ++ rest) n ↔ Unrecognized cs n := by
  unfold Unrecognized
  rw [List.getElem?_append_left hn]

theorem unrecognized_concat : Unrecognized (cs ++ [c]) cs.length ↔ c ∉ alphabet := by
  simp [Unrecognized]

theorem Found.lt_length (h : Found cs n l) : n < cs.length := by
  obtain ⟨before, after, rfl, rfl, -⟩ := h
  have := List.length_pos_of_ne_nil l.chars_ne_nil
  simp only [List.length_append]
  omega

/-- A character that is no part of a number leaves alone what was found before it. -/
theorem found_concat_iff (hc : isNumberChar c = false) :
    Found (cs ++ [c]) n l ↔ Found cs n l ∨ n = cs.length ∧ l.chars = [c] := by
  constructor
  · rintro ⟨before, after, hcs, rfl, hmax⟩
    rcases List.eq_nil_or_concat' after with rfl | ⟨after, d, rfl⟩
    · obtain ⟨chars, d, hd⟩ := l.chars_concat
      rw [List.append_nil, hd, ← List.append_assoc] at hcs
      obtain ⟨rfl, hlast⟩ := List.append_inj' hcs rfl
      obtain rfl : c = d := by simpa using hlast
      have hsymbol : l.isNumeral = false := by rw [Lexeme.isNumeral_eq c (by simp [hd]), hc]
      obtain ⟨d, hsingle, -⟩ := Lexeme.chars_symbol hsymbol
      rw [hd] at hsingle
      obtain ⟨rfl, -⟩ := List.append_inj' (hsingle.trans (List.nil_append _).symm) rfl
      exact .inr ⟨by simp, hd⟩
    · rw [← List.append_assoc] at hcs
      obtain ⟨rfl, -⟩ := List.append_inj' hcs rfl
      refine .inl ⟨before, after, rfl, rfl, fun hl => ⟨(hmax hl).1, fun e he => ?_⟩⟩
      exact (hmax hl).2 e (by simp [List.head?_append, Option.mem_def.mp he])
  · rintro (⟨before, after, rfl, rfl, hmax⟩ | ⟨rfl, hl⟩)
    · refine ⟨before, after ++ [c], by simp, rfl, fun hl => ⟨(hmax hl).1, fun e he => ?_⟩⟩
      cases after with
      | nil =>
        obtain rfl : c = e := by simpa using he
        simp [hc]
      | cons d after => exact (hmax hl).2 e he
    · refine ⟨cs, [], by simp [hl], rfl, fun hnumeral => ?_⟩
      rw [Lexeme.isNumeral_eq c (by simp [hl]), hc] at hnumeral
      cases hnumeral

theorem run_eq_nil {front run : List Char} (hlast : ∀ d ∈ (front ++ run).getLast?, ¬ isNumberChar d)
    (hrun : ∀ d ∈ run, isNumberChar d) : run = [] := by
  rcases List.eq_nil_or_concat' run with rfl | ⟨run, d, rfl⟩
  · rfl
  · exact absurd (hrun d (by simp)) (hlast d (by simp [← List.append_assoc]))

/-- Only one place can be the start of the run of digits and points that a text ends with. -/
theorem run_unique {front run front' run' : List Char}
    (hfront : ∀ d ∈ front.getLast?, ¬ isNumberChar d) (hrun : ∀ d ∈ run, isNumberChar d)
    (hfront' : ∀ d ∈ front'.getLast?, ¬ isNumberChar d) (hrun' : ∀ d ∈ run', isNumberChar d)
    (h : front ++ run = front' ++ run') : front = front' ∧ run = run' := by
  rcases List.append_eq_append_iff.mp h with ⟨middle, rfl, rfl⟩ | ⟨middle, rfl, rfl⟩
  · rw [run_eq_nil hfront' fun d hd => hrun d (List.mem_append_left _ hd)]
    simp
  · rw [run_eq_nil hfront fun d hd => hrun' d (List.mem_append_left _ hd)]
    simp

/-- A run of digits and points behind a text that ends with neither is one numeral more. -/
theorem found_numeral_iff (hcs : ∀ d ∈ cs.getLast?, ¬ isNumberChar d) (numeral : Numeral) :
    Found (cs ++ numeral.chars) n l ↔ Found cs n l ∨ n = cs.length ∧ l = .numeral numeral := by
  constructor
  · rintro ⟨before, after, heq, rfl, hmax⟩
    rcases List.append_eq_append_iff.mp heq with ⟨more, hmore, hrest⟩ | ⟨more, rfl, rfl⟩
    · rcases List.eq_nil_or_concat' more with rfl | ⟨more, d, rfl⟩
      · exact .inl ⟨before, [], by simpa using hmore.symm, rfl, fun hl => ⟨(hmax hl).1, by simp⟩⟩
      have hnumeric : ∀ e ∈ more ++ [d] ++ after, isNumberChar e := hrest ▸ numeral.numeric
      have hl : l.isNumeral := by
        obtain ⟨chars, e, he⟩ := l.chars_concat
        rw [he, ← List.append_assoc, ← List.append_assoc] at hmore
        obtain rfl : e = d := by simpa using (List.append_inj' hmore rfl).2
        rw [Lexeme.isNumeral_eq e (by simp [he]), hnumeric e (by simp)]
      have hafter : after = [] := by
        cases after with
        | nil => rfl
        | cons e after => exact absurd (hnumeric e (by simp)) ((hmax hl).2 e rfl)
      subst hafter
      obtain ⟨rfl, hchars⟩ := run_unique (hmax hl).1 (Lexeme.chars_numeric hl) hcs numeral.numeric
        (by rw [heq, List.append_nil])
      exact .inr ⟨rfl, Lexeme.chars_injective hchars⟩
    · refine .inl ⟨before, more, rfl, rfl, fun hl => ⟨(hmax hl).1, fun e he => ?_⟩⟩
      exact (hmax hl).2 e (by simp [List.head?_append, Option.mem_def.mp he])
  · rintro (⟨before, after, rfl, rfl, hmax⟩ | ⟨rfl, rfl⟩)
    · refine ⟨before, after ++ numeral.chars, by simp, rfl, fun hl => ⟨(hmax hl).1, fun e he => ?_⟩⟩
      cases after with
      | nil =>
        have hnil := run_eq_nil (by simpa using hcs) (Lexeme.chars_numeric hl)
        exact absurd hnil l.chars_ne_nil
      | cons d after => exact (hmax hl).2 e he
    · exact ⟨cs, [], by simp [Lexeme.chars], rfl, fun _ => ⟨hcs, by simp⟩⟩

theorem Lexing.concat {cs' : List Char} {placed : List (Nat × Lexeme)} (h : Lexing cs placed)
    (hfound : ∀ k l', Found cs' k l' ↔ Found cs k l' ∨ k = cs.length ∧ l' = l) :
    Lexing cs' (placed ++ [(cs.length, l)]) where
  ordered := by
    refine List.pairwise_append.mpr ⟨h.ordered, List.pairwise_singleton _ _, ?_⟩
    rintro ⟨k, l'⟩ hmem b hb
    obtain rfl := List.mem_singleton.mp hb
    exact ((h.complete k l').mp hmem).lt_length
  complete := by
    intro k l'
    rw [hfound, List.mem_append, h.complete, List.mem_singleton, Prod.mk.injEq]

theorem Lexing.symbol {placed : List (Nat × Lexeme)} (h : Lexing cs placed)
    (hl : l.isNumeral = false) (hc : l.chars = [c]) :
    Lexing (cs ++ [c]) (placed ++ [(cs.length, l)]) := by
  have hnot : isNumberChar c = false := by
    rw [← Lexeme.isNumeral_eq (l := l) c (by simp [hc]), hl]
  refine h.concat fun k l' => ?_
  rw [found_concat_iff hnot]
  refine or_congr_right (and_congr_right fun _ => ⟨fun h => ?_, fun h => h ▸ hc⟩)
  exact Lexeme.chars_injective (h.trans hc.symm)

theorem Lexing.gap {placed : List (Nat × Lexeme)} (h : Lexing cs placed)
    (hc : isMeaningful c = false) : Lexing (cs ++ [c]) placed where
  ordered := h.ordered
  complete := by
    have hnot := isNumberChar_of_meaningless hc
    intro k l'
    rw [h.complete, found_concat_iff hnot]
    refine (or_iff_left ?_).symm
    rintro ⟨-, hchars⟩
    have := Lexeme.chars_meaningful (l := l') (c := c) (by simp [hchars])
    simp [hc] at this

end

namespace Scan

/-! ## The scan of a part -/

/-- The scan stands behind these characters, and none of them was a fault. -/
structure Follows (strict : Bool) (cs : List Char) (s : Scan) : Prop where
  position : s.position = cs.length
  depth : s.depth + cs.count ')' = cs.count '('
  closes : ∀ n, ¬ Overclosed cs n
  recognizes : strict → ∀ n, ¬ Unrecognized cs n
  numeric : ∀ c ∈ s.buffer, isNumberChar c
  /-- All but the run of digits and points at the end has been turned into tokens. -/
  lexes : ∃ front placed, cs = front ++ s.buffer.reverse ∧
    (∀ c ∈ front.getLast?, ¬ isNumberChar c) ∧ Lexing front placed ∧
    s.tokens = (placed.map (·.2.token)).reverse

theorem follows_start (strict : Bool) : Follows strict [] {} where
  position := rfl
  depth := rfl
  closes := by simp [Overclosed]
  recognizes := by simp [Unrecognized]
  numeric := by simp
  lexes := ⟨[], [], rfl, by simp, ⟨by simp, by simp [Found, Lexeme.chars_ne_nil]⟩, rfl⟩

variable {strict : Bool} {cs : List Char} {c : Char} {s s' : Scan}

theorem Follows.flush (h : Follows strict cs s) :
    ∃ placed, Lexing cs placed ∧ s.flush.tokens = (placed.map (·.2.token)).reverse := by
  obtain ⟨front, placed, rfl, hfront, hlexing, htokens⟩ := h.lexes
  unfold Scan.flush
  split
  · rename_i hbuffer
    exact ⟨placed, by simpa [hbuffer] using hlexing, htokens⟩
  · rename_i hne
    let numeral : Numeral := ⟨s.buffer.reverse, by simpa using hne, by simpa using h.numeric⟩
    refine ⟨placed ++ [(front.length, .numeral numeral)], ?_, ?_⟩
    · exact hlexing.concat fun k l => found_numeral_iff hfront numeral
    · simp [htokens, Lexeme.token, Numeral.value, numeral]

/-- What one more character has to add. -/
theorem Follows.extend (h : Follows strict cs s) (hposition : s'.position = s.position + 1)
    (hdepth : s'.depth + (cs ++ [c]).count ')' = (cs ++ [c]).count '(')
    (hknown : strict → c ∈ alphabet) (hnumeric : ∀ d ∈ s'.buffer, isNumberChar d)
    (hlexes : ∃ front placed, cs ++ [c] = front ++ s'.buffer.reverse ∧
      (∀ d ∈ front.getLast?, ¬ isNumberChar d) ∧ Lexing front placed ∧
      s'.tokens = (placed.map (·.2.token)).reverse) : Follows strict (cs ++ [c]) s' where
  position := by rw [hposition, h.position, List.length_append, List.length_singleton]
  depth := hdepth
  closes := by
    intro n hn
    rcases Nat.lt_or_ge n cs.length with hlt | hge
    · exact h.closes n ((overclosed_append [c] hlt).mp hn)
    · obtain rfl : n = cs.length := by
        have := hn.1
        simp only [List.length_append, List.length_singleton] at this
        omega
      have := overclosed_concat.mp hn
      omega
  recognizes := by
    intro hstrict n hn
    rcases Nat.lt_or_ge n cs.length with hlt | hge
    · exact h.recognizes hstrict n ((unrecognized_append [c] hlt).mp hn)
    · obtain rfl : n = cs.length := by
        obtain ⟨d, hd, -⟩ := hn
        have := (List.getElem?_eq_some_iff.mp hd).1
        simp only [List.length_append, List.length_singleton] at this
        omega
      exact unrecognized_concat.mp hn (hknown hstrict)
  numeric := hnumeric
  lexes := hlexes

theorem Follows.number (h : Follows strict cs s) (hc : isNumberChar c) :
    Follows strict (cs ++ [c]) { s.advance with buffer := c :: s.buffer } := by
  obtain ⟨front, placed, hcs, hfront, hlexing, htokens⟩ := h.lexes
  have hleft : c ≠ '(' := by rintro rfl; cases hc
  have hright : c ≠ ')' := by rintro rfl; cases hc
  have hdepth := h.depth
  refine h.extend rfl ?_ (fun _ => mem_alphabet_of_isNumberChar hc) ?_
    ⟨front, placed, by simp [hcs], hfront, hlexing, htokens⟩
  · simp only [List.count_append, List.count_singleton]
    simpa [hleft, hright, advance] using hdepth
  · exact List.forall_mem_cons.mpr ⟨hc, h.numeric⟩

/-- A character that is no part of a number may have the token of a lexeme. -/
theorem Follows.other (h : Follows strict cs s) (hc : isNumberChar c = false)
    (hknown : strict → c ∈ alphabet) (hposition : s'.position = s.position + 1)
    (hbuffer : s'.buffer = [])
    (hdepth : s'.depth + [c].count ')' = s.depth + [c].count '(')
    (htokens : isMeaningful c = false ∧ s'.tokens = s.flush.tokens ∨
      ∃ l : Lexeme, l.chars = [c] ∧ s'.tokens = l.token :: s.flush.tokens) :
    Follows strict (cs ++ [c]) s' := by
  obtain ⟨placed, hlexing, hflush⟩ := h.flush
  have hbefore := h.depth
  refine h.extend hposition ?_ hknown (by simp [hbuffer]) ?_
  · simp only [List.count_append]
    omega
  have hlast : ∀ d ∈ (cs ++ [c]).getLast?, ¬ isNumberChar d := by simp [hc]
  rcases htokens with ⟨hmeaning, htokens⟩ | ⟨l, hl, htokens⟩
  · exact ⟨_, placed, by simp [hbuffer], hlast, hlexing.gap hmeaning, by rw [htokens, hflush]⟩
  · have hsymbol : l.isNumeral = false := by rw [Lexeme.isNumeral_eq c (by simp [hl]), hc]
    exact ⟨_, _, by simp [hbuffer], hlast, hlexing.symbol hsymbol hl, by simp [htokens, hflush]⟩

theorem Follows.takes (h : Follows strict cs s) (htakes : s.Takes strict c s') :
    Follows strict (cs ++ [c]) s' := by
  cases htakes with
  | number hc => exact h.number hc
  | operator op hc =>
    have hsymbol : isNumberChar c = false :=
      (Lexeme.isNumeral_eq (l := .operator op) c (by simp [Lexeme.chars, hc])).symm
    have hcount : [c].count ')' = [c].count '(' := by
      cases op <;> simp [Operator.symbol] at hc <;> subst hc <;> rfl
    exact h.other hsymbol (fun _ => mem_alphabet_of_operator hc) (by simp [advance, push])
      (flush_buffer s) (by simp [advance, hcount]) (.inr ⟨.operator op, hc, rfl⟩)
  | leftParen hc =>
    subst hc
    exact h.other rfl (fun _ => by decide) (by simp [advance, push]) (flush_buffer s) (by simp)
      (.inr ⟨.leftParen, rfl, rfl⟩)
  | rightParen depth hc hdepth =>
    subst hc
    exact h.other rfl (fun _ => by decide) (by simp [advance, push]) (flush_buffer s)
      (by simp [hdepth]) (.inr ⟨.rightParen, rfl, rfl⟩)
  | layout hc hlayout =>
    exact h.other (isNumberChar_of_meaningless hc)
      (fun _ => (mem_alphabet_iff c).mpr (.inr hlayout)) (by simp [advance]) (flush_buffer s)
      (by simp [advance, count_paren_of_meaningless hc]) (.inl ⟨hc, rfl⟩)
  | stranger hc hlayout hstrict =>
    exact h.other (isNumberChar_of_meaningless hc) (fun hs => absurd hs hstrict)
      (by simp [advance]) (flush_buffer s) (by simp [advance, count_paren_of_meaningless hc])
      (.inl ⟨hc, rfl⟩)

/-- A character either takes the scan one further or is the first fault of the text. -/
theorem Follows.step (h : Follows strict cs s) (c : Char) :
    (∃ s', s.step strict c = .ok s' ∧ Follows strict (cs ++ [c]) s') ∨
      c = ')' ∧ Overclosed (cs ++ [c]) cs.length ∧
        s.step strict c = .error (.unexpectedClose cs.length) ∨
      c ∉ alphabet ∧ strict ∧ ¬ Overclosed (cs ++ [c]) cs.length ∧
        s.step strict c = .error (.unrecognized c cs.length) := by
  have hbefore := h.depth
  cases hstep : s.step strict c with
  | ok s' => exact .inl ⟨s', rfl, h.takes (takes_of_step hstep)⟩
  | error fault =>
    rw [← h.position]
    cases refuses_of_step hstep with
    | close hc hdepth =>
      refine .inr (.inl ⟨hc, ?_, rfl⟩)
      rw [h.position, overclosed_concat, hc, List.count_append, List.count_append]
      simp
      omega
    | stranger hc hlayout hstrict =>
      refine .inr (.inr ⟨by simp [mem_alphabet_iff, hc, hlayout], hstrict, ?_, rfl⟩)
      have hcount := count_paren_of_meaningless hc
      rw [h.position, overclosed_concat, List.count_append, List.count_append]
      omega

/-- A scan gets through or stops at the first fault of the text. -/
theorem follows_run (strict : Bool) (cs : List Char) :
    (∃ s, cs.foldlM (Scan.step strict) {} = .ok s ∧ Follows strict cs s) ∨
      (∃ p, IsLeast {n | Overclosed cs n} p ∧ (strict → ∀ q ≤ p, ¬ Unrecognized cs q) ∧
        cs.foldlM (Scan.step strict) {} = .error (.unexpectedClose p)) ∨
      ∃ q c, IsLeast {n | Unrecognized cs n} q ∧ cs[q]? = some c ∧ strict ∧
        (∀ p ≤ q, ¬ Overclosed cs p) ∧
        cs.foldlM (Scan.step strict) {} = .error (.unrecognized c q) := by
  induction cs using List.reverseRecOn with
  | nil => exact .inl ⟨{}, rfl, follows_start strict⟩
  | append_singleton cs c ih =>
    rw [List.foldlM_append]
    rcases ih with ⟨s, hs, h⟩ | ⟨p, hp, hq, hs⟩ | ⟨q, d, hq, hd, hstrict, hp, hs⟩
    · rw [hs, ok_bind, List.foldlM_cons]
      rcases h.step c with ⟨s', hstep, h'⟩ | ⟨rfl, hover, hstep⟩ | ⟨hc, hstrict, hover, hstep⟩
      · exact .inl ⟨s', by rw [hstep]; rfl, h'⟩
      · refine .inr (.inl ⟨cs.length, ?_, ?_, by rw [hstep]; rfl⟩)
        · exact isLeast_concat (fun n hn => overclosed_append _ hn) h.closes hover
        · intro hstrict q hq hunrecognized
          rcases Nat.lt_or_eq_of_le hq with hlt | rfl
          · exact h.recognizes hstrict q ((unrecognized_append _ hlt).mp hunrecognized)
          · exact unrecognized_concat.mp hunrecognized (by decide)
      · refine .inr (.inr ⟨cs.length, c, ?_, by simp, hstrict, ?_, by rw [hstep]; rfl⟩)
        · exact isLeast_concat (fun n hn => unrecognized_append _ hn) (h.recognizes hstrict)
            (unrecognized_concat.mpr hc)
        · intro p hp hoverclosed
          rcases Nat.lt_or_eq_of_le hp with hlt | rfl
          · exact h.closes p ((overclosed_append _ hlt).mp hoverclosed)
          · exact hover hoverclosed
    · have hlt : p < cs.length := hp.1.1
      refine .inr (.inl ⟨p, ?_, ?_, by rw [hs]; rfl⟩)
      · exact isLeast_append (fun n hn => overclosed_append _ hn) hlt hp
      · intro hstrict q hle
        rw [unrecognized_append _ (by omega)]
        exact hq hstrict q hle
    · have hlt : q < cs.length := (List.getElem?_eq_some_iff.mp hd).1
      refine .inr (.inr ⟨q, d, ?_, ?_, hstrict, ?_, by rw [hs]; rfl⟩)
      · exact isLeast_append (fun n hn => unrecognized_append _ hn) hlt hq
      · rw [List.getElem?_append_left hlt, hd]
      · intro p hle
        rw [overclosed_append _ (by omega)]
        exact hp p hle

end Scan

/-! ## A whole text -/

def FailsWith {α : Type} (outcome : Except Fault α) (kind : FaultKind) (message : String) : Prop :=
  ∃ fault, outcome = .error fault ∧ fault.kind = kind ∧ fault.message = message

theorem scan_outcome (strict : Bool) (text : String) :
    (Token.scan strict text).outcome =
      text.toList.foldlM (Scan.step strict) {} >>= Scan.finish :=
  Scan.run_outcome strict {} text.toList

variable {strict : Bool} {text : String}

theorem scan_unrecognized {q : Nat} (hstrict : strict)
    (hq : IsLeast {n | Unrecognized text.toList n} q) (hp : ∀ p < q, ¬ Overclosed text.toList p) :
    ∃ c ∈ text.toList[q]?, (Token.scan strict text).outcome = .error (.unrecognized c q) := by
  rw [scan_outcome]
  rcases Scan.follows_run strict text.toList with
    ⟨s, -, h⟩ | ⟨p, hover, hnone, -⟩ | ⟨q', c, hq', hc, -, -, hrun⟩
  · exact absurd hq.1 (h.recognizes hstrict q)
  · have hlt : ¬ q ≤ p := fun hle => hnone hstrict q hle hq.1
    exact absurd hover.1 (hp p (by omega))
  · obtain rfl := hq.unique hq'
    exact ⟨c, hc, by rw [hrun, error_bind]⟩

theorem scan_overclosed {p : Nat} (hp : IsLeast {n | Overclosed text.toList n} p)
    (hq : strict → ∀ q < p, ¬ Unrecognized text.toList q) :
    (Token.scan strict text).outcome = .error (.unexpectedClose p) := by
  rw [scan_outcome]
  rcases Scan.follows_run strict text.toList with
    ⟨s, -, h⟩ | ⟨p', hp', -, hrun⟩ | ⟨q, c, hunrecognized, -, hstrict, hnone, -⟩
  · exact absurd hp.1 (h.closes p)
  · rw [hrun, hp.unique hp', error_bind]
  · have hlt : ¬ p ≤ q := fun hle => hnone p hle hp.1
    exact absurd hunrecognized.1 (hq hstrict q (by omega))

/-- Without a faulty character only the parentheses that are open at the end are left to fail. -/
theorem scan_faultless (hp : ∀ p, ¬ Overclosed text.toList p)
    (hq : strict → ∀ q, ¬ Unrecognized text.toList q) :
    (∀ d > 0, text.toList.count '(' = text.toList.count ')' + d →
      (Token.scan strict text).outcome = .error (.unclosed d)) ∧
    (text.toList.count '(' ≤ text.toList.count ')' →
      ∃ placed, Lexing text.toList placed ∧
        (Token.scan strict text).outcome = .ok (placed.map (·.2.token))) := by
  rw [scan_outcome]
  rcases Scan.follows_run strict text.toList with
    ⟨s, hrun, h⟩ | ⟨p, hover, -⟩ | ⟨q, c, hunrecognized, -, hstrict, -⟩
  · have hdepth := h.depth
    obtain ⟨placed, hlexing, htokens⟩ := h.flush
    rw [hrun, ok_bind, Scan.finish]
    constructor
    · intro d hd hcount
      obtain rfl : s.depth = d := by omega
      rw [if_neg (by simpa using Nat.ne_of_gt hd)]
    · intro hcount
      obtain hzero : s.depth = 0 := by omega
      rw [if_pos (by simp [hzero]), htokens, List.reverse_reverse]
      exact ⟨placed, hlexing, rfl⟩
  · exact absurd hover.1 (hp p)
  · exact absurd hunrecognized.1 (hq hstrict q)

theorem exists_numeral_of_scan {tokens : List Token}
    (h : (Token.scan strict text).outcome = .ok tokens) {x : Float} (hx : x ∈ Token.numbers tokens) :
    ∃ n : Numeral, n.value = x := by
  obtain ⟨l, hl⟩ := (scan_sound h).1 _ ((Token.mem_numbers tokens x).mp hx)
  cases l with
  | numeral n => exact ⟨n, Token.number.inj hl⟩
  | operator op => cases hl
  | leftParen => cases hl
  | rightParen => cases hl

theorem scan_sign {tokens : List Token} (h : (Token.scan strict text).outcome = .ok tokens) :
    ∀ x ∈ Token.numbers tokens, x.isNaN = true ∨ x.toBits = 0 ∨ 0 < x := by
  intro x hx
  obtain ⟨n, rfl⟩ := exists_numeral_of_scan h hx
  exact Binary.leadingNumber_sign n.chars

/-- How a scan ends is decided by the first place where the text closes too much, the first
character that is not recognized and the number of parentheses. -/
theorem scan_text (strict : Bool) (text : String) :
    (strict = true → ∀ q, IsLeast {n | Unrecognized text.toList n} q →
      (∀ p < q, ¬ Overclosed text.toList p) →
      ∃ c ∈ text.toList[q]?, FailsWith (Token.scan strict text).outcome .unrecognizedCharacter
        ("Unrecognized character " ++ Text.quoted (String.singleton c) ++ " at position "
          ++ toString q)) ∧
    (∀ p, IsLeast {n | Overclosed text.toList n} p →
      (strict = true → ∀ q < p, ¬ Unrecognized text.toList q) →
      FailsWith (Token.scan strict text).outcome .unbalancedParentheses
        ("Mismatched parentheses: unexpected ')' at position " ++ toString p)) ∧
    ((∀ p, ¬ Overclosed text.toList p) → (strict = true → ∀ q, ¬ Unrecognized text.toList q) →
      (∀ d > 0, text.toList.count '(' = text.toList.count ')' + d →
        FailsWith (Token.scan strict text).outcome .unbalancedParentheses
          ("Mismatched parentheses: " ++ toString d ++ " unclosed '('")) ∧
      (text.toList.count '(' ≤ text.toList.count ')' →
        ∃ placed, Lexing text.toList placed ∧
          (Token.scan strict text).outcome = .ok (placed.map (·.2.token)))) ∧
    ∀ tokens, (Token.scan strict text).outcome = .ok tokens →
      Balanced tokens ∧
        ∀ x ∈ Token.numbers tokens, x.isNaN = true ∨ x.toBits = 0 ∨ 0 < x := by
  refine ⟨?_, ?_, ?_, fun tokens h => ⟨(scan_sound h).2, scan_sign h⟩⟩
  · intro hstrict q hq hp
    obtain ⟨c, hc, h⟩ := scan_unrecognized hstrict hq hp
    exact ⟨c, hc, _, h, rfl, rfl⟩
  · intro p hp hq
    exact ⟨_, scan_overclosed hp hq, rfl, rfl⟩
  · intro hp hq
    obtain ⟨hopen, hclosed⟩ := scan_faultless hp hq
    exact ⟨fun d hd hcount => ⟨_, hopen d hd hcount, rfl, rfl⟩, hclosed⟩

end Abacus
