import Mathlib.Data.List.Chain
import Abacus.Proofs.Conservation
import Abacus.Proofs.Grammar

/-!
# Where operands and operators stand

Where two tokens meet, one of two things is right: an operand has just ended, and an operator or a
closing parenthesis follows, or none has, and an operand starts. Lists in which this holds at every
seam, with balanced parentheses, are what the grammar derives. In a list with one number more than
operators the seams that lack an operator are as many as those that lack an operand.
-/

namespace Abacus

/-! ## Seams -/

namespace Token

/-- Right after the token an operand has ended. -/
def endsOperand : Token → Bool
  | number _ | rightParen => true
  | _ => false

/-- With the token an operand starts. -/
def startsOperand : Token → Bool
  | number _ | leftParen => true
  | _ => false

@[simp]
theorem endsOperand_number (x : Float) : (number x).endsOperand = true := rfl

@[simp]
theorem endsOperand_operator (op : Operator) : (operator op).endsOperand = false := rfl

@[simp]
theorem endsOperand_leftParen : leftParen.endsOperand = false := rfl

@[simp]
theorem endsOperand_rightParen : rightParen.endsOperand = true := rfl

@[simp]
theorem startsOperand_number (x : Float) : (number x).startsOperand = true := rfl

@[simp]
theorem startsOperand_operator (op : Operator) : (operator op).startsOperand = false := rfl

@[simp]
theorem startsOperand_leftParen : leftParen.startsOperand = true := rfl

@[simp]
theorem startsOperand_rightParen : rightParen.startsOperand = false := rfl

end Token

/-- The pairs of neighbours, with one token before the list and a closing parenthesis behind it. -/
def seams (before : Token) (tokens : List Token) : List (Token × Token) :=
  (before :: tokens).zip (tokens ++ [.rightParen])

def lacksOperator (seam : Token × Token) : Bool := seam.1.endsOperand && seam.2.startsOperand

/-- An operator, a closing parenthesis or the end comes without an operand right before it. -/
def lacksOperand (seam : Token × Token) : Bool := !seam.1.endsOperand && !seam.2.startsOperand

def missingOperators (tokens : List Token) : Nat := (seams .leftParen tokens).countP lacksOperator

def missingOperands (tokens : List Token) : Nat := (seams .leftParen tokens).countP lacksOperand

/-- The second token may stand right behind the first one. -/
def Fits (a b : Token) : Prop := b.startsOperand = !a.endsOperand

theorem seams_nil (before : Token) : seams before [] = [(before, .rightParen)] := rfl

theorem seams_cons (before t : Token) (tokens : List Token) :
    seams before (t :: tokens) = (before, t) :: seams t tokens := rfl

theorem seams_fit_iff (before : Token) (tokens : List Token) :
    (∀ seam ∈ seams before tokens, Fits seam.1 seam.2) ↔
      (before :: tokens ++ [Token.rightParen]).IsChain Fits := by
  induction tokens generalizing before with
  | nil => simp [seams_nil]
  | cons t tokens ih =>
    rw [seams_cons, List.forall_mem_cons, ih t]
    simp

theorem nothing_missing_iff (tokens : List Token) :
    missingOperators tokens = 0 ∧ missingOperands tokens = 0 ↔
      (Token.leftParen :: tokens ++ [Token.rightParen]).IsChain Fits := by
  rw [← seams_fit_iff, missingOperators, missingOperands, List.countP_eq_zero, List.countP_eq_zero,
    ← forall₂_and]
  refine forall₂_congr fun seam _ => ?_
  cases h₁ : seam.1.endsOperand <;> cases h₂ : seam.2.startsOperand <;>
    simp [Fits, lacksOperator, lacksOperand, h₁, h₂]

/-! ## Counting -/

/-- Each number is one operand that ends and one that starts, each operator neither, and each
parenthesis one of the two. -/
theorem countP_seams (before : Token) (tokens : List Token) (h : ∀ t ∈ tokens, t.isProper) :
    (seams before tokens).countP lacksOperator + (Token.operators tokens).length + 1 =
      (seams before tokens).countP lacksOperand + (Token.numbers tokens).length +
        if before.endsOperand then 1 else 0 := by
  induction tokens generalizing before with
  | nil =>
    cases hb : before.endsOperand <;>
      simp [seams_nil, hb, lacksOperator, lacksOperand, Token.numbers, Token.operators]
  | cons t tokens ih =>
    have hrest := ih t fun u hu => h u (List.mem_cons_of_mem _ hu)
    have ht := h t List.mem_cons_self
    rw [seams_cons, List.countP_cons, List.countP_cons]
    cases hb : before.endsOperand <;> cases t <;>
      simp [hb, lacksOperator, lacksOperand, Token.isProper, Token.numbers, Token.operators]
        at ht hrest ⊢ <;>
      omega

theorem missing_balance (tokens : List Token) (h : ∀ t ∈ tokens, t.isProper) :
    missingOperators tokens + (Token.operators tokens).length + 1 =
      missingOperands tokens + (Token.numbers tokens).length := by
  simpa [missingOperators, missingOperands] using countP_seams .leftParen tokens h

/-! ## Derivations fit -/

theorem isChain_fits_infix (a b : Token) (op : Operator) (first second : List Token)
    (hf : (a :: first ++ [Token.operator op]).IsChain Fits)
    (hs : (Token.operator op :: second ++ [b]).IsChain Fits) :
    (a :: (first ++ .operator op :: second) ++ [b]).IsChain Fits := by
  have hsplit : a :: (first ++ .operator op :: second) ++ [b] =
      (a :: first) ++ .operator op :: (second ++ [b]) := by simp
  rw [hsplit, List.isChain_split]
  exact ⟨hf, hs⟩

theorem Derivation.isChain_fits {c : Category} (d : Derivation c) (a b : Token)
    (ha : a.endsOperand = false) (hb : b.startsOperand = false) :
    (a :: d.tokens ++ [b]).IsChain Fits := by
  induction d generalizing a b with
  | numeral n => simp [Fits, ha, hb]
  | group e ih =>
    have hin := ih .leftParen .rightParen rfl rfl
    have hsplit : a :: (group e).tokens ++ [b] =
        [a] ++ .leftParen :: (e.tokens ++ .rightParen :: [b]) := by simp
    rw [hsplit, List.isChain_split, List.isChain_cons_split]
    exact ⟨by simp [Fits, ha], hin, by simp [Fits, hb]⟩
  | ofFactor f ih => exact ih a b ha hb
  | multiplied t op h f iht ihf =>
    rw [tokens_multiplied]
    exact isChain_fits_infix a b op _ _ (iht a _ ha rfl) (ihf _ b rfl hb)
  | ofProduct t ih => exact ih a b ha hb
  | added e op h t ihe iht =>
    rw [tokens_added]
    exact isChain_fits_infix a b op _ _ (ihe a _ ha rfl) (iht _ b rfl hb)

/-! ## Lists that fit are derived

The list is read from the left. At each point the part before it is a chain of open parentheses,
finished sums and finished products, whose next operand or operator is still to come.
-/

/-- The list may stand before a part of this category, inside so many parentheses. -/
inductive Before : Category → Nat → List Token → Prop
  | start : Before .sum 0 []
  | group {depth : Nat} {tokens : List Token} (h : Before .factor depth tokens) :
      Before .sum (depth + 1) (tokens ++ [.leftParen])
  | first {depth : Nat} {tokens : List Token} (h : Before .sum depth tokens) :
      Before .product depth tokens
  | added {depth : Nat} {tokens e : List Token} (h : Before .sum depth tokens) (he : Derives .sum e)
      (op : Operator) (hop : op = .add ∨ op = .sub) :
      Before .product depth (tokens ++ e ++ [.operator op])
  | single {depth : Nat} {tokens : List Token} (h : Before .product depth tokens) :
      Before .factor depth tokens
  | multiplied {depth : Nat} {tokens t : List Token} (h : Before .product depth tokens)
      (ht : Derives .product t) (op : Operator) (hop : op = .mul ∨ op = .div) :
      Before .factor depth (tokens ++ t ++ [.operator op])

def EndsWith (c : Category) (depth : Nat) (tokens : List Token) : Prop :=
  ∃ start last, Before c depth start ∧ Derives c last ∧ tokens = start ++ last

theorem Before.behind_factor {depth : Nat} {tokens f : List Token} (h : Before .factor depth tokens)
    (hf : Derives .factor f) : EndsWith .product depth (tokens ++ f) := by
  obtain ⟨df, rfl⟩ := hf
  cases h with
  | single h => exact ⟨tokens, _, h, ⟨.ofFactor df, rfl⟩, rfl⟩
  | @multiplied _ start t h ht op hop =>
    obtain ⟨dt, rfl⟩ := ht
    exact ⟨start, _, h, ⟨.multiplied dt op hop df, rfl⟩, by simp⟩

theorem EndsWith.sum {depth : Nat} {tokens : List Token} (h : EndsWith .product depth tokens) :
    EndsWith .sum depth tokens := by
  obtain ⟨start, last, hstart, ⟨dt, rfl⟩, rfl⟩ := h
  cases hstart with
  | first h => exact ⟨start, _, h, ⟨.ofProduct dt, rfl⟩, rfl⟩
  | @added _ start e h he op hop =>
    obtain ⟨de, rfl⟩ := he
    exact ⟨start, _, h, ⟨.added de op hop dt, rfl⟩, by simp⟩

theorem EndsWith.operator {depth : Nat} {tokens : List Token} (h : EndsWith .product depth tokens)
    (op : Operator) : Before .factor depth (tokens ++ [.operator op]) := by
  by_cases hop : op = .mul ∨ op = .div
  · obtain ⟨start, last, hstart, hlast, rfl⟩ := h
    exact .multiplied hstart hlast op hop
  · obtain ⟨start, last, hstart, hlast, rfl⟩ := h.sum
    exact .single (.added hstart hlast op (by cases op <;> simp_all))

theorem EndsWith.rightParen {depth : Nat} {tokens : List Token}
    (h : EndsWith .product (depth + 1) tokens) :
    EndsWith .product depth (tokens ++ [.rightParen]) := by
  obtain ⟨start, last, hstart, ⟨de, rfl⟩, rfl⟩ := h.sum
  cases hstart with
  | group hbefore =>
    have := hbefore.behind_factor ⟨.group de, rfl⟩
    simpa using this

theorem EndsWith.derivable {tokens : List Token} (h : EndsWith .product 0 tokens) :
    Derivable tokens := by
  obtain ⟨start, last, hstart, hlast, rfl⟩ := h.sum
  cases hstart with
  | start => exact hlast

/-- What the tokens read so far leave open, by whether an operand has just ended. -/
def Expects (ended : Bool) (depth : Nat) (tokens : List Token) : Prop :=
  if ended then EndsWith .product depth tokens else Before .factor depth tokens

theorem Expects.next {before : Token} {depth : Nat} {start : List Token}
    (h : Expects before.endsOperand depth start) (l : Lexeme) (hfit : Fits before l.token)
    (hnested : Nested depth [l.token]) :
    ∃ depth', Expects l.token.endsOperand depth' (start ++ [l.token]) ∧
      depth' + closed [l.token] = depth + opened [l.token] := by
  unfold Fits at hfit
  cases l with
  | numeral n =>
    have hended : before.endsOperand = false := by simpa [Lexeme.token] using hfit
    rw [Expects, if_neg (by simp [hended])] at h
    exact ⟨depth, h.behind_factor ⟨.numeral n, rfl⟩, by simp [Lexeme.token]⟩
  | operator op =>
    have hended : before.endsOperand = true := by simpa [Lexeme.token] using hfit
    rw [Expects, if_pos hended] at h
    exact ⟨depth, h.operator op, by simp [Lexeme.token]⟩
  | leftParen =>
    have hended : before.endsOperand = false := by simpa [Lexeme.token] using hfit
    rw [Expects, if_neg (by simp [hended])] at h
    exact ⟨depth + 1, .single (.first (.group h)), by simp [Lexeme.token]⟩
  | rightParen =>
    have hended : before.endsOperand = true := by simpa [Lexeme.token] using hfit
    rw [Expects, if_pos hended] at h
    rw [Lexeme.token, nested_rightParen] at hnested
    obtain ⟨depth, rfl⟩ : ∃ d, depth = d + 1 := ⟨depth - 1, by omega⟩
    exact ⟨depth, h.rightParen, by simp [Lexeme.token]⟩

theorem derivable_of_expects (before : Token) (depth : Nat) (start rest : List Token)
    (hstart : Expects before.endsOperand depth start) (hlex : ∀ t ∈ rest, ∃ l : Lexeme, l.token = t)
    (hfits : (before :: rest ++ [Token.rightParen]).IsChain Fits) (hnested : Nested depth rest)
    (hsettled : closed rest = depth + opened rest) : Derivable (start ++ rest) := by
  induction rest generalizing before depth start with
  | nil =>
    obtain rfl : depth = 0 := by simpa using hsettled.symm
    have hended : before.endsOperand = true := by simpa [Fits] using hfits
    rw [Expects, if_pos hended] at hstart
    simpa using hstart.derivable
  | cons t rest ih =>
    rw [List.cons_append, List.cons_append, List.isChain_cons_cons] at hfits
    obtain ⟨hfit, hfits⟩ := hfits
    obtain ⟨l, rfl⟩ := hlex t List.mem_cons_self
    rw [← List.singleton_append] at hnested hsettled
    obtain ⟨depth', hnext, hdepth⟩ := hstart.next l hfit hnested.front
    rw [closed_append, opened_append] at hsettled
    have hrest := ih l.token depth' (start ++ [l.token]) hnext
      (fun u hu => hlex u (List.mem_cons_of_mem _ hu)) hfits (hnested.behind hdepth) (by omega)
    rwa [List.append_assoc, List.singleton_append] at hrest

/-- A balanced list is derived by the grammar if nothing is missing in it, and only then. -/
theorem derivable_iff (tokens : List Token) (hlex : ∀ t ∈ tokens, ∃ l : Lexeme, l.token = t)
    (h : Balanced tokens) :
    Derivable tokens ↔ missingOperators tokens = 0 ∧ missingOperands tokens = 0 := by
  rw [nothing_missing_iff]
  constructor
  · rintro ⟨d, rfl⟩
    exact d.isChain_fits _ _ rfl rfl
  · intro hfits
    exact derivable_of_expects .leftParen 0 [] tokens (.single (.first .start)) hlex hfits h.nested
      (by simpa using h.settled)

end Abacus
