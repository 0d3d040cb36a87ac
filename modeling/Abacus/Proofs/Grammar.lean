import Abacus.Token.Scan
import Abacus.Proofs.Machine
import Abacus.Proofs.Yard

/-!
# The grammar of expressions

A sum is a product, or a sum, `+` or `-`, and a product. A product is a factor, or a product, `*` or
`/`, and a factor. A factor is a number, or a sum in parentheses. The yard turns what this grammar
derives into the post-order of its tree.
-/

namespace Abacus

/-! ## Lexemes -/

/-- A run of digits and points. -/
structure Numeral where
  chars : List Char
  nonempty : chars ≠ []
  numeric : ∀ c ∈ chars, isNumberChar c

def Numeral.value (n : Numeral) : Float := Reading.leadingNumber n.chars

inductive Lexeme where
  | numeral (n : Numeral)
  | operator (op : Operator)
  | leftParen
  | rightParen

namespace Lexeme

def chars : Lexeme → List Char
  | numeral n => n.chars
  | operator op => op.symbol.toList
  | leftParen => ['(']
  | rightParen => [')']

def token : Lexeme → Token
  | numeral n => .number n.value
  | operator op => .operator op
  | leftParen => .leftParen
  | rightParen => .rightParen

theorem token_isProper (l : Lexeme) : l.token.isProper := by cases l <;> rfl

end Lexeme

/-! ## Derivations -/

inductive Category where
  | sum
  | product
  | factor

namespace Category

/-- The least precedence of an operator outside of parentheses. -/
def level : Category → Nat
  | sum => 1
  | product => 2
  | factor => 3

end Category

/-- The derivation trees of the grammar. -/
inductive Derivation : Category → Type
  | numeral (n : Numeral) : Derivation .factor
  | group (e : Derivation .sum) : Derivation .factor
  | ofFactor (f : Derivation .factor) : Derivation .product
  | multiplied (t : Derivation .product) (op : Operator) (h : op = .mul ∨ op = .div)
      (f : Derivation .factor) : Derivation .product
  | ofProduct (t : Derivation .product) : Derivation .sum
  | added (e : Derivation .sum) (op : Operator) (h : op = .add ∨ op = .sub)
      (t : Derivation .product) : Derivation .sum

namespace Derivation

def lexemes {c : Category} : Derivation c → List Lexeme
  | numeral n => [.numeral n]
  | group e => .leftParen :: e.lexemes ++ [.rightParen]
  | ofFactor f => f.lexemes
  | multiplied t op _ f => t.lexemes ++ .operator op :: f.lexemes
  | ofProduct t => t.lexemes
  | added e op _ t => e.lexemes ++ .operator op :: t.lexemes

def tokens {c : Category} (d : Derivation c) : List Token := d.lexemes.map Lexeme.token

def tree {c : Category} : Derivation c → Tree
  | numeral n => .leaf n.value
  | group e => e.tree
  | ofFactor f => f.tree
  | multiplied t op _ f => .node t.tree op f.tree
  | ofProduct t => t.tree
  | added e op _ t => .node e.tree op t.tree

variable {c : Category}

theorem tokens_isProper (d : Derivation c) : ∀ t ∈ d.tokens, t.isProper := by
  intro t ht
  obtain ⟨l, -, rfl⟩ := List.mem_map.mp ht
  exact l.token_isProper

@[simp]
theorem tokens_numeral (n : Numeral) : (numeral n).tokens = [.number n.value] := rfl

@[simp]
theorem tokens_group (e : Derivation .sum) :
    (group e).tokens = .leftParen :: e.tokens ++ [.rightParen] := by
  simp [tokens, lexemes, Lexeme.token]

@[simp]
theorem tokens_ofFactor (f : Derivation .factor) : (ofFactor f).tokens = f.tokens := rfl

@[simp]
theorem tokens_multiplied (t : Derivation .product) (op : Operator) (h : op = .mul ∨ op = .div)
    (f : Derivation .factor) :
    (multiplied t op h f).tokens = t.tokens ++ .operator op :: f.tokens := by
  simp [tokens, lexemes, Lexeme.token]

@[simp]
theorem tokens_ofProduct (t : Derivation .product) : (ofProduct t).tokens = t.tokens := rfl

@[simp]
theorem tokens_added (e : Derivation .sum) (op : Operator) (h : op = .add ∨ op = .sub)
    (t : Derivation .product) : (added e op h t).tokens = e.tokens ++ .operator op :: t.tokens := by
  simp [tokens, lexemes, Lexeme.token]

end Derivation

def Derives (c : Category) (tokens : List Token) : Prop := ∃ d : Derivation c, d.tokens = tokens

def Derivable (tokens : List Token) : Prop := Derives .sum tokens

/-! ## Derivations are balanced -/

theorem balanced_infix (first second : List Token) (op : Operator) (hf : Balanced first)
    (hs : Balanced second) : Balanced (first ++ .operator op :: second) := by
  refine hf.append ⟨?_, ?_⟩
  · rw [nested_other _ _ _ (by simp) (by simp)]
    exact hs.nested
  · simpa using hs.settled

theorem balanced_group (tokens : List Token) (h : Balanced tokens) :
    Balanced (.leftParen :: tokens ++ [.rightParen]) := by
  refine ⟨?_, by simp [h.settled]⟩
  rw [List.cons_append, nested_leftParen]
  apply nested_append
  · intro first hfirst
    have := h.nested first hfirst
    omega
  · simp [h.settled]
  · rw [nested_rightParen]
    exact ⟨by simp [h.settled], nested_nil _⟩

theorem Derivation.balanced {c : Category} (d : Derivation c) : Balanced d.tokens := by
  induction d with
  | numeral n =>
    rw [tokens_numeral]
    exact ⟨(nested_other _ _ _ (by simp) (by simp)).mpr (nested_nil 0), by simp⟩
  | group e ih =>
    rw [tokens_group]
    exact balanced_group _ ih
  | ofFactor f ih => exact ih
  | multiplied t op h f iht ihf =>
    rw [tokens_multiplied]
    exact balanced_infix _ _ op iht ihf
  | ofProduct t ih => exact ih
  | added e op h t ihe iht =>
    rw [tokens_added]
    exact balanced_infix _ _ op ihe iht

/-! ## Derivations in the yard -/

/-- The top of the stack binds less tightly than the level, so that no operator of the level
releases it. -/
def Looser (level : Nat) (pending : List Pending) : Prop :=
  ∀ op, .operator op ∈ pending.head? → op.precedence < level

/-- All that is missing from the output are waiting operators of at least this level, with the
stack from before below them. -/
def Settles (level : Nat) (pending : List Pending) (output : List Token) (y : Yard) : Prop :=
  ∃ waiting : List Operator, (∀ op ∈ waiting, level ≤ op.precedence) ∧
    y.pending = waiting.map .operator ++ pending ∧
    (waiting.map Token.operator).reverse ++ y.output = output

theorem settles_refl (level : Nat) (pending : List Pending) (output : List Token) :
    Settles level pending output ⟨output, pending⟩ := ⟨[], by simp, rfl, rfl⟩

theorem Settles.mono {level lower : Nat} {pending : List Pending} {output : List Token} {y : Yard}
    (h : Settles level pending output y) (hle : lower ≤ level) :
    Settles lower pending output y := by
  obtain ⟨waiting, hw, hp, ho⟩ := h
  exact ⟨waiting, fun op hop => hle.trans (hw op hop), hp, ho⟩

theorem Settles.under {level : Nat} {pending : List Pending} {output : List Token} {y : Yard}
    {op : Operator} (h : Settles level (.operator op :: pending) output y)
    (hle : op.precedence ≤ level) : Settles op.precedence pending (.operator op :: output) y := by
  obtain ⟨waiting, hw, hp, ho⟩ := h
  refine ⟨waiting ++ [op], ?_, by simp [hp], by simp [← ho]⟩
  intro other hother
  rw [List.mem_append, List.mem_singleton] at hother
  rcases hother with hother | rfl
  · exact hle.trans (hw other hother)
  · exact le_refl _

theorem Settles.release {level : Nat} {pending : List Pending} {output : List Token} {y : Yard}
    (h : Settles level pending output y) (test : Pending → Bool)
    (htest : ∀ op, level ≤ op.precedence → test (.operator op))
    (hstop : ∀ top ∈ pending.head?, test top = false) :
    y.releaseWhile test = ⟨output, pending⟩ := by
  obtain ⟨waiting, hw, hp, ho⟩ := h
  obtain ⟨out, pend⟩ := y
  simp only at hp ho
  subst hp
  induction waiting generalizing out with
  | nil =>
    rw [← ho]
    exact Yard.releaseWhile_stop test _ (by simpa using hstop)
  | cons op waiting ih =>
    have hop := htest op (hw op List.mem_cons_self)
    rw [List.map_cons, List.cons_append, Yard.releaseWhile_operator test op _ _ hop]
    exact ih (fun other hother => hw other (List.mem_cons_of_mem _ hother)) _ (by simpa using ho)

theorem Settles.shift_operator {pending : List Pending} {output : List Token} {y : Yard}
    {op : Operator} (h : Settles op.precedence pending output y)
    (hl : Looser op.precedence pending) :
    y.shift (.operator op) = ⟨output, .operator op :: pending⟩ := by
  have hrelease : y.releaseWhile (Pending.yieldsTo op) = ⟨output, pending⟩ := by
    apply h.release
    · intro other hle
      simpa [Pending.yieldsTo] using hle
    · intro top htop
      cases top with
      | paren => rfl
      | operator other => simpa [Pending.yieldsTo] using hl other htop
  simp only [Yard.shift, hrelease]

theorem looser_operator (op : Operator) (pending : List Pending) :
    Looser (op.precedence + 1) (.operator op :: pending) := by
  intro other hother
  simp at hother
  simp [hother]

theorem Looser.mono {level higher : Nat} {pending : List Pending} (h : Looser level pending)
    (hle : level ≤ higher) : Looser higher pending :=
  fun op hop => (h op hop).trans_le hle

theorem settles_infix {level : Nat} {first second firstOut secondOut output : List Token}
    {pending : List Pending} {op : Operator} (hop : op.precedence = level)
    (hl : Looser level pending)
    (hf : Settles level pending (firstOut ++ output) (first.foldl Yard.shift ⟨output, pending⟩))
    (hs : ∀ out waiting, Looser (level + 1) waiting →
      Settles (level + 1) waiting (secondOut ++ out) (second.foldl Yard.shift ⟨out, waiting⟩)) :
    Settles level pending (.operator op :: secondOut ++ firstOut ++ output)
      ((first ++ .operator op :: second).foldl Yard.shift ⟨output, pending⟩) := by
  subst hop
  rw [List.foldl_append, List.foldl_cons, hf.shift_operator hl]
  have := (hs (firstOut ++ output) _ (looser_operator op pending)).under (Nat.le_succ _)
  simpa using this

theorem Derivation.settles {c : Category} (d : Derivation c) (output : List Token)
    (pending : List Pending) (hl : Looser c.level pending) :
    Settles c.level pending (d.tree.postorder.reverse ++ output)
      (d.tokens.foldl Yard.shift ⟨output, pending⟩) := by
  induction d generalizing output pending with
  | numeral n => exact settles_refl 3 pending _
  | group e ih =>
    rw [tokens_group, List.cons_append, List.foldl_cons, List.foldl_append]
    have hin := ih output (.paren :: pending) (fun op hop => by simp at hop)
    -- The closing parenthesis releases the sum down to its own partner.
    have hclose := hin.release Pending.isOperator (fun _ _ => rfl) (by simp [Pending.isOperator])
    change Settles 3 pending _
      (Yard.shift (e.tokens.foldl Yard.shift ⟨output, .paren :: pending⟩) .rightParen)
    simp only [Yard.shift, hclose]
    exact settles_refl 3 pending _
  | ofFactor f ih => exact (ih output pending (hl.mono (by decide))).mono (by decide)
  | multiplied t op h f iht ihf =>
    have hop : op.precedence = 2 := by rcases h with rfl | rfl <;> rfl
    rw [tokens_multiplied]
    have := settles_infix hop hl (iht output pending hl) ihf
    simpa [tree, Tree.postorder, Category.level] using this
  | ofProduct t ih => exact (ih output pending (hl.mono (by decide))).mono (by decide)
  | added e op h t ihe iht =>
    have hop : op.precedence = 1 := by rcases h with rfl | rfl <;> rfl
    rw [tokens_added]
    have := settles_infix hop hl (ihe output pending hl) iht
    simpa [tree, Tree.postorder, Category.level] using this

/-- The postfix order of a derivation is the post-order of its tree. -/
theorem Derivation.toPostfix_tokens (d : Derivation .sum) :
    Token.toPostfix d.tokens = .ok d.tree.postorder := by
  rw [toPostfix_eq _ d.tokens_isProper, postfixFrom]
  have hsettles := d.settles [] [] (fun op hop => by simp at hop)
  have hrelease := hsettles.release (fun _ => true) (fun _ _ => rfl) (by simp)
  rw [← Yard.releaseWhile_finish (fun _ => true), hrelease]
  simp [Yard.finish]

end Abacus
