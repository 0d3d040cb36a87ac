import Abacus.Proofs.Conservation
import Abacus.Proofs.Traced

/-!
# Where the output of the yard comes from

The first element that is no proper token is the reason why a list is refused. Of an accepted list
each number and each operator comes out once, and what stands behind a number in the input stands
behind it in the output: numbers keep their order, and no operator overtakes a number.
-/

namespace Abacus

/-! ## Refusals -/

/-- Why no list with this element is put in postfix order. -/
def Token.refusal? : Token → Option Failure
  | unknownOperator symbol => some (.fault (.unknownOperator symbol))
  | foreign _ => some (.misuse .foreignInConversion)
  | number _ | operator _ | leftParen | rightParen => none

namespace Token

theorem refusal?_eq_none_iff (t : Token) : t.refusal? = none ↔ t.isProper := by
  cases t <;> simp [refusal?, isProper]

theorem findSome?_refusal?_eq_none_iff (tokens : List Token) :
    tokens.findSome? refusal? = none ↔ ∀ t ∈ tokens, t.isProper := by
  simp [List.findSome?_eq_none_iff, refusal?_eq_none_iff]

end Token

namespace Yard

theorem step_refusal {t : Token} {failure : Failure} (h : t.refusal? = some failure) (y : Yard) :
    y.step t = .error failure := by
  cases t <;> simp_all [Token.refusal?, step]

theorem foldlM_refusal {tokens : List Token} {failure : Failure}
    (h : tokens.findSome? Token.refusal? = some failure) (y : Yard) :
    tokens.foldlM step y = .error failure := by
  induction tokens generalizing y with
  | nil => simp at h
  | cons t tokens ih =>
    rw [List.foldlM_cons]
    cases ht : t.refusal? with
    | some other =>
      obtain rfl : other = failure := by simpa [ht] using h
      rw [step_refusal ht, error_bind]
    | none =>
      rw [step_eq_shift y t ((Token.refusal?_eq_none_iff t).mp ht), ok_bind]
      exact ih (by simpa [ht] using h) _

end Yard

/-- The first element that is refused decides the failure. -/
theorem toPostfix_eq_error_iff (tokens : List Token) (failure : Failure) :
    Token.toPostfix tokens = .error failure ↔
      tokens.findSome? Token.refusal? = some failure := by
  cases h : tokens.findSome? Token.refusal? with
  | some other =>
    unfold Token.toPostfix
    rw [Yard.foldlM_refusal h]
    simp [Except.map]
  | none => simp [toPostfix_eq tokens ((Token.findSome?_refusal?_eq_none_iff tokens).mp h)]

theorem toPostfix_eq_ok_iff (tokens output : List Token) :
    Token.toPostfix tokens = .ok output ↔
      (∀ t ∈ tokens, t.isProper) ∧ output = postfixFrom [] tokens := by
  constructor
  · intro h
    have hproper : ∀ t ∈ tokens, t.isProper := by
      rw [← Token.findSome?_refusal?_eq_none_iff, Option.eq_none_iff_forall_ne_some]
      intro failure hfailure
      rw [(toPostfix_eq_error_iff tokens failure).mpr hfailure] at h
      cases h
    rw [toPostfix_eq tokens hproper] at h
    exact ⟨hproper, (Except.ok.inj h).symm⟩
  · rintro ⟨hproper, rfl⟩
    exact toPostfix_eq tokens hproper

/-! ## Origins -/

/-- The places in the input that the tokens of the output come from, in the order of the output. -/
structure Origins (input output : List Token) (origins : List Nat) : Prop where
  token : output.map some = origins.map (input[·]?)
  nodup : origins.Nodup
  mem_iff : ∀ i, i ∈ origins ↔ ∃ t, input[i]? = some t ∧ t.isPostfix
  /-- What stands behind a number comes out behind it. -/
  behind : ∀ m i x, m < i → input[m]? = some (.number x) → i ∈ origins → [m, i].Sublist origins

theorem getElem?_concat_eq_some {α : Type} (xs : List α) (x y : α) (i : Nat) :
    (xs ++ [x])[i]? = some y ↔ xs[i]? = some y ∨ i = xs.length ∧ y = x := by
  rcases lt_trichotomy i xs.length with hi | rfl | hi
  · simp [List.getElem?_append_left hi, hi.ne]
  · simp [eq_comm]
  · simp [List.getElem?_append_right hi.le, hi.le, hi.ne', Nat.sub_ne_zero_of_lt hi]

namespace Origins

variable {input output before behind : List Token} {origins : List Nat} {t : Token}

theorem lt_length (h : Origins input output origins) {i : Nat} (hi : i ∈ origins) :
    i < input.length := by
  obtain ⟨t, ht, -⟩ := (h.mem_iff i).mp hi
  exact (List.getElem?_eq_some_iff.mp ht).1

theorem map_getElem?_concat (h : Origins input output origins) (t : Token) :
    origins.map ((input ++ [t])[·]?) = origins.map (input[·]?) :=
  List.map_congr_left fun _ hi => List.getElem?_append_left (h.lt_length hi)

/-- A token that does not come out leaves the origins as they are. -/
theorem skip (h : Origins input output origins) (ht : t.isPostfix = false) :
    Origins (input ++ [t]) output origins where
  token := by rw [h.token, h.map_getElem?_concat]
  nodup := h.nodup
  mem_iff := by
    intro i
    simp [h.mem_iff, getElem?_concat_eq_some, or_and_right, exists_or, and_assoc, ht]
  behind := by
    intro m i x hmi hm hi
    rw [List.getElem?_append_left (hmi.trans (h.lt_length hi))] at hm
    exact h.behind m i x hmi hm hi

/-- A token that comes out behind all numbers has the end of the input as its origin. -/
theorem insert (h : Origins input (before ++ behind) origins) (ht : t.isPostfix = true)
    (hbehind : Token.numbers behind = []) :
    ∃ origins, Origins (input ++ [t]) (before ++ t :: behind) origins := by
  have htoken := h.token
  rw [List.map_append] at htoken
  obtain ⟨front, rear, rfl, hfront, hrear⟩ := List.map_eq_append_iff.mp htoken.symm
  have hnew : input.length ∉ front ++ rear := fun hmem => (h.lt_length hmem).false
  have hkept : (front ++ rear).Sublist (front ++ input.length :: rear) :=
    (List.sublist_cons_self _ _).append_left front
  have hmem : ∀ i, i ∈ front ++ input.length :: rear ↔ i ∈ front ++ rear ∨ i = input.length := by
    intro i
    rw [List.perm_middle.mem_iff, List.mem_cons, or_comm]
  refine ⟨front ++ input.length :: rear, ?_, ?_, ?_, ?_⟩
  · have hmap := h.map_getElem?_concat t
    rw [List.map_append, List.map_append, hfront, hrear] at hmap
    obtain ⟨hf, hr⟩ := List.append_inj' hmap (by simpa using congrArg List.length hrear)
    simp [hf, hr]
  · rw [List.perm_middle.nodup_iff]
    exact List.nodup_cons.mpr ⟨hnew, h.nodup⟩
  · intro i
    rw [hmem, h.mem_iff]
    simp [getElem?_concat_eq_some, or_and_right, exists_or, and_assoc, ht]
  · intro m i x hmi hm hi
    rcases (hmem i).mp hi with hi | rfl
    · rw [List.getElem?_append_left (hmi.trans (h.lt_length hi))] at hm
      exact (h.behind m i x hmi hm hi).trans hkept
    · rw [List.getElem?_append_left hmi] at hm
      -- The number is in front of the new token, for behind it no number comes out.
      have hnumber : m ∉ rear := by
        intro hmrear
        have hx : some (Token.number x) ∈ behind.map some := by
          rw [← hrear, ← hm]
          exact List.mem_map_of_mem hmrear
        have hx : x ∈ Token.numbers behind := by simpa using hx
        simp [hbehind] at hx
      have hmfront : m ∈ front := by
        have hmm := (h.mem_iff m).mpr ⟨_, hm, rfl⟩
        exact (List.mem_append.mp hmm).resolve_right hnumber
      exact (List.singleton_sublist.mpr hmfront).append
        (List.singleton_sublist.mpr List.mem_cons_self)

end Origins

/-- Some origins explain what the yard puts out. -/
theorem exists_origins (tokens : List Token) :
    ∃ origins, Origins tokens (postfixFrom [] tokens) origins := by
  induction tokens using List.reverseRecOn with
  | nil => exact ⟨[], rfl, List.nodup_nil, by simp, by simp⟩
  | append_singleton tokens t ih =>
    obtain ⟨origins, h⟩ := ih
    unfold postfixFrom at h ⊢
    rw [List.foldl_append, List.foldl_cons, List.foldl_nil]
    rcases Yard.shift_finish (tokens.foldl Yard.shift ⟨[], []⟩) t with
      ⟨ht, hfinish⟩ | ⟨ht, before, behind, hy, hbehind, hfinish⟩
    · rw [hfinish]
      exact ⟨origins, h.skip ht⟩
    · rw [hy] at h
      rw [hfinish]
      exact h.insert ht hbehind

/-! ## The conversion -/

/-- A list is put in postfix order unless an element is refused, and the first such element decides
the failure. Only numbers and operators come out, each of them once, the numbers in their order and
every operator behind the numbers that stand before it. -/
theorem toPostfix_conserves (tokens : List Token) :
    ((∃ output, Token.toPostfix tokens = .ok output) ↔ ∀ t ∈ tokens, t.isProper) ∧
      (∀ failure, Token.toPostfix tokens = .error failure ↔
        tokens.findSome? Token.refusal? = some failure) ∧
      ∀ output, Token.toPostfix tokens = .ok output →
        (∀ t ∈ output, t.isPostfix) ∧
          Token.numbers output = Token.numbers tokens ∧
          (Token.operators output).Perm (Token.operators tokens) ∧
          ∃ origins, Origins tokens output origins := by
  refine ⟨?_, toPostfix_eq_error_iff tokens, ?_⟩
  · simp [toPostfix_eq_ok_iff]
  · intro output h
    obtain ⟨-, rfl⟩ := (toPostfix_eq_ok_iff tokens output).mp h
    exact ⟨isPostfix_postfixFrom tokens, numbers_postfixFrom tokens, operators_postfixFrom tokens,
      exists_origins tokens⟩

end Abacus
