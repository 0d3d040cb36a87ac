import Mathlib.Data.List.Induction
import Abacus.Calculator

/-!
# Outcomes of traced computations

The records never decide an outcome, so the outcome of a chain is the chain of the outcomes.
-/

namespace Abacus

/-! ## Results -/

@[simp]
theorem ok_bind {ε α β : Type} (a : α) (f : α → Except ε β) : (Except.ok a >>= f) = f a := rfl

@[simp]
theorem error_bind {ε α β : Type} (e : ε) (f : α → Except ε β) :
    (Except.error e >>= f) = .error e := rfl

@[simp]
theorem mapError_ok {ε ε' α : Type} (f : ε → ε') (a : α) : (Except.ok a).mapError f = .ok a := rfl

@[simp]
theorem mapError_error {ε ε' α : Type} (f : ε → ε') (e : ε) :
    (Except.error e : Except ε α).mapError f = .error (f e) := rfl

theorem bind_eq_ok {ε α β : Type} {x : Except ε α} {f : α → Except ε β} {b : β}
    (h : x >>= f = .ok b) : ∃ a, x = .ok a ∧ f a = .ok b := by
  cases x with
  | error e => simp at h
  | ok a => exact ⟨a, rfl, h⟩

theorem mapError_eq_ok {ε ε' α : Type} {x : Except ε α} {f : ε → ε'} {a : α}
    (h : x.mapError f = .ok a) : x = .ok a := by
  cases x with
  | error e => simp at h
  | ok b => simpa using h

theorem toOption_eq_some {ε α : Type} {x : Except ε α} {a : α} (h : x.toOption = some a) :
    x = .ok a := by
  cases x with
  | error e => cases h
  | ok b => exact congrArg Except.ok (Option.some.inj h)

/-- What holds before the first step of a run, and still holds with each further step, holds of the
whole run. It may speak of the part that has been read. -/
theorem foldlM_history {ε σ α : Type} {step : σ → α → Except ε σ} {start : σ}
    (Inv : List α → σ → Prop) (hstart : Inv [] start)
    (hstep : ∀ as s a s', as.foldlM step start = .ok s → Inv as s → step s a = .ok s' →
      Inv (as ++ [a]) s')
    {as : List α} {s : σ} (h : as.foldlM step start = .ok s) : Inv as s := by
  induction as using List.reverseRecOn generalizing s with
  | nil =>
    obtain rfl := Except.ok.inj h
    exact hstart
  | append_singleton as a ih =>
    rw [List.foldlM_append] at h
    obtain ⟨s₁, h₁, hlast⟩ := bind_eq_ok h
    rw [List.foldlM_cons] at hlast
    obtain ⟨s₂, h₂, hnil⟩ := bind_eq_ok hlast
    obtain rfl := Except.ok.inj hnil
    exact hstep as s₁ a s₂ h₁ (ih h₁) h₂

/-- What one step keeps, a whole run keeps. -/
theorem foldlM_invariant {ε σ α : Type} {step : σ → α → Except ε σ} (Inv : σ → Prop)
    (hstep : ∀ s a s', Inv s → step s a = .ok s' → Inv s') (as : List α) (s s' : σ)
    (hs : Inv s) (h : as.foldlM step s = .ok s') : Inv s' :=
  foldlM_history (fun _ => Inv) hs (fun _ s a s' _ => hstep s a s') h

/-- Where each step that one fold makes is one of another fold, so is the whole run. -/
theorem foldlM_ok_of_step {ε σ α : Type} {step step' : σ → α → Except ε σ}
    (hstep : ∀ s a s', step s a = .ok s' → step' s a = .ok s') (as : List α) (s s' : σ)
    (h : as.foldlM step s = .ok s') : as.foldlM step' s = .ok s' := by
  induction as generalizing s with
  | nil => exact h
  | cons a as ih =>
    rw [List.foldlM_cons] at h ⊢
    obtain ⟨s₁, h₁, h₂⟩ := bind_eq_ok h
    rw [hstep s a s₁ h₁, ok_bind]
    exact ih s₁ h₂

/-- A run that fails does so at one of the elements, and the run up to there is made. -/
theorem foldlM_error {ε σ α : Type} {step : σ → α → Except ε σ} (as : List α) (s : σ) (e : ε)
    (h : as.foldlM step s = .error e) :
    ∃ first a rest s', as = first ++ a :: rest ∧ first.foldlM step s = .ok s' ∧
      step s' a = .error e := by
  induction as generalizing s with
  | nil => simp [pure, Except.pure] at h
  | cons a as ih =>
    rw [List.foldlM_cons] at h
    cases ha : step s a with
    | error e' =>
      rw [ha] at h
      obtain rfl : e' = e := Except.error.inj h
      exact ⟨[], a, as, s, rfl, rfl, ha⟩
    | ok s₁ =>
      rw [ha] at h
      obtain ⟨first, b, rest, s', rfl, hfirst, herr⟩ := ih s₁ h
      refine ⟨a :: first, b, rest, s', rfl, ?_, herr⟩
      rw [List.foldlM_cons, ha, ok_bind, hfirst]

/-! ## Outcomes -/

namespace Traced

variable {ε ε' α β : Type}

@[simp]
theorem bind_outcome (x : Traced ε α) (f : α → Traced ε β) :
    (x >>= f).outcome = x.outcome >>= fun a => (f a).outcome := by
  change (x.bind f).outcome = _
  unfold Traced.bind
  cases x.outcome <;> rfl

theorem records_bind (x : Traced ε α) (f : α → Traced ε β) :
    (x >>= f).records =
      x.records ++ match x.outcome with
        | .ok a => (f a).records
        | .error _ => [] := by
  change (x.bind f).records = _
  unfold Traced.bind
  cases x.outcome with
  | ok a => rfl
  | error e => exact (List.append_nil _).symm

theorem bind_records {x : Traced ε α} {a : α} (h : x.outcome = .ok a) (f : α → Traced ε β) :
    (x >>= f).records = x.records ++ (f a).records := by
  rw [records_bind, h]

/-- Continuations that agree on what the first computation gives make no difference. -/
theorem bind_congr {x : Traced ε α} {f g : α → Traced ε β}
    (h : ∀ a, x.outcome = .ok a → f a = g a) : x >>= f = x >>= g := by
  change x.bind f = x.bind g
  unfold Traced.bind
  cases hx : x.outcome with
  | ok a => simp only [h a hx]
  | error e => rfl

@[simp]
theorem fail_outcome (e : ε) : (fail e : Traced ε α).outcome = .error e := rfl

@[simp]
theorem ofExcept_outcome (x : Except ε α) : (ofExcept x).outcome = x := rfl

theorem recover_fail_records (x : Traced ε α) (f : ε → ε') :
    (x.recover fun e => .fail (f e)).records = x.records := by
  unfold recover
  cases x.outcome with
  | ok a => rfl
  | error e => exact List.append_nil _

theorem recover_fail_outcome (x : Traced ε α) (f : ε → ε') :
    (x.recover fun e => .fail (f e)).outcome = x.outcome.mapError f := by
  unfold recover
  cases x.outcome <;> rfl

end Traced

end Abacus
