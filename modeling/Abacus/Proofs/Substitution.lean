import Abacus.Proofs.Machine
import Abacus.Proofs.Yard

/-!
# A group and its value

In any list, well-formed or not, a balanced part in parentheses comes out of the yard as it would on
its own. If it has a value, the machine goes on from it as from a number with that value.
-/

namespace Abacus

/-! ## The yard around a group -/

def outputBefore (pre : List Token) : List Token := (pre.foldl Yard.shift {}).output.reverse

/-- What is put out for `post` and for all that waits from `pre`. -/
def outputBehind (pre post : List Token) : List Token :=
  postfixFrom (pre.foldl Yard.shift {}).pending post

/-- A part that leaves the stack as it was puts out the same between any two lists. -/
theorem postfixFrom_between (pre mid post out : List Token)
    (h : ∀ output pending,
      mid.foldl Yard.shift ⟨output, pending⟩ = ⟨out.reverse ++ output, pending⟩) :
    postfixFrom [] (pre ++ mid ++ post) = outputBefore pre ++ out ++ outputBehind pre post := by
  rw [postfixFrom, List.foldl_append, List.foldl_append]
  change (post.foldl Yard.shift (mid.foldl Yard.shift
    ⟨(pre.foldl Yard.shift {}).output, (pre.foldl Yard.shift {}).pending⟩)).finish = _
  rw [h, Yard.finish_foldl]
  simp [outputBefore, outputBehind]

theorem postfixFrom_group (pre mid post : List Token) (h : Balanced mid) :
    postfixFrom [] (pre ++ (Token.leftParen :: mid ++ [.rightParen]) ++ post) =
      outputBefore pre ++ postfixFrom [] mid ++ outputBehind pre post :=
  postfixFrom_between pre _ post _ fun output pending => Yard.foldl_group mid output pending h

theorem postfixFrom_number (pre post : List Token) (x : Float) :
    postfixFrom [] (pre ++ [.number x] ++ post) =
      outputBefore pre ++ [.number x] ++ outputBehind pre post :=
  postfixFrom_between pre _ post [.number x] fun _ _ => rfl

/-! ## The machine around a value -/

/-- Both end in the same way, but the first has made some steps more behind those before. -/
def EndsAlike (before extra : List String) (first second : Traced Failure Evaluation) : Prop :=
  first.records = second.records ∧
    match first.outcome, second.outcome with
    | .ok e₁, .ok e₂ => e₁.value = e₂.value ∧
        ∃ behind, e₁.steps = before ++ extra ++ behind ∧ e₂.steps = before ++ behind
    | .error f₁, .error f₂ => f₁ = f₂
    | _, _ => False

theorem finish_endsAlike (strict : Bool) (m : Machine) (before extra : List Step) :
    EndsAlike (before.reverse.map Step.text) (extra.reverse.map Step.text)
      (((m.above [] (extra ++ before)).finish strict).recover fun fault => .fail (.fault fault))
      (((m.above [] before).finish strict).recover fun fault => .fail (.fault fault)) := by
  obtain ⟨stack, steps⟩ := m
  unfold Machine.above Machine.finish
  match stack with
  | [] => exact ⟨rfl, rfl⟩
  | value :: below =>
    simp only [List.append_nil]
    by_cases hleft : (strict && !below.isEmpty) = true
    · rw [if_pos hleft, if_pos hleft]
      exact ⟨rfl, rfl⟩
    · rw [if_neg hleft, if_neg hleft]
      by_cases hnan : value.isNaN = true
      · rw [if_pos hnan, if_pos hnan]
        exact ⟨rfl, rfl⟩
      · rw [if_neg hnan, if_neg hnan]
        exact ⟨rfl, rfl, steps.reverse.map Step.text, by simp, by simp⟩

/-- Behind a list with a value stands that value, on top of what was there before. -/
theorem Machine.run_between {a mid : List Token} {m : Machine} {value : Float} {made : List Step}
    (ha : run {} a = .ok m) (hmid : run {} mid = .ok ⟨[value], made⟩) (b : List Token) :
    run {} (a ++ mid ++ b) = (above ⟨value :: m.stack, []⟩ [] (made ++ m.steps)).run b := by
  have hframe := run_above mid _ _ m.stack m.steps hmid
  simp only [above, List.nil_append] at hframe
  rw [run_append, run_append, ha, ok_bind, hframe]
  simp [above]

/-- A list that has a value on its own does for the machine what a number with that value does. -/
theorem reduce_endsAlike (a b : List Token) :
    ∃ before : List String, ∀ mid value steps,
      (Token.reduce true mid).outcome = .ok ⟨value, steps⟩ → ∀ strict,
        EndsAlike before steps (Token.reduce strict (a ++ mid ++ b))
          (Token.reduce strict (a ++ [.number value] ++ b)) := by
  cases ha : Machine.run {} a with
  | error failure =>
    refine ⟨[], fun mid value steps _ strict => ?_⟩
    have hfails : ∀ rest, Machine.run {} (a ++ rest) = .error failure := by
      intro rest
      rw [Machine.run_append, ha, error_bind]
    rw [List.append_assoc, List.append_assoc, reduce_of_error (hfails _),
      reduce_of_error (hfails _)]
    exact ⟨rfl, rfl⟩
  | ok m =>
    refine ⟨m.steps.reverse.map Step.text, fun mid value steps hmid strict => ?_⟩
    rw [reduce_outcome] at hmid
    obtain ⟨⟨stack, made⟩, hrun, hfinish⟩ := bind_eq_ok hmid
    obtain ⟨below, hstack, hbelow, -, hsteps⟩ := Machine.finish_ok (mapError_eq_ok hfinish)
    rw [hbelow rfl] at hstack
    simp only at hstack hsteps
    subst hstack hsteps
    -- Both runs come to `b` with the same stack, and with the steps of `mid` in one of them.
    have hfirst := Machine.run_between ha hrun b
    have hvalue : Machine.run {} [.number value] = .ok ⟨[value], []⟩ := rfl
    have hsecond := Machine.run_between ha hvalue b
    rw [Machine.run_before] at hfirst hsecond
    cases hb : Machine.run ⟨value :: m.stack, []⟩ b with
    | error failure =>
      rw [hb] at hfirst hsecond
      rw [reduce_of_error hfirst, reduce_of_error hsecond]
      exact ⟨rfl, rfl⟩
    | ok m' =>
      rw [hb] at hfirst hsecond
      rw [reduce_of_ok hfirst, reduce_of_ok hsecond]
      exact finish_endsAlike strict m' m.steps made

/-! ## Groups for values -/

/-- A group in any surroundings comes out as its own postfix order between what comes out of the
surroundings, and its value can stand in its place. -/
theorem substitution (pre post : List Token) (hpre : ∀ t ∈ pre, t.isProper)
    (hpost : ∀ t ∈ post, t.isProper) :
    ∃ (a b : List Token) (before : List String),
      (∀ x, Token.toPostfix (pre ++ [.number x] ++ post) = .ok (a ++ [.number x] ++ b)) ∧
      ∀ mid, (∀ t ∈ mid, t.isProper) → Balanced mid → ∃ p,
        Token.toPostfix mid = .ok p ∧
        Token.toPostfix (.leftParen :: mid ++ [.rightParen]) = .ok p ∧
        Token.toPostfix (pre ++ (.leftParen :: mid ++ [.rightParen]) ++ post) =
          .ok (a ++ p ++ b) ∧
        ∀ value steps, (Token.reduce true p).outcome = .ok ⟨value, steps⟩ → ∀ strict,
          EndsAlike before steps (Token.reduce strict (a ++ p ++ b))
            (Token.reduce strict (a ++ [.number value] ++ b)) := by
  obtain ⟨before, hbefore⟩ := reduce_endsAlike (outputBefore pre) (outputBehind pre post)
  have hproper : ∀ mid, (∀ t ∈ mid, t.isProper) → ∀ t ∈ pre ++ mid ++ post, t.isProper := by
    intro mid hmid
    simp only [List.forall_mem_append]
    exact ⟨⟨hpre, hmid⟩, hpost⟩
  refine ⟨outputBefore pre, outputBehind pre post, before, ?_, ?_⟩
  · intro x
    rw [toPostfix_eq _ (hproper _ (by simp [Token.isProper])), postfixFrom_number]
  · intro mid hmid hbalanced
    have hgroup : ∀ t ∈ Token.leftParen :: mid ++ [.rightParen], t.isProper := by
      simpa [Token.isProper, or_imp, forall_and] using hmid
    have halone := postfixFrom_group [] mid [] hbalanced
    refine ⟨postfixFrom [] mid, toPostfix_eq mid hmid, ?_, ?_, hbefore _⟩
    · rw [toPostfix_eq _ hgroup]
      simpa [outputBefore, outputBehind, postfixFrom, Yard.finish] using halone
    · rw [toPostfix_eq _ (hproper _ hgroup), postfixFrom_group pre mid post hbalanced]

/-- `2 * (1 + 3) -` and `2 * 4 -`, neither of them well-formed. -/
theorem substitution_product :
    ∃ (a p b : List Token) (before steps : List String) (value : Float),
      Token.toPostfix ([.number 2, .operator .mul] ++
          (.leftParen :: [.number 1, .operator .add, .number 3] ++ [.rightParen]) ++
          [.operator .sub]) = .ok (a ++ p ++ b) ∧
        Token.toPostfix ([.number 2, .operator .mul] ++ [.number value] ++ [.operator .sub]) =
          .ok (a ++ [.number value] ++ b) ∧
        (Token.reduce true p).outcome = .ok ⟨value, steps⟩ ∧
        EndsAlike before steps (Token.reduce false (a ++ p ++ b))
          (Token.reduce false (a ++ [.number value] ++ b)) := by
  obtain ⟨a, b, before, hnumber, hgroup⟩ :=
    substitution [.number 2, .operator .mul] [.operator .sub] (by decide) (by decide)
  obtain ⟨p, hp, -, hordered, halike⟩ :=
    hgroup [.number 1, .operator .add, .number 3] (by decide) (by decide +kernel)
  have hok : (Token.reduce true p).outcome.isOk = true := by
    obtain rfl := Except.ok.inj hp
    decide +kernel
  cases hreduce : (Token.reduce true p).outcome with
  | error failure =>
    rw [hreduce] at hok
    cases hok
  | ok e =>
    exact ⟨a, p, b, before, e.steps, e.value, hordered, hnumber _, hreduce, halike _ _ hreduce _⟩

end Abacus
