import Abacus.Console
import Abacus.Proofs.Arguments
import Abacus.Proofs.EntryPoints
import Abacus.Service

/-!
# Runs of the command line

A command with its text behind `--text=` reports on that text under the settings of its
surroundings, and prints what the calculator tells of it.
-/

namespace Abacus.Console

/-! ## Runs -/

/-- Without a line of error a report always ends, whatever was recorded. -/
theorem ending_of_no_error {report : Report} (h : report.error? = none)
    (before early : List Record) (level : Level) (encoding : Encoding) :
    ∃ errors, { report with records := before ++ report.records }.ending early level encoding =
      .ok (.finished report.code (textOfLines report.output) errors) := by
  unfold Report.ending
  rw [h]
  exact ⟨_, rfl⟩

section

variable {s : Surroundings} {arguments : List String} {invocation : Invocation}
  {settings : Settings} {level : Level}

/-- Settings that load give a level, if the option does not give one. -/
theorem level_ok (hsettings : Console.settings s invocation = .ok settings)
    (hlevel : Level.ofText ((nonEmpty? invocation.logLevel?).getD settings.logLevel) = .ok level) :
    ∃ early, Console.level s invocation = .ok (level, early) := by
  unfold Console.level
  cases hname : nonEmpty? invocation.logLevel? with
  | none =>
    rw [hname, Option.getD_none] at hlevel
    rw [hsettings]
    simp only [Functor.map, Except.map, ok_bind, hlevel, mapError_ok]
    exact ⟨_, rfl⟩
  | some name =>
    rw [hname, Option.getD_some] at hlevel
    simp only [ok_bind, hlevel, mapError_ok]
    exact ⟨_, rfl⟩

/-- Once arguments, settings and level are read, only the expression matters. -/
theorem run_eq (hinvocation : Invocation.ofArguments arguments = .ok invocation)
    (hsettings : Settings.resolve ⟨overrides invocation, s.environment, s.dotenv.values⟩ =
      .ok settings)
    (hlevel : Level.ofText ((nonEmpty? invocation.logLevel?).getD settings.logLevel) = .ok level) :
    ∃ early, run s arguments =
      match expression? s invocation with
      | none => reject s.encoding missingText
      | some expression =>
        let report := report s.encoding settings invocation.command expression
        { report with records := settingsRecords s ++ report.records }.ending early level
          s.encoding := by
  have hread : Console.settings s invocation = .ok settings :=
    congrArg (Except.mapError Crash.invalidSettings) hsettings
  obtain ⟨early, hlog⟩ := level_ok hread hlevel
  refine ⟨early, ?_⟩
  unfold run
  rw [hinvocation]
  cases hexpression : expression? s invocation with
  | none => simp only [hlog, hexpression, ok_bind]
  | some expression => simp only [hlog, hexpression, hread, ok_bind]

/-- With an expression to work on, a run reports on it under the settings. -/
theorem run_of_expression (hinvocation : Invocation.ofArguments arguments = .ok invocation)
    (hsettings : Settings.resolve ⟨overrides invocation, s.environment, s.dotenv.values⟩ =
      .ok settings)
    (hlevel : Level.ofText ((nonEmpty? invocation.logLevel?).getD settings.logLevel) = .ok level)
    {expression : String} (hexpression : expression? s invocation = some expression)
    (herror : (report s.encoding settings invocation.command expression).error? = none) :
    ∃ errors, run s arguments =
      .ok (.finished (report s.encoding settings invocation.command expression).code
        (textOfLines (report s.encoding settings invocation.command expression).output) errors) := by
  obtain ⟨early, hrun⟩ := run_eq hinvocation hsettings hlevel
  rw [hrun, hexpression]
  exact ending_of_no_error herror _ _ _ _

/-- Without an expression a run is refused. -/
theorem run_of_none (hinvocation : Invocation.ofArguments arguments = .ok invocation)
    (hsettings : Settings.resolve ⟨overrides invocation, s.environment, s.dotenv.values⟩ =
      .ok settings)
    (hlevel : Level.ofText ((nonEmpty? invocation.logLevel?).getD settings.logLevel) = .ok level)
    (hexpression : expression? s invocation = none) :
    run s arguments = reject s.encoding missingText := by
  obtain ⟨early, hrun⟩ := run_eq hinvocation hsettings hlevel
  rw [hrun, hexpression]

/-- A text behind `--text=` is evaluated under the settings of the surroundings. -/
theorem run_append_text (hinvocation : Invocation.ofArguments arguments = .ok invocation)
    (hsettings : Settings.resolve ⟨overrides invocation, s.environment, s.dotenv.values⟩ =
      .ok settings)
    (hlevel : Level.ofText ((nonEmpty? invocation.logLevel?).getD settings.logLevel) = .ok level)
    {text : String} (hempty : text ≠ "") (hne : text ≠ "--")
    (herror : (report s.encoding settings invocation.command text).error? = none) :
    ∃ errors, run s (arguments ++ [textArgument text]) =
      .ok (.finished (report s.encoding settings invocation.command text).code
        (textOfLines (report s.encoding settings invocation.command text).output) errors) := by
  have happend := ofArguments_append hinvocation text
  rw [if_neg (by simpa using hne)] at happend
  refine run_of_expression happend hsettings hlevel ?_ herror
  simp [expression?, nonEmpty?, hempty]

end

/-- Behind `--text=` the separator counts as no text at all. -/
theorem run_append_separator (s : Surroundings) {arguments : List String}
    {invocation : Invocation} (hinvocation : Invocation.ofArguments arguments = .ok invocation)
    (hnone : nonEmpty? invocation.text? = none) :
    run s (arguments ++ [textArgument "--"]) = run s arguments := by
  let empty : Invocation := { invocation with text? := some "" }
  have hempty : Invocation.ofArguments (arguments ++ [textArgument "--"]) = .ok empty :=
    ofArguments_append hinvocation "--"
  have hsettings : Console.settings s empty = Console.settings s invocation := rfl
  have hlevel : Console.level s empty = Console.level s invocation := by
    unfold Console.level
    rw [hsettings]
  have hexpression : expression? s empty = expression? s invocation := by
    unfold expression?
    rw [hnone]
    rfl
  unfold run
  rw [hempty, hinvocation]
  simp only [hlevel, hsettings, hexpression, show empty.command = invocation.command from rfl]

theorem run_separator (s : Surroundings) (command : Command) :
    run s [command.name, textArgument "--"] = run s [command.name] := by
  exact run_append_separator s (ofArguments_command command) rfl

/-! ## What is printed -/

/-- What the command for the value prints of an outcome, and its exit code. -/
structure PrintsAnswer (code : Nat) (output : String) (o : Outcome) : Prop where
  ok : o.ok = true → ∃ answer, o.answer? = some answer ∧ code = 0 ∧ output = answer ++ "\n"
  failed : o.ok = false → code = 1 ∧ output = "no result\n"

/-- The lines are the steps, numbered from one, and then the answer. -/
structure ListsSteps (lines steps : List String) (answer : String) : Prop where
  length : lines.length = steps.length + 1
  step : ∀ i step, steps[i]? = some step →
    lines[i]? = some ("  " ++ toString (i + 1) ++ ". " ++ step)
  answer : lines.getLast? = some ("= " ++ answer)

/-- What the command for the steps prints of an outcome, and its exit code. -/
structure PrintsSteps (code : Nat) (output : String) (o : Outcome) : Prop where
  ok : o.ok = true → ∃ answer lines, o.answer? = some answer ∧ ListsSteps lines o.steps answer ∧
    code = 0 ∧ output = textOfLines lines
  failed : o.ok = false → ∃ errorCode, o.errorCode? = some errorCode ∧ code = 1 ∧
    output = "no result (" ++ errorCode ++ ")\n"

theorem textOfLines_singleton (line : String) : textOfLines [line] = line ++ "\n" := by
  simp [textOfLines]

theorem stepLines_lists {o : Outcome} {answer : String} (hanswer : o.answer? = some answer) :
    ListsSteps (stepLines o) o.steps answer where
  length := by simp [stepLines]
  step := by
    intro i step hstep
    have hi : i < o.steps.length := (List.getElem?_eq_some_iff.mp hstep).1
    unfold stepLines
    rw [List.getElem?_append_left (by simpa using hi)]
    simp [hstep]
  answer := by simp [stepLines, answerLine, hanswer]

theorem ofOutcome_ok {traced : Traced Misuse Outcome} {o : Outcome} (ho : traced.outcome = .ok o)
    (hok : o.ok = true) (lines : Outcome → List String) (failure : Outcome → String) :
    Report.ofOutcome traced lines failure =
      { code := 0, output := lines o, records := traced.records } := by
  unfold Report.ofOutcome
  simp only [ho, hok, if_true]

theorem ofOutcome_failed {traced : Traced Misuse Outcome} {o : Outcome}
    (ho : traced.outcome = .ok o) (hok : o.ok = false) (lines : Outcome → List String)
    (failure : Outcome → String) :
    Report.ofOutcome traced lines failure =
      { code := 1, output := [failure o], records := traced.records } := by
  unfold Report.ofOutcome
  simp only [ho, hok, Bool.false_eq_true, if_false]

section

variable {settings : Settings} {text : String} {o : Outcome}

theorem report_eval (ho : (settings.calculator.explain text).outcome = .ok o) (h : o.Coherent)
    (encoding : Encoding) :
    (report encoding settings .eval text).error? = none ∧
      PrintsAnswer (report encoding settings .eval text).code
        (textOfLines (report encoding settings .eval text).output) o := by
  rw [show report encoding settings .eval text = .ofOutcome (settings.calculator.explain text)
    (fun o => [answerLine o]) fun _ => "no result" from rfl]
  cases hok : o.ok with
  | true =>
    obtain ⟨answer, hanswer⟩ := Option.isSome_iff_exists.mp (h.answer.mp hok)
    rw [ofOutcome_ok ho hok, textOfLines_singleton, answerLine, hanswer]
    exact ⟨rfl, fun _ => ⟨answer, hanswer, rfl, rfl⟩, by simp [hok]⟩
  | false =>
    rw [ofOutcome_failed ho hok, textOfLines_singleton]
    exact ⟨rfl, by simp [hok], fun _ => ⟨rfl, by decide⟩⟩

theorem report_steps (ho : (settings.calculator.explain text).outcome = .ok o) (h : o.Coherent)
    (encoding : Encoding) :
    (report encoding settings .steps text).error? = none ∧
      PrintsSteps (report encoding settings .steps text).code
        (textOfLines (report encoding settings .steps text).output) o := by
  rw [show report encoding settings .steps text = .ofOutcome (settings.calculator.explain text)
    stepLines fun o => "no result (" ++ o.errorCode?.getD "" ++ ")" from rfl]
  cases hok : o.ok with
  | true =>
    obtain ⟨answer, hanswer⟩ := Option.isSome_iff_exists.mp (h.answer.mp hok)
    rw [ofOutcome_ok ho hok]
    exact ⟨rfl, fun _ => ⟨answer, stepLines o, hanswer, stepLines_lists hanswer, rfl, rfl⟩,
      by simp [hok]⟩
  | false =>
    have hcode : o.errorCode? ≠ none := by simp [← h.errorCode, hok]
    obtain ⟨errorCode, herrorCode⟩ := Option.ne_none_iff_exists'.mp hcode
    rw [ofOutcome_failed ho hok, textOfLines_singleton, herrorCode]
    exact ⟨rfl, by simp [hok], fun _ => ⟨errorCode, herrorCode, rfl, by simp [String.append_assoc]⟩⟩

variable {s : Surroundings} {level : Level}

theorem run_eval (ho : (settings.calculator.explain text).outcome = .ok o)
    (hsettings : Settings.resolve ⟨[], s.environment, s.dotenv.values⟩ = .ok settings)
    (hlevel : Level.ofText settings.logLevel = .ok level) (hempty : text ≠ "") (hne : text ≠ "--") :
    ∃ code output errors, run s ["eval", "--text=" ++ text] =
      .ok (.finished code output errors) ∧ PrintsAnswer code output o := by
  obtain ⟨herror, hprints⟩ := report_eval ho (Calculator.explain_coherent ho) s.encoding
  obtain ⟨errors, hrun⟩ :=
    run_append_text (ofArguments_command .eval) hsettings hlevel hempty hne herror
  exact ⟨_, _, errors, hrun, hprints⟩

theorem run_steps (ho : (settings.calculator.explain text).outcome = .ok o)
    (hsettings : Settings.resolve ⟨[], s.environment, s.dotenv.values⟩ = .ok settings)
    (hlevel : Level.ofText settings.logLevel = .ok level) (hempty : text ≠ "") (hne : text ≠ "--") :
    ∃ code output errors, run s ["steps", "--text=" ++ text] =
      .ok (.finished code output errors) ∧ PrintsSteps code output o := by
  obtain ⟨herror, hprints⟩ := report_steps ho (Calculator.explain_coherent ho) s.encoding
  obtain ⟨errors, hrun⟩ :=
    run_append_text (ofArguments_command .steps) hsettings hlevel hempty hne herror
  exact ⟨_, _, errors, hrun, hprints⟩

end

end Abacus.Console
