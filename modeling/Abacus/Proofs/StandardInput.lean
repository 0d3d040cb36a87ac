import Abacus.Proofs.CommandLine
import Abacus.Proofs.Respacing

/-!
# Expressions on standard input

Without a text among its arguments a command takes its expression from standard input, where blanks
at the ends and the kind of the line ends are lost. A lax command prints the same for it as for the
text itself, and all commands refuse an input of blanks.
-/

namespace Abacus.Console

/-! ## Reports -/

/-- Outcomes that are told alike make reports alike, but for their records. -/
theorem ofOutcome_congr {traced traced' : Traced Misuse Outcome} {o o' : Outcome}
    (ho : traced.outcome = .ok o) (ho' : traced'.outcome = .ok o') (hok : o.ok = o'.ok)
    {lines : Outcome → List String} (hlines : lines o = lines o')
    {failure : Outcome → String} (hfailure : failure o = failure o') :
    ∃ code output records records',
      Report.ofOutcome traced lines failure = { code, output, records } ∧
      Report.ofOutcome traced' lines failure = { code, output, records := records' } := by
  cases hcase : o.ok with
  | true =>
    rw [ofOutcome_ok ho hcase, ofOutcome_ok ho' (hok.symm.trans hcase), hlines]
    exact ⟨_, _, _, _, rfl, rfl⟩
  | false =>
    rw [ofOutcome_failed ho hcase, ofOutcome_failed ho' (hok.symm.trans hcase), hfailure]
    exact ⟨_, _, _, _, rfl, rfl⟩

/-- Of texts with the same verdict a lax command for the value or the steps reports the same. -/
theorem report_sameVerdict {text text' : String} (h : SameVerdict text text') {settings : Settings}
    (hlax : settings.strictCharacters = false) {command : Command}
    (hcommand : command ∈ [.eval, .steps]) (encoding : Encoding) :
    ∃ code output records records',
      report encoding settings command text = { code, output, records } ∧
      report encoding settings command text' = { code, output, records := records' } := by
  obtain ⟨⟨_, result⟩, ⟨_, _⟩, ho, ho', rfl⟩ := h.explain settings.strictOperands
  unfold report
  rw [hlax]
  rcases List.mem_pair.mp hcommand with rfl | rfl
  · exact ofOutcome_congr ho ho' rfl rfl rfl
  · exact ofOutcome_congr ho ho' rfl rfl rfl

/-! ## The input -/

theorem nonEmpty?_some (text : String) :
    nonEmpty? (some text) = if text = "" then none else some text := by
  by_cases hempty : text = "" <;> simp [nonEmpty?, Option.filter, hempty]

/-- Nothing is left of the input if it is blank, and only then. -/
theorem inputText_eq_empty_iff (s : Surroundings) :
    inputText s = "" ↔ ∀ c ∈ s.standardInput.toList, Text.isBlank c := by
  rw [← Text.isBlank_foldLineEnds, ← Text.trim_eq_nil_iff, inputText]
  exact String.ofList_eq_empty_iff

theorem sameVerdict_inputText (s : Surroundings) : SameVerdict (inputText s) s.standardInput := by
  have hsame := sameVerdict_trim s.standardInput.toList
  rwa [String.ofList_toList] at hsame

theorem expression?_eq {s : Surroundings} {invocation : Invocation}
    (hnone : nonEmpty? invocation.text? = none) :
    expression? s invocation = if inputText s = "" then none else some (inputText s) := by
  simp [expression?, hnone, nonEmpty?_some]

/-- The line of error has letters that only one encoding holds. -/
theorem reject_missingText (encoding : Encoding) :
    if encoding = .utf8 then reject encoding missingText = .ok (.rejected missingText)
    else ∃ characters, reject encoding missingText = .error (.unencodable characters) := by
  cases encoding with
  | utf8 => exact rfl
  | ascii => exact ⟨_, rfl⟩
  | latin1 => exact ⟨_, rfl⟩

/-- A text on standard input and the same text behind `--text=` have the same exit code and output,
whatever else the arguments say, but for `--`, which counts as no text behind `--text=`. An input of
blanks is refused. -/
theorem run_standardInput (s : Surroundings) {arguments : List String} {invocation : Invocation}
    {settings : Settings} {level : Level} (text : String)
    (hinvocation : Invocation.ofArguments arguments = .ok invocation)
    (hnone : nonEmpty? invocation.text? = none)
    (hsettings : Settings.resolve ⟨overrides invocation, s.environment, s.dotenv.values⟩ =
      .ok settings)
    (hlevel : Level.ofText ((nonEmpty? invocation.logLevel?).getD settings.logLevel) = .ok level) :
    (invocation.command ∈ [.eval, .steps] → settings.strictCharacters = false →
      (∃ c ∈ text.toList, ¬ Text.isBlank c) → text ≠ "--" →
        ∃ code output errors errors',
          run { s with standardInput := text } arguments = .ok (.finished code output errors) ∧
          run s (arguments ++ ["--text=" ++ text]) = .ok (.finished code output errors')) ∧
    ((∀ c ∈ text.toList, Text.isBlank c) →
      if s.encoding = .utf8 then
        run { s with standardInput := text } arguments = .ok (.rejected missingText)
      else ∃ characters,
        run { s with standardInput := text } arguments = .error (.unencodable characters)) ∧
    run s (arguments ++ ["--text=--"]) = run s arguments := by
  let input : Surroundings := { s with standardInput := text }
  have hblanks : inputText input = "" ↔ ∀ c ∈ text.toList, Text.isBlank c :=
    inputText_eq_empty_iff input
  have hexpression : expression? input invocation =
      if inputText input = "" then none else some (inputText input) := expression?_eq hnone
  refine ⟨?_, ?_, run_append_separator s hinvocation hnone⟩
  · intro hcommand hlax hblank hne
    obtain ⟨c, hc, hnot⟩ := hblank
    have htext : text ≠ "" := by
      rintro rfl
      cases hc
    rw [if_neg fun hempty => hnot (hblanks.mp hempty c hc)] at hexpression
    obtain ⟨code, output, records, records', hreport, hreport'⟩ :=
      report_sameVerdict (sameVerdict_inputText input) hlax hcommand s.encoding
    obtain ⟨errors, hrun⟩ := run_of_expression (s := input) hinvocation hsettings hlevel hexpression
      (congrArg Report.error? hreport)
    obtain ⟨errors', hrun'⟩ := run_append_text hinvocation hsettings hlevel htext hne
      (congrArg Report.error? hreport')
    rw [show input.encoding = s.encoding from rfl, hreport] at hrun
    rw [hreport'] at hrun'
    exact ⟨code, textOfLines output, errors, errors', hrun, hrun'⟩
  · intro hblank
    rw [if_pos (hblanks.mpr hblank)] at hexpression
    rw [run_of_none (s := input) hinvocation hsettings hlevel hexpression]
    exact reject_missingText s.encoding

/-- A line of an editor on another system, with a strict option. -/
theorem run_standardInput_line :
    Invocation.ofArguments ["eval", "--strict-operands"] = .ok ⟨.eval, none, none, true, false⟩ ∧
    (∃ code output errors errors',
      run { standardInput := "1 +\r\n2\r\n" } ["eval", "--strict-operands"] =
        .ok (.finished code output errors) ∧
      run {} ["eval", "--strict-operands", "--text=" ++ "1 +\r\n2\r\n"] =
        .ok (.finished code output errors')) ∧
    run { standardInput := "\r\n" } ["eval", "--strict-operands"] =
      .ok (.rejected missingText) := by
  have hinvocation : Invocation.ofArguments ["eval", "--strict-operands"] =
      .ok ⟨.eval, none, none, true, false⟩ := toOption_eq_some (by decide +kernel)
  let settings : Settings := { Settings.defaults with strictOperands := true }
  have hsettings : Settings.resolve ⟨setIf true .strictOperands ++ [], [], []⟩ = .ok settings :=
    toOption_eq_some (by decide +kernel)
  have hlevel : Level.ofText settings.logLevel = .ok .info := toOption_eq_some (by decide +kernel)
  have hline := (run_standardInput {} "1 +\r\n2\r\n" hinvocation rfl hsettings hlevel).1
    (by decide) rfl ⟨'1', by decide, by decide⟩ (by decide)
  have hblanks : "\r\n".toList.all Text.isBlank = true := by decide +kernel
  have hblank := (run_standardInput {} "\r\n" hinvocation rfl hsettings hlevel).2.1
    (List.all_eq_true.mp hblanks)
  exact ⟨hinvocation, hline, hblank⟩

/-- On standard input `--` is an expression without a value, and behind `--text=` it is no text. -/
theorem standardInput_separator :
    Settings.resolve ⟨[], [], []⟩ = .ok Settings.defaults ∧
      Settings.defaults.strictCharacters = false ∧
      (∃ c ∈ "--".toList, ¬ Text.isBlank c) ∧
      run { standardInput := "--" } ["eval"] = .ok (.finished 1 "no result\n" "") ∧
      run {} ["eval", "--text=--"] = .ok (.rejected missingText) :=
  ⟨rfl, rfl, ⟨'-', by decide, by decide⟩, toOption_eq_some (by decide +kernel),
    toOption_eq_some (by decide +kernel)⟩

end Abacus.Console
