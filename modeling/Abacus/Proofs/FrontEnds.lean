import Abacus.Proofs.CommandLine
import Abacus.Proofs.Statuses

/-!
# The front ends

The service and the command line tell the outcome of an expression each in its own form. All of them
tell the same outcome, that of the calculator with the same settings.
-/

namespace Abacus

/-! ## Evaluations of the service -/

namespace Service

theorem allFinite_strings (texts : List String) : Json.allFinite (texts.map .string) = true := by
  induction texts with
  | nil => rfl
  | cons text texts ih => simpa [Json.allFinite, Json.isFinite] using ih

theorem stringOrNull_isFinite (text? : Option String) : (stringOrNull text?).isFinite = true := by
  cases text? <;> rfl

theorem finiteOrNull_isFinite (value? : Option Float) : (finiteOrNull value?).isFinite = true := by
  unfold finiteOrNull
  cases value? with
  | none => rfl
  | some value =>
    simp only
    split
    · assumption
    · rfl

/-- An evaluation never holds a number that JSON has not. -/
theorem evaluationJson_isFinite (o : Outcome) (explain : Bool) :
    (evaluationJson o explain).isFinite = true := by
  have hsteps : Json.allFinite (if explain then o.steps.map .string else []) = true := by
    split
    · exact allFinite_strings o.steps
    · rfl
  simp [evaluationJson, Json.isFinite, Json.allMembersFinite, stringOrNull_isFinite,
    finiteOrNull_isFinite, hsteps]

/-- What a JSON value shows of an outcome. -/
structure Shows (json : Json) (o : Outcome) (explain : Bool) : Prop where
  ok : json.member? "ok" = some (.bool o.ok)
  answer : json.member? "answer" = some (stringOrNull o.answer?)
  value : ∀ value, o.ok = true → o.value? = some value → value.isFinite = true →
    json.member? "value" = some (.float value)
  noValue : (o.ok = false ∨ ∀ value, o.value? = some value → value.isFinite = false) →
    json.member? "value" = some .null
  steps : json.member? "steps" = some (.array (if explain then o.steps.map .string else []))
  isFinite : json.isFinite = true
  infinite : o.ok = true → json.member? "value" = some .null →
    o.answer? = some "Infinity" ∨ o.answer? = some "-Infinity"

theorem finiteOrNull_of_not_finite {value : Float} (h : value.isFinite = false) :
    finiteOrNull (some value) = .null := by
  simp [finiteOrNull, h]

/-- An answer without a finite value is an infinity. -/
theorem answer?_of_not_finite {o : Outcome} (h : o.Coherent) {value : Float}
    (hvalue : o.value? = some value) (hfinite : value.isFinite = false) :
    o.answer? = some "Infinity" ∨ o.answer? = some "-Infinity" := by
  have hanswer : o.answer? = some (Notation.answerText value) := by
    unfold Outcome.answer?
    rw [hvalue]
    rfl
  rcases Notation.float_cases value with ⟨hnan, -⟩ | ⟨-, hinf, -⟩ | ⟨-, -, hfin⟩
  · -- This would be told as no number, and that is never an answer.
    rw [← Notation.answerText_eq_nan_iff] at hnan
    exact absurd (hnan ▸ hanswer) h.isNumber
  · rw [hanswer]
    exact (Notation.answerText_isInf hinf).imp (congrArg some) (congrArg some)
  · simp [hfin] at hfinite

theorem evaluationJson_shows {o : Outcome} (h : o.Coherent) (explain : Bool) :
    Shows (evaluationJson o explain) o explain where
  ok := rfl
  answer := rfl
  value := by
    intro value _ hvalue hfinite
    change some (finiteOrNull o.value?) = _
    rw [hvalue, finiteOrNull, if_pos hfinite]
  noValue := by
    intro hnone
    change some (finiteOrNull o.value?) = _
    cases hvalue : o.value? with
    | none => rfl
    | some value =>
      have hok : o.ok = true := h.value.mpr (by simp [hvalue])
      rcases hnone with hfailed | hinfinite
      · simp [hok] at hfailed
      · rw [finiteOrNull_of_not_finite (hinfinite value hvalue)]
  steps := rfl
  isFinite := evaluationJson_isFinite o explain
  infinite := by
    intro hok hnull
    change some (finiteOrNull o.value?) = _ at hnull
    obtain ⟨value, hvalue⟩ := Option.isSome_iff_exists.mp (h.value.mp hok)
    refine answer?_of_not_finite h hvalue (Bool.eq_false_iff.mpr fun hfinite => ?_)
    simp [hvalue, finiteOrNull, hfinite] at hnull

/-! ## Keys of the service -/

/-- What the response to an expression's problem tells of its outcome. -/
structure TellsKey (response : Response) (text : String) (o : Outcome) : Prop where
  ok : o.ok = true → ∃ answer, o.answer? = some answer ∧
    response = .ok (.object [("type", .string "expression"), ("answer", .string answer)])
  failed : o.ok = false → response = .message 400 ("Error! Wrong expression (" ++ text ++ ")!")

theorem answerKeyResponse_tellsKey {o : Outcome} (h : o.Coherent) (text : String) :
    TellsKey (answerKeyResponse "expression"
      (match o.answer? with
        | none => .error (.wrongExpression text)
        | some answer => .ok answer)) text o where
  ok := by
    intro hok
    obtain ⟨answer, hanswer⟩ := Option.isSome_iff_exists.mp (h.answer.mp hok)
    rw [hanswer]
    exact ⟨answer, rfl, rfl⟩
  failed := by
    intro hfailed
    cases hanswer : o.answer? with
    | none => rfl
    | some answer =>
      have hok : o.ok = true := h.answer.mpr (by simp [hanswer])
      simp [hok] at hfailed

/-! ## Responses -/

section

variable {service : Service} {body : Body} {members : List (String × Json)} {text : String}
  {o : Outcome}

theorem handle_evaluate_shows (ho : (service.settings.calculator.explain text).outcome = .ok o)
    (hlong : ¬ service.Exceeds text) (hbody : body.members = .ok members)
    (htext : Json.lookup? members "expression" = some (.string text)) {explain : Bool}
    (hexplain : Json.lookup? members "explain" = some (.bool explain)) :
    ∃ json, (service.handle ⟨"POST", "/evaluate", body⟩).outcome = .ok (.ok json) ∧
      Shows json o explain := by
  have hflag : flag (Json.lookup? members "explain") = .ok explain := by
    rw [hexplain]
    rfl
  have hrequest := EvaluationRequest.ofBody_ok hbody htext hflag
  rw [handle_evaluate, evaluate_outcome, hrequest]
  exact ⟨_, answerEvaluation_explained hlong ho,
    evaluationJson_shows (Calculator.explain_coherent ho) explain⟩

theorem handle_answerKey_tellsKey
    (ho : (service.settings.calculator.explain text).outcome = .ok o)
    (hlong : ¬ service.Exceeds text) (hbody : body.members = .ok members)
    (htype : Json.lookup? members "type" = some (.string "expression"))
    (htext : problemMember? members = some (.string text)) :
    ∃ response, (service.handle ⟨"POST", "/problems/answer", body⟩).outcome = .ok response ∧
      TellsKey response text o := by
  have hrequest := AnswerKeyRequest.ofBody_ok hbody htype htext
  have hkey := Calculator.answerKey_of_explain service.settings.riddleAnswer ho
  rw [handle_answerKey, answerKey_outcome, hrequest]
  exact ⟨_, answerProblem_keyed hlong hkey,
    answerKeyResponse_tellsKey (Calculator.explain_coherent ho) text⟩

end

theorem ofSettings_ok {settings : Settings} {level : Level}
    (hlevel : Level.ofText settings.logLevel = .ok level) (htitle : settings.appTitle ≠ "")
    (hversion : settings.appVersion ≠ "") : ofSettings settings = .ok ⟨settings, level⟩ := by
  unfold ofSettings
  simp [hlevel, htitle, hversion]

end Service

/-! ## Agreement -/

/-- Every front end tells the outcome of the calculator with its settings, whatever the text is.
The command line alone takes `--` for no text, and reads its input instead. -/
theorem front_ends_agree {settings : Settings} {level : Level} {text : String}
    (hlevel : Level.ofText settings.logLevel = .ok level) (hempty : 0 < text.length)
    (hlong : text.length ≤ settings.maxExpressionLength) :
    ∃ o, (settings.calculator.explain text).outcome = .ok o ∧
      (settings.appTitle ≠ "" → settings.appVersion ≠ "" →
        Service.ofSettings settings = .ok ⟨settings, level⟩) ∧
      (∀ body members explain, body.members = .ok members →
        Json.lookup? members "expression" = some (.string text) →
        Json.lookup? members "explain" = some (.bool explain) →
          ∃ json, (Service.handle ⟨settings, level⟩ ⟨"POST", "/evaluate", body⟩).outcome =
              .ok (.ok json) ∧
            Service.Shows json o explain) ∧
      (∀ body members, body.members = .ok members →
        Json.lookup? members "type" = some (.string "expression") →
        Service.problemMember? members = some (.string text) →
          ∃ response,
            (Service.handle ⟨settings, level⟩ ⟨"POST", "/problems/answer", body⟩).outcome =
              .ok response ∧
            Service.TellsKey response text o) ∧
      (∀ s : Console.Surroundings, text ≠ "--" →
        Settings.resolve ⟨[], s.environment, s.dotenv.values⟩ = .ok settings →
          (∃ code output errors, Console.run s ["eval", "--text=" ++ text] =
              .ok (.finished code output errors) ∧ Console.PrintsAnswer code output o) ∧
          ∃ code output errors, Console.run s ["steps", "--text=" ++ text] =
              .ok (.finished code output errors) ∧ Console.PrintsSteps code output o) ∧
      ∀ (s : Console.Surroundings) (command : Console.Command),
        Console.run s [command.name, "--text=--"] = Console.run s [command.name] := by
  let service : Service := ⟨settings, level⟩
  obtain ⟨o, ho⟩ : ∃ o, (service.settings.calculator.explain text).outcome = .ok o :=
    standard_explain_ok settings.strictOperands settings.strictCharacters text
  have hne_empty : text ≠ "" := by
    rintro rfl
    simp at hempty
  have hshort : ¬ service.Exceeds text := not_lt.mpr hlong
  refine ⟨o, ho, Service.ofSettings_ok hlevel, ?_, ?_, ?_, Console.run_separator⟩
  · intro body members explain hbody htext hexplain
    exact Service.handle_evaluate_shows ho hshort hbody htext hexplain
  · intro body members hbody htype htext
    exact Service.handle_answerKey_tellsKey ho hshort hbody htype htext
  · intro s hne hsettings
    exact ⟨Console.run_eval ho hsettings hlevel hne_empty hne,
      Console.run_steps ho hsettings hlevel hne_empty hne⟩

theorem front_ends_agree_sum :
    Level.ofText Settings.defaults.logLevel = .ok .info ∧ 0 < "1 + 2".length ∧
      "1 + 2".length ≤ Settings.defaults.maxExpressionLength ∧
      ∃ o, (Settings.defaults.calculator.explain "1 + 2").outcome = .ok o ∧
        Service.ofSettings Settings.defaults = .ok ⟨Settings.defaults, .info⟩ ∧
        (∃ json, (Service.handle ⟨Settings.defaults, .info⟩ ⟨"POST", "/evaluate",
            .json (.object [("expression", .string "1 + 2"), ("explain", .bool true)])⟩).outcome =
              .ok (.ok json) ∧
          Service.Shows json o true) ∧
        (∃ response, (Service.handle ⟨Settings.defaults, .info⟩ ⟨"POST", "/problems/answer",
            .json (.object [("type", .string "expression"),
              ("problemText", .string "1 + 2")])⟩).outcome = .ok response ∧
          Service.TellsKey response "1 + 2" o) ∧
        (∃ code output errors, Console.run {} ["eval", "--text=" ++ "1 + 2"] =
            .ok (.finished code output errors) ∧ Console.PrintsAnswer code output o) ∧
        ∃ code output errors, Console.run {} ["steps", "--text=" ++ "1 + 2"] =
            .ok (.finished code output errors) ∧ Console.PrintsSteps code output o := by
  have hlevel : Level.ofText Settings.defaults.logLevel = .ok .info :=
    toOption_eq_some (by decide +kernel)
  obtain ⟨o, ho, hservice, hevaluate, hkey, hconsole, -⟩ :=
    front_ends_agree hlevel (by decide : 0 < "1 + 2".length) (by decide)
  obtain ⟨heval, hsteps⟩ := hconsole {} (by decide) rfl
  exact ⟨hlevel, by decide, by decide, o, ho, hservice (by decide) (by decide),
    hevaluate _ _ true rfl rfl rfl, hkey _ _ rfl rfl rfl, heval, hsteps⟩

/-- Behind `--text=` the command line loses `--` and evaluates its input instead. -/
theorem front_ends_separator :
    (∃ o, (Settings.defaults.calculator.explain "--").outcome = .ok o ∧ o.ok = false) ∧
      Console.run { standardInput := "1+1" } ["eval", "--text=--"] =
        .ok (.finished 0 "2\n" "") := by
  constructor
  · have hfailed : (Settings.defaults.calculator.explain "--").outcome.toOption.map Outcome.ok =
        some false := by decide +kernel
    obtain ⟨o, ho, hfalse⟩ := Option.map_eq_some_iff.mp hfailed
    exact ⟨o, toOption_eq_some ho, hfalse⟩
  · exact toOption_eq_some (by decide +kernel)

end Abacus
