import Abacus.Proofs.EntryPoints
import Abacus.Proofs.Fields
import Abacus.Proofs.Safety
import Abacus.Service

/-!
# Statuses of the service

Bad fields come before the length of the text, the length before the type of the problem, and the
type before the value of the expression. A request whose body is an object always has a response,
unless a value that is objected to cannot be sent back.
-/

namespace Abacus

/-! ## Problems of the calculator -/

/-- The type is not known, or the expression has no value. -/
def Calculator.LacksKey (c : Calculator) (typeName text : String) : Prop :=
  (typeName ≠ "expression" ∧ typeName ≠ "riddle") ∨
    typeName = "expression" ∧ (c.value? text).outcome = .ok none

/-- The problem is a riddle, or an expression with a value. -/
def Calculator.HasKey (c : Calculator) (typeName text : String) : Prop :=
  typeName = "riddle" ∨
    typeName = "expression" ∧ ∃ value, (c.value? text).outcome = .ok (some value)

/-- A problem has a key or a refusal, whichever its type and value ask for. -/
theorem standard_key_cases (strictOperands strictCharacters : Bool)
    (riddleAnswer typeName text : String) :
    let c := Calculator.standard strictOperands strictCharacters
    (c.LacksKey typeName text ∧ ¬ c.HasKey typeName text ∧
      ∃ refusal, (c.answerKey riddleAnswer typeName text).outcome = .ok (.error refusal)) ∨
    c.HasKey typeName text ∧ ¬ c.LacksKey typeName text ∧
      ∃ answer, (c.answerKey riddleAnswer typeName text).outcome = .ok (.ok answer) ∧
        (typeName = "riddle" → answer = riddleAnswer) := by
  intro c
  unfold Calculator.LacksKey Calculator.HasKey
  rcases ProblemType.ofName?_cases typeName with ⟨rfl, -⟩ | ⟨rfl, -⟩ | ⟨hunknown, hname⟩
  · obtain ⟨o, ho⟩ := standard_explain_ok strictOperands strictCharacters text
    have hvalue := Calculator.value?_of_explain ho
    have hkey := Calculator.answerKey_of_explain riddleAnswer ho
    unfold Outcome.answer? at hkey
    cases hfound : o.value? with
    | none =>
      rw [hfound] at hvalue hkey
      exact .inl ⟨.inr ⟨rfl, hvalue⟩, by simp [c, hvalue], _, hkey⟩
    | some value =>
      rw [hfound] at hvalue hkey
      exact .inr ⟨.inr ⟨rfl, value, hvalue⟩, by simp [c, hvalue], _, hkey, by simp⟩
  · exact .inr ⟨.inl rfl, by simp, riddleAnswer, rfl, fun _ => rfl⟩
  · have hkey := Calculator.answerKey_unknown hname c riddleAnswer text
    exact .inl ⟨.inl hunknown, by simp [hunknown], _, hkey⟩

namespace Service

/-! ## Routes -/

theorem handle_of_route {service : Service} {method address path : String} {route : Route}
    {body : Body} (hpath : Address.path address = .ok path) (hroute : route? path = some route)
    (hmethod : route.methods.contains (Text.upperCase method) = true) :
    service.handle ⟨method, address, body⟩ = service.answer route body := by
  unfold handle handleAt
  simp only [hpath, hroute, hmethod, if_true]

theorem handle_evaluate (service : Service) (body : Body) :
    service.handle ⟨"POST", "/evaluate", body⟩ = service.evaluate body := by
  have hpath : Address.path "/evaluate" = .ok "/evaluate" := toOption_eq_some (by decide +kernel)
  have hroute : route? "/evaluate" = some .evaluate := by decide +kernel
  exact handle_of_route hpath hroute (by decide +kernel)

theorem handle_answerKey (service : Service) (body : Body) :
    service.handle ⟨"POST", "/problems/answer", body⟩ = service.answerKey body := by
  have hpath : Address.path "/problems/answer" = .ok "/problems/answer" :=
    toOption_eq_some (by decide +kernel)
  have hroute : route? "/problems/answer" = some .answerKey := by decide +kernel
  exact handle_of_route hpath hroute (by decide +kernel)

/-! ## Rejections -/

/-- There is a response that is told about, unless a value that is objected to is not finite. -/
structure Sends (found : List Objection) (outcome : Except Breakdown Response)
    (Told : Response → Prop) : Prop where
  response : (∀ objection ∈ found, objection.value.isFinite = true) →
    ∃ response, outcome = .ok response ∧ Told response
  unwritable : (∃ objection ∈ found, objection.value.isFinite = false) →
    outcome = .error .unwritable

theorem sends_nil {outcome : Except Breakdown Response} {Told : Response → Prop}
    {response : Response} (hresponse : outcome = .ok response) (h : Told response) :
    Sends [] outcome Told where
  response _ := ⟨response, hresponse, h⟩
  unwritable := by simp

theorem reject_sends {found : List Objection} {Told : Response → Prop}
    (h : Told (.unprocessable (found.map (·.complaint)))) :
    Sends found (reject (.objections found)) Told where
  response hfinite := by
    have hwritable : Rejection.isWritable (.objections found) = true := List.all_eq_true.mpr hfinite
    exact ⟨_, if_pos hwritable, h⟩
  unwritable := by
    rintro ⟨objection, hmem, hinfinite⟩
    refine if_neg fun hwritable => ?_
    rw [List.all_eq_true.mp hwritable objection hmem] at hinfinite
    cases hinfinite

theorem reject_ok {found : List Objection} {response : Response}
    (h : reject (.objections found) = .ok response) :
    response = .unprocessable (found.map (·.complaint)) := by
  unfold reject at h
  split at h
  · exact (Except.ok.inj h).symm
  · cases h

/-! ## Requests that are read -/

/-- The text has more characters than the service takes. -/
def Exceeds (service : Service) (text : String) : Prop :=
  service.settings.maxExpressionLength < text.length

instance (service : Service) (text : String) : Decidable (service.Exceeds text) :=
  inferInstanceAs (Decidable (service.settings.maxExpressionLength < text.length))

/-- The response to a request, which may have been rejected. -/
def respond {α : Type} (answer : α → Except Breakdown Response) :
    Except Rejection α → Except Breakdown Response
  | .error rejection => reject rejection
  | .ok request => answer request

theorem respond_alike {α : Type} {answer : α → Except Breakdown Response}
    {x x' : Except Rejection α} (h : Alike x x') {response response' : Response}
    (hresponse : respond answer x = .ok response)
    (hresponse' : respond answer x' = .ok response') : response = response' := by
  rcases h with rfl | ⟨found, found', rfl, rfl, hcomplaints⟩
  · exact Except.ok.inj (hresponse.symm.trans hresponse')
  · rw [reject_ok hresponse, reject_ok hresponse', hcomplaints]

/-- The answer to an expression, whatever else the body held. -/
def answerEvaluation (service : Service) (request : EvaluationRequest) :
    Except Breakdown Response :=
  if service.Exceeds request.expression then .ok (service.tooLong "Expression")
  else
    ((service.settings.calculator.explain request.expression).outcome.map
      fun o => .ok (evaluationJson o request.explain)).mapError .misuse

def answerProblem (service : Service) (request : AnswerKeyRequest) : Except Breakdown Response :=
  if service.Exceeds request.problemText then .ok (service.tooLong "Problem text")
  else
    ((service.settings.calculator.answerKey service.settings.riddleAnswer request.typeName
      request.problemText).outcome.map (answerKeyResponse request.typeName)).mapError .misuse

theorem isTooLong_iff (service : Service) (text : String) :
    service.isTooLong text = true ↔ service.Exceeds text := by
  unfold isTooLong Exceeds
  exact decide_eq_true_iff

theorem evaluate_outcome (service : Service) (body : Body) :
    (service.evaluate body).outcome =
      respond service.answerEvaluation (EvaluationRequest.ofBody body) := by
  unfold evaluate
  cases EvaluationRequest.ofBody body with
  | error rejection => rfl
  | ok request =>
    simp only [respond, answerEvaluation, isTooLong_iff]
    split <;> rfl

theorem answerKey_outcome (service : Service) (body : Body) :
    (service.answerKey body).outcome =
      respond service.answerProblem (AnswerKeyRequest.ofBody body) := by
  unfold answerKey
  cases AnswerKeyRequest.ofBody body with
  | error rejection => rfl
  | ok request =>
    simp only [respond, answerProblem, isTooLong_iff]
    split <;> rfl

theorem answerEvaluation_explained {service : Service} {request : EvaluationRequest} {o : Outcome}
    (hshort : ¬ service.Exceeds request.expression)
    (ho : (service.settings.calculator.explain request.expression).outcome = .ok o) :
    service.answerEvaluation request = .ok (.ok (evaluationJson o request.explain)) := by
  unfold answerEvaluation
  rw [if_neg hshort, ho]
  rfl

theorem answerProblem_keyed {service : Service} {request : AnswerKeyRequest}
    {result : Except Refusal String} (hshort : ¬ service.Exceeds request.problemText)
    (hresult : (service.settings.calculator.answerKey service.settings.riddleAnswer
      request.typeName request.problemText).outcome = .ok result) :
    service.answerProblem request = .ok (answerKeyResponse request.typeName result) := by
  unfold answerProblem
  rw [if_neg hshort, hresult]
  rfl

/-! ## Statuses of evaluations -/

/-- How an expression is answered that could be read. -/
structure ExpressionAnswered (service : Service) (text : String) (explain : Bool)
    (response : Response) : Prop where
  tooLarge : response.status = 413 ↔ service.Exceeds text
  answered : response.status = 200 ↔ ¬ service.Exceeds text
  answer : response.status = 200 → ∃ o,
    (service.settings.calculator.explain text).outcome = .ok o ∧
      response = .ok (evaluationJson o explain)

/-- Which status an evaluation has. -/
structure EvaluationStatus (service : Service) (members : List (String × Json))
    (response : Response) : Prop where
  unprocessable : response.status = 422 ↔
    ¬ IsText (Json.lookup? members "expression") ∨
      ∃ issue, flag (Json.lookup? members "explain") = .error issue
  complaints : response.status = 422 →
    response = .unprocessable ((evaluationObjections members).map (·.complaint))
  read : ∀ text explain, Json.lookup? members "expression" = some (.string text) →
    flag (Json.lookup? members "explain") = .ok explain →
      service.ExpressionAnswered text explain response

theorem expression_answered (service : Service) (text : String) (explain : Bool) :
    ∃ response, service.answerEvaluation ⟨text, explain⟩ = .ok response ∧
      service.ExpressionAnswered text explain response := by
  by_cases hlong : service.Exceeds text
  · refine ⟨_, if_pos hlong, ?_, ?_, ?_⟩
    · simpa [tooLong, Response.message, Response.failure]
    · simpa [tooLong, Response.message, Response.failure]
    · simp [tooLong, Response.message, Response.failure]
  · obtain ⟨o, ho⟩ := standard_explain_ok service.settings.strictOperands
      service.settings.strictCharacters text
    refine ⟨_, answerEvaluation_explained hlong ho, ?_, ?_, fun _ => ⟨o, ho, rfl⟩⟩
    · simpa [Response.ok]
    · simpa [Response.ok]

/-! ## Statuses of keys -/

/-- How a problem is answered that could be read. -/
structure ProblemAnswered (service : Service) (typeName text : String) (response : Response) :
    Prop where
  tooLarge : response.status = 413 ↔ service.Exceeds text
  refused : response.status = 400 ↔
    ¬ service.Exceeds text ∧ service.settings.calculator.LacksKey typeName text
  refusal : response.status = 400 → ∃ refusal,
    (service.settings.calculator.answerKey service.settings.riddleAnswer typeName text).outcome =
        .ok (.error refusal) ∧
      response = .message 400 refusal.message
  answered : response.status = 200 ↔
    ¬ service.Exceeds text ∧ service.settings.calculator.HasKey typeName text
  answer : response.status = 200 → ∃ answer,
    (service.settings.calculator.answerKey service.settings.riddleAnswer typeName text).outcome =
        .ok (.ok answer) ∧
      response = .ok (answerKeyJson typeName answer)
  riddle : response.status = 200 → typeName = "riddle" →
    response = .ok (answerKeyJson typeName service.settings.riddleAnswer)

/-- Which status a key has. -/
structure KeyStatus (service : Service) (members : List (String × Json)) (response : Response) :
    Prop where
  unprocessable : response.status = 422 ↔
    ¬ IsText (Json.lookup? members "type") ∨ ¬ IsText (problemMember? members)
  complaints : response.status = 422 →
    response = .unprocessable ((keyObjections members).map (·.complaint))
  read : ∀ typeName text, Json.lookup? members "type" = some (.string typeName) →
    problemMember? members = some (.string text) → service.ProblemAnswered typeName text response

theorem problem_answered (service : Service) (typeName text : String) :
    ∃ response, service.answerProblem ⟨typeName, text⟩ = .ok response ∧
      service.ProblemAnswered typeName text response := by
  by_cases hlong : service.Exceeds text
  · refine ⟨_, if_pos hlong, ?_⟩
    constructor <;> simp [tooLong, Response.message, Response.failure, hlong]
  rcases standard_key_cases service.settings.strictOperands service.settings.strictCharacters
    service.settings.riddleAnswer typeName text with
    ⟨hlacks, hnot, refusal, hkey⟩ | ⟨hhas, hnot, answer, hkey, hriddle⟩
  · refine ⟨_, answerProblem_keyed hlong hkey, ?_, ?_, fun _ => ⟨refusal, hkey, rfl⟩, ?_,
      ?_, ?_⟩
    · simp [answerKeyResponse, Response.message, Response.failure, hlong]
    · simpa [answerKeyResponse, Response.message, Response.failure, hlong]
    · simpa [answerKeyResponse, Response.message, Response.failure, hlong]
    · simp [answerKeyResponse, Response.message, Response.failure]
    · simp [answerKeyResponse, Response.message, Response.failure]
  · refine ⟨_, answerProblem_keyed hlong hkey, ?_, ?_, ?_, ?_,
      fun _ => ⟨answer, hkey, rfl⟩, fun _ htype => ?_⟩
    · simp [answerKeyResponse, Response.ok, hlong]
    · simpa [answerKeyResponse, Response.ok, hlong]
    · simp [answerKeyResponse, Response.ok]
    · simpa [answerKeyResponse, Response.ok, hlong]
    · rw [hriddle htype]
      rfl

/-! ## Objects -/

theorem ExpressionAnswered.status_ne_unprocessable {service : Service} {text : String}
    {explain : Bool} {response : Response}
    (h : service.ExpressionAnswered text explain response) : response.status ≠ 422 := by
  by_cases hlong : service.Exceeds text
  · rw [h.tooLarge.mpr hlong]
    decide
  · rw [h.answered.mpr hlong]
    decide

theorem ProblemAnswered.status_ne_unprocessable {service : Service} {typeName text : String}
    {response : Response} (h : service.ProblemAnswered typeName text response) :
    response.status ≠ 422 := by
  by_cases hlong : service.Exceeds text
  · rw [h.tooLarge.mpr hlong]
    decide
  rcases standard_key_cases service.settings.strictOperands service.settings.strictCharacters
    service.settings.riddleAnswer typeName text with ⟨hlacks, -⟩ | ⟨hhas, -⟩
  · rw [h.refused.mpr ⟨hlong, hlacks⟩]
    decide
  · rw [h.answered.mpr ⟨hlong, hhas⟩]
    decide

section

variable {service : Service} {body body' : Body} {members members' : List (String × Json)}

theorem evaluate_sends (h : body.members = .ok members) :
    Sends (evaluationObjections members) (service.evaluate body).outcome
      (service.EvaluationStatus members) := by
  rw [evaluate_outcome]
  rcases EvaluationRequest.ofBody_cases h with
    ⟨text, explain, htext, hflag, hrequest⟩ | ⟨hne, hrequest⟩
  · -- Nothing is objected to, and only the length of the text is left to decide.
    obtain ⟨response, hresponse, hanswered⟩ := service.expression_answered text explain
    have hstatus := hanswered.status_ne_unprocessable
    rw [hrequest, (evaluationObjections_eq_nil_iff members).mpr ⟨⟨text, htext⟩, explain, hflag⟩]
    refine sends_nil hresponse ⟨?_, fun h => absurd h hstatus, ?_⟩
    · simp [hstatus, htext, hflag, IsText]
    · intro text' explain' htext' hflag'
      rw [htext, Option.some_inj, Json.string.injEq] at htext'
      rw [hflag, Except.ok.injEq] at hflag'
      rwa [← htext', ← hflag']
  · rw [hrequest]
    refine reject_sends ⟨iff_of_true rfl ((evaluationObjections_ne_nil_iff members).mp hne),
      fun _ => rfl, fun text explain htext hflag => absurd ?_ hne⟩
    exact (evaluationObjections_eq_nil_iff members).mpr ⟨⟨text, htext⟩, explain, hflag⟩

theorem answerKey_sends (h : body.members = .ok members) :
    Sends (keyObjections members) (service.answerKey body).outcome
      (service.KeyStatus members) := by
  rw [answerKey_outcome]
  rcases AnswerKeyRequest.ofBody_cases h with
    ⟨typeName, text, htype, htext, hrequest⟩ | ⟨hne, hrequest⟩
  · -- Nothing is objected to, and only the two texts are left to decide.
    obtain ⟨response, hresponse, hanswered⟩ := service.problem_answered typeName text
    have hstatus := hanswered.status_ne_unprocessable
    rw [hrequest, (keyObjections_eq_nil_iff members).mpr ⟨⟨typeName, htype⟩, text, htext⟩]
    refine sends_nil hresponse ⟨?_, fun h => absurd h hstatus, ?_⟩
    · simp [hstatus, htype, htext, IsText]
    · intro typeName' text' htype' htext'
      rw [htype, Option.some_inj, Json.string.injEq] at htype'
      rw [htext, Option.some_inj, Json.string.injEq] at htext'
      rwa [← htype', ← htext']
  · rw [hrequest]
    refine reject_sends ⟨iff_of_true rfl ((keyObjections_ne_nil_iff members).mp hne),
      fun _ => rfl, fun typeName text htype htext => absurd ?_ hne⟩
    exact (keyObjections_eq_nil_iff members).mpr ⟨⟨typeName, htype⟩, text, htext⟩

/-- Members that no field has are never looked at. -/
theorem evaluate_agree (h : body.members = .ok members) (h' : body'.members = .ok members')
    (hagree : Agree evaluationNames members members') {response response' : Response}
    (hresponse : (service.evaluate body).outcome = .ok response)
    (hresponse' : (service.evaluate body').outcome = .ok response') : response = response' := by
  rw [evaluate_outcome] at hresponse hresponse'
  exact respond_alike (EvaluationRequest.ofBody_alike h h' hagree) hresponse hresponse'

theorem answerKey_agree (h : body.members = .ok members) (h' : body'.members = .ok members')
    (hagree : Agree keyNames members members') {response response' : Response}
    (hresponse : (service.answerKey body).outcome = .ok response)
    (hresponse' : (service.answerKey body').outcome = .ok response') : response = response' := by
  rw [answerKey_outcome] at hresponse hresponse'
  exact respond_alike (AnswerKeyRequest.ofBody_alike h h' hagree) hresponse hresponse'

/-- A value out of range in the place of a text leaves no response. -/
theorem evaluate_unwritable (h : body.members = .ok members) {value : Json}
    (hfound : Json.lookup? members "expression" = some value) (hinfinite : value.isFinite = false) :
    ¬ IsText (Json.lookup? members "expression") ∧
      (service.evaluate body).outcome = .error .unwritable := by
  have hnot : ¬ IsText (Json.lookup? members "expression") := by
    rintro ⟨text, htext⟩
    rw [hfound, Option.some_inj] at htext
    simp [htext, Json.isFinite] at hinfinite
  refine ⟨hnot, (evaluate_sends h).unwritable
    ⟨⟨⟨.notAString, inBody (.name "expression")⟩, value⟩, ?_, hinfinite⟩⟩
  rw [hfound] at hnot
  unfold evaluationObjections
  rw [hfound]
  cases value <;> simp_all [textObjections, IsText]

end

/-- An object has a response with the status that its fields ask for, unless a value that is
objected to cannot be sent back. Other members than those of the fields make no difference. -/
theorem object_statuses (service : Service) {body : Body} {members : List (String × Json)}
    (h : body.members = .ok members) :
    Sends (keyObjections members) (service.handle ⟨"POST", "/problems/answer", body⟩).outcome
      (service.KeyStatus members) ∧
    Sends (evaluationObjections members) (service.handle ⟨"POST", "/evaluate", body⟩).outcome
      (service.EvaluationStatus members) ∧
    ∀ body' members', body'.members = .ok members' → ∀ response response',
      (Agree keyNames members members' →
        (service.handle ⟨"POST", "/problems/answer", body⟩).outcome = .ok response →
        (service.handle ⟨"POST", "/problems/answer", body'⟩).outcome = .ok response' →
          response = response') ∧
      (Agree evaluationNames members members' →
        (service.handle ⟨"POST", "/evaluate", body⟩).outcome = .ok response →
        (service.handle ⟨"POST", "/evaluate", body'⟩).outcome = .ok response' →
          response = response') := by
  simp only [handle_answerKey, handle_evaluate]
  exact ⟨answerKey_sends h, evaluate_sends h, fun body' members' h' response response' =>
    ⟨fun hagree => answerKey_agree h h' hagree, fun hagree => evaluate_agree h h' hagree⟩⟩

theorem object_statuses_riddle :
    Body.members (.json (.object [("type", .string "riddle"), ("problem_text", .string "?")])) =
        .ok [("type", .string "riddle"), ("problem_text", .string "?")] ∧
      ∃ response,
        (handle ⟨Settings.defaults, .info⟩ ⟨"POST", "/problems/answer",
          .json (.object [("type", .string "riddle"), ("problem_text", .string "?")])⟩).outcome =
            .ok response ∧
          KeyStatus ⟨Settings.defaults, .info⟩
            [("type", .string "riddle"), ("problem_text", .string "?")] response :=
  ⟨rfl, (object_statuses ⟨Settings.defaults, .info⟩ rfl).1.response (by
    rw [(keyObjections_eq_nil_iff _).mpr ⟨⟨"riddle", rfl⟩, "?", rfl⟩]
    exact List.forall_mem_nil _)⟩

/-- A number out of range is objected to, and then the response that tells it cannot be written. -/
theorem object_unwritable : ∃ members,
    Body.members (.text "\x7b\"expression\":1e999\x7d") = .ok members ∧
      ¬ IsText (Json.lookup? members "expression") ∧
      (handle ⟨Settings.defaults, .info⟩
        ⟨"POST", "/evaluate", .text "\x7b\"expression\":1e999\x7d"⟩).outcome =
          .error .unwritable := by
  -- JSON values are not compared, so that the number is only told not to be finite.
  have hread : (Body.members (.text "\x7b\"expression\":1e999\x7d")).toOption.map
      (fun members => (Json.lookup? members "expression").map Json.isFinite) =
        some (some false) := by decide +kernel
  obtain ⟨members, hmembers, hlookup⟩ := Option.map_eq_some_iff.mp hread
  obtain ⟨value, hfound, hinfinite⟩ := Option.map_eq_some_iff.mp hlookup
  have hbody := toOption_eq_some hmembers
  rw [handle_evaluate]
  exact ⟨members, hbody, evaluate_unwritable hbody hfound hinfinite⟩

end Service

end Abacus
