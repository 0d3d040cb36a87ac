import Mathlib.Data.List.Find
import Abacus.Proofs.Traced
import Abacus.Service.Request

/-!
# The fields of a request

A bad field has one objection. A request is read if it has no bad field; otherwise all objections
are told in the order of the fields.
-/

namespace Abacus.Service

/-! ## Objections -/

def objections {α : Type} : Except Objection α → List Objection
  | .ok _ => []
  | .error objection => [objection]

theorem both_cases {α β : Type} (x : Except Objection α) (y : Except Objection β) :
    (∃ a b, x = .ok a ∧ y = .ok b ∧ both x y = .ok (a, b)) ∨
      objections x ++ objections y ≠ [] ∧
        both x y = .error (.objections (objections x ++ objections y)) := by
  cases x with
  | ok a =>
    cases y with
    | ok b => exact .inl ⟨a, b, rfl, rfl, rfl⟩
    | error e => exact .inr ⟨List.cons_ne_nil _ _, rfl⟩
  | error e =>
    cases y with
    | ok b => exact .inr ⟨List.cons_ne_nil _ _, rfl⟩
    | error e' => exact .inr ⟨List.cons_ne_nil _ _, rfl⟩

/-- A field without the value that is objected to. -/
def complained {α : Type} (x : Except Objection α) : Except Complaint α :=
  x.mapError (·.complaint)

/-- Two requests are read to the same, or have the same complaints. -/
def Alike {α : Type} (x x' : Except Rejection α) : Prop :=
  x = x' ∨ ∃ found found', x = .error (.objections found) ∧ x' = .error (.objections found') ∧
    found.map (·.complaint) = found'.map (·.complaint)

/-- Where the fields have the same complaints, so does the request. -/
theorem both_alike {α β : Type} {x x' : Except Objection α} {y y' : Except Objection β}
    (hx : complained x = complained x') (hy : complained y = complained y') :
    Alike (both x y) (both x' y') := by
  unfold Alike
  cases x <;> cases x' <;> cases y <;> cases y' <;> simp_all [complained, both]

theorem Alike.bind {α β : Type} {x x' : Except Rejection α} (h : Alike x x')
    (f : α → Except Rejection β) : Alike (x >>= f) (x' >>= f) := by
  rcases h with rfl | ⟨found, found', rfl, rfl, hfound⟩
  · exact .inl rfl
  · exact .inr ⟨found, found', rfl, rfl, hfound⟩

/-! ## Texts -/

/-- What is found is a text. -/
def IsText (found? : Option Json) : Prop := ∃ text, found? = some (.string text)

/-- What is wrong with what is found where a text has to be. -/
def textObjections (members : List (String × Json)) (name : String) :
    Option Json → List Objection
  | none => [⟨⟨.missing, inBody (.name name)⟩, .object members⟩]
  | some (.string _) => []
  | some value => [⟨⟨.notAString, inBody (.name name)⟩, value⟩]

theorem textObjections_eq_nil_iff (members : List (String × Json)) (name : String)
    (found? : Option Json) : textObjections members name found? = [] ↔ IsText found? := by
  unfold IsText
  cases found? with
  | none => simp [textObjections]
  | some value => cases value <;> simp [textObjections]

section

variable (members : List (String × Json)) (name : String) (others : List String)

/-- The name under which a field is found, and its first name if it is not there. -/
def usedName : String := (nameIn? members (name :: others)).getD name

theorem requiredField_eq {α : Type} (coerce : Json → Except Issue α) :
    requiredField members name others coerce =
      match Json.lookup? members (usedName members name others) with
      | none =>
        .error ⟨⟨.missing, inBody (.name (usedName members name others))⟩, .object members⟩
      | some value => convert coerce (usedName members name others) value := rfl

theorem requiredField_text_ok_iff (text : String) :
    requiredField members name others stringOfJson = .ok text ↔
      Json.lookup? members (usedName members name others) = some (.string text) := by
  rw [requiredField_eq]
  cases Json.lookup? members (usedName members name others) with
  | none => simp
  | some value => cases value <;> simp [convert, stringOfJson]

theorem objections_requiredField_text :
    objections (requiredField members name others stringOfJson) =
      textObjections members (usedName members name others)
        (Json.lookup? members (usedName members name others)) := by
  rw [requiredField_eq]
  cases Json.lookup? members (usedName members name others) with
  | none => rfl
  | some value => cases value <;> rfl

@[simp]
theorem usedName_nil : usedName members name [] = name := by
  unfold usedName nameIn?
  rw [List.find?_cons]
  cases (Json.lookup? members name).isSome <;> rfl

/-- Of two names the first one wins. -/
theorem lookup?_usedName (other : String) :
    Json.lookup? members (usedName members name [other]) =
      (Json.lookup? members name <|> Json.lookup? members other) := by
  unfold usedName nameIn?
  rw [List.find?_cons, List.find?_cons]
  cases hfirst : Json.lookup? members name with
  | some value => exact hfirst
  | none =>
    cases hsecond : Json.lookup? members other with
    | some value => exact hsecond
    | none => exact hfirst

end

/-! ## Flags -/

/-- The flag that a member sets. It is off if the member is absent. -/
def flag : Option Json → Except Issue Bool
  | none => .ok false
  | some value => boolOfJson value

def flagObjections (name : String) (found? : Option Json) : List Objection :=
  match found?, flag found? with
  | some value, .error issue => [⟨⟨issue, inBody (.name name)⟩, value⟩]
  | _, _ => []

theorem flagObjections_eq_nil_iff (name : String) (found? : Option Json) :
    flagObjections name found? = [] ↔ ∃ isOn, flag found? = .ok isOn := by
  unfold flagObjections
  cases found? with
  | none => simp [flag]
  | some value => cases hflag : flag (some value) <;> simp

theorem optionalField_flag_ok_iff (members : List (String × Json)) (name : String) (isOn : Bool) :
    optionalField members name boolOfJson false = .ok isOn ↔
      flag (Json.lookup? members name) = .ok isOn := by
  unfold optionalField
  cases Json.lookup? members name with
  | none => simp [flag]
  | some value => cases hflag : boolOfJson value <;> simp [convert, flag, hflag]

theorem objections_optionalField_flag (members : List (String × Json)) (name : String) :
    objections (optionalField members name boolOfJson false) =
      flagObjections name (Json.lookup? members name) := by
  unfold optionalField flagObjections
  cases Json.lookup? members name with
  | none => rfl
  | some value => cases hflag : boolOfJson value <;> simp [convert, flag, hflag, objections]

/-! ## Requests -/

/-- The problem text, which has two names. -/
def problemMember? (members : List (String × Json)) : Option Json :=
  Json.lookup? members "problemText" <|> Json.lookup? members "problem_text"

def keyObjections (members : List (String × Json)) : List Objection :=
  textObjections members "type" (Json.lookup? members "type") ++
    textObjections members (usedName members "problemText" ["problem_text"])
      (problemMember? members)

def evaluationObjections (members : List (String × Json)) : List Objection :=
  textObjections members "expression" (Json.lookup? members "expression") ++
    flagObjections "explain" (Json.lookup? members "explain")

theorem keyObjections_eq_nil_iff (members : List (String × Json)) :
    keyObjections members = [] ↔
      IsText (Json.lookup? members "type") ∧ IsText (problemMember? members) := by
  rw [keyObjections, List.append_eq_nil_iff, textObjections_eq_nil_iff, textObjections_eq_nil_iff]

theorem evaluationObjections_eq_nil_iff (members : List (String × Json)) :
    evaluationObjections members = [] ↔
      IsText (Json.lookup? members "expression") ∧
        ∃ explain, flag (Json.lookup? members "explain") = .ok explain := by
  rw [evaluationObjections, List.append_eq_nil_iff, textObjections_eq_nil_iff,
    flagObjections_eq_nil_iff]

theorem keyObjections_ne_nil_iff (members : List (String × Json)) :
    keyObjections members ≠ [] ↔
      ¬ IsText (Json.lookup? members "type") ∨ ¬ IsText (problemMember? members) := by
  rw [Ne, keyObjections_eq_nil_iff, not_and_or]

theorem evaluationObjections_ne_nil_iff (members : List (String × Json)) :
    evaluationObjections members ≠ [] ↔
      ¬ IsText (Json.lookup? members "expression") ∨
        ∃ issue, flag (Json.lookup? members "explain") = .error issue := by
  rw [Ne, evaluationObjections_eq_nil_iff, not_and_or]
  cases flag (Json.lookup? members "explain") <;> simp

section

variable {body : Body} {members : List (String × Json)}

theorem AnswerKeyRequest.ofBody_cases (h : body.members = .ok members) :
    (∃ typeName text, Json.lookup? members "type" = some (.string typeName) ∧
      problemMember? members = some (.string text) ∧
      AnswerKeyRequest.ofBody body = .ok ⟨typeName, text⟩) ∨
    keyObjections members ≠ [] ∧
      AnswerKeyRequest.ofBody body = .error (.objections (keyObjections members)) := by
  have hobjections :
      objections (requiredField members "type" [] stringOfJson) ++
          objections (requiredField members "problemText" ["problem_text"] stringOfJson) =
        keyObjections members := by
    rw [objections_requiredField_text, objections_requiredField_text, lookup?_usedName,
      usedName_nil]
    rfl
  unfold AnswerKeyRequest.ofBody
  rw [h, ok_bind]
  rcases both_cases (requiredField members "type" [] stringOfJson)
    (requiredField members "problemText" ["problem_text"] stringOfJson) with
    ⟨typeName, text, htype, htext, hboth⟩ | ⟨hne, hboth⟩
  · rw [requiredField_text_ok_iff, usedName_nil] at htype
    rw [requiredField_text_ok_iff, lookup?_usedName] at htext
    exact .inl ⟨typeName, text, htype, htext, by rw [hboth]; rfl⟩
  · rw [hobjections] at hne hboth
    exact .inr ⟨hne, by rw [hboth]; rfl⟩

theorem EvaluationRequest.ofBody_cases (h : body.members = .ok members) :
    (∃ text explain, Json.lookup? members "expression" = some (.string text) ∧
      flag (Json.lookup? members "explain") = .ok explain ∧
      EvaluationRequest.ofBody body = .ok ⟨text, explain⟩) ∨
    evaluationObjections members ≠ [] ∧
      EvaluationRequest.ofBody body = .error (.objections (evaluationObjections members)) := by
  have hobjections :
      objections (requiredField members "expression" [] stringOfJson) ++
          objections (optionalField members "explain" boolOfJson false) =
        evaluationObjections members := by
    rw [objections_requiredField_text, objections_optionalField_flag, usedName_nil]
    rfl
  unfold EvaluationRequest.ofBody
  rw [h, ok_bind]
  rcases both_cases (requiredField members "expression" [] stringOfJson)
    (optionalField members "explain" boolOfJson false) with
    ⟨text, explain, htext, hexplain, hboth⟩ | ⟨hne, hboth⟩
  · rw [requiredField_text_ok_iff, usedName_nil] at htext
    rw [optionalField_flag_ok_iff] at hexplain
    exact .inl ⟨text, explain, htext, hexplain, by rw [hboth]; rfl⟩
  · rw [hobjections] at hne hboth
    exact .inr ⟨hne, by rw [hboth]; rfl⟩

theorem AnswerKeyRequest.ofBody_ok (h : body.members = .ok members) {typeName text : String}
    (htype : Json.lookup? members "type" = some (.string typeName))
    (htext : problemMember? members = some (.string text)) :
    AnswerKeyRequest.ofBody body = .ok ⟨typeName, text⟩ := by
  rcases AnswerKeyRequest.ofBody_cases h with
    ⟨typeName', text', htype', htext', hrequest⟩ | ⟨hne, -⟩
  · rw [htype, Option.some_inj, Json.string.injEq] at htype'
    rw [htext, Option.some_inj, Json.string.injEq] at htext'
    rw [hrequest, htype', htext']
  · exact absurd ((keyObjections_eq_nil_iff members).mpr ⟨⟨typeName, htype⟩, text, htext⟩) hne

theorem EvaluationRequest.ofBody_ok (h : body.members = .ok members) {text : String}
    {explain : Bool} (htext : Json.lookup? members "expression" = some (.string text))
    (hflag : flag (Json.lookup? members "explain") = .ok explain) :
    EvaluationRequest.ofBody body = .ok ⟨text, explain⟩ := by
  rcases EvaluationRequest.ofBody_cases h with
    ⟨text', explain', htext', hflag', hrequest⟩ | ⟨hne, -⟩
  · rw [htext, Option.some_inj, Json.string.injEq] at htext'
    rw [hflag, Except.ok.injEq] at hflag'
    rw [hrequest, htext', hflag']
  · exact absurd ((evaluationObjections_eq_nil_iff members).mpr
      ⟨⟨text, htext⟩, explain, hflag⟩) hne

end

/-! ## Other members -/

/-- Two objects have the same under each of the names. -/
def Agree (names : List String) (members members' : List (String × Json)) : Prop :=
  ∀ name ∈ names, Json.lookup? members name = Json.lookup? members' name

def keyNames : List String := ["type", "problemText", "problem_text"]

def evaluationNames : List String := ["expression", "explain"]

section

variable {members members' : List (String × Json)}

theorem requiredField_agree {α : Type} {name : String} {others : List String}
    (coerce : Json → Except Issue α) (h : Agree (name :: others) members members') :
    complained (requiredField members name others coerce) =
      complained (requiredField members' name others coerce) := by
  have hused : usedName members name others = usedName members' name others := by
    unfold usedName nameIn?
    rw [List.find?_congr fun n hn => congrArg Option.isSome (h n hn)]
  -- The name that is used is among those under which the objects agree.
  have hmem : usedName members' name others ∈ name :: others := by
    unfold usedName nameIn?
    cases hfound : (name :: others).find? fun n => (Json.lookup? members' n).isSome with
    | none => exact List.mem_cons_self
    | some n => exact List.mem_of_find?_eq_some hfound
  rw [requiredField_eq, requiredField_eq, hused, h _ hmem]
  cases Json.lookup? members' (usedName members' name others) <;> rfl

theorem optionalField_agree {α : Type} {name : String} (coerce : Json → Except Issue α)
    (default : α) (h : Agree [name] members members') :
    optionalField members name coerce default = optionalField members' name coerce default := by
  unfold optionalField
  rw [h name List.mem_cons_self]

/-- Requests with the same fields are read alike. -/
theorem AnswerKeyRequest.ofBody_alike {body body' : Body} (hbody : body.members = .ok members)
    (hbody' : body'.members = .ok members') (h : Agree keyNames members members') :
    Alike (AnswerKeyRequest.ofBody body) (AnswerKeyRequest.ofBody body') := by
  have htype : Agree ["type"] members members' := fun n hn => h n (by simp_all [keyNames])
  have htext : Agree ["problemText", "problem_text"] members members' :=
    fun n hn => h n (List.mem_cons_of_mem _ hn)
  unfold AnswerKeyRequest.ofBody
  rw [hbody, hbody', ok_bind, ok_bind]
  exact (both_alike (requiredField_agree stringOfJson htype)
    (requiredField_agree stringOfJson htext)).bind _

theorem EvaluationRequest.ofBody_alike {body body' : Body} (hbody : body.members = .ok members)
    (hbody' : body'.members = .ok members') (h : Agree evaluationNames members members') :
    Alike (EvaluationRequest.ofBody body) (EvaluationRequest.ofBody body') := by
  have htext : Agree ["expression"] members members' :=
    fun n hn => h n (by simp_all [evaluationNames])
  have hflag : Agree ["explain"] members members' := fun n hn => h n (List.mem_cons_of_mem _ hn)
  unfold EvaluationRequest.ofBody
  rw [hbody, hbody', ok_bind, ok_bind]
  exact (both_alike (requiredField_agree stringOfJson htext)
    (congrArg complained (optionalField_agree boolOfJson false hflag))).bind _

end

end Abacus.Service
