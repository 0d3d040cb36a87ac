import Mathlib.Tactic.Choose
import Abacus.Console
import Abacus.Proofs.Traced
import Abacus.Proofs.Sources

/-!
# The settings field by field

A configuration says for each field at most once in each source what it is to be. Each field then
takes the value that wins for it, and complains of that value if it does not fit, whatever the other
fields are. This holds of every lawful loader with every reader of `.env` files.
-/

namespace Abacus.Settings

/-! ## Fields -/

theorem Field.mem_all (field : Field) : field ∈ Field.all := by
  cases field <;> decide

theorem complaint?_eq_some_iff {α : Type} {x : Except Complaint α} {complaint : Complaint} :
    complaint? x = some complaint ↔ x = .error complaint := by
  cases x <;> simp [complaint?]

theorem Field.objection_inj {field field' : Field} {issue issue' : Issue}
    (h : field.objection issue = field'.objection issue') : field = field' ∧ issue = issue' := by
  obtain ⟨hissue, hplace⟩ := Complaint.mk.inj h
  refine ⟨?_, hissue⟩
  have hname : field.name = field'.name := by simpa using hplace
  revert hname
  cases field <;> cases field' <;> decide

/-! ## Loading -/

namespace Loader

variable {l : Loader} {sources : Sources} {field : Field}

theorem field_eq_ok_iff {value : field.Value} :
    l.field sources field = .ok value ↔
      l.raw sources field = none ∧ value = defaults.get field ∨
        ∃ raw, l.raw sources field = some raw ∧ l.coerce field raw = .ok value := by
  unfold Loader.field
  cases l.raw sources field with
  | none => simp [eq_comm]
  | some raw => cases h : l.coerce field raw <;> simp [h]

theorem field_eq_error_iff {complaint : Complaint} :
    l.field sources field = .error complaint ↔
      ∃ raw issue, l.raw sources field = some raw ∧ l.coerce field raw = .error issue ∧
        complaint = field.objection issue := by
  unfold Loader.field
  cases l.raw sources field with
  | none => simp
  | some raw => cases h : l.coerce field raw <;> simp [h, Field.objection, eq_comm]

theorem load_eq_ok_iff {s : Settings} :
    l.load sources = .ok s ↔ ∀ field, l.field sources field = .ok (s.get field) := by
  constructor
  · intro h field
    unfold load at h
    split at h
    · rename_i hoperands hcharacters hanswer hlength hlevel htitle hversion
      obtain rfl := Except.ok.inj h
      cases field with
      | strictOperands => exact hoperands
      | strictCharacters => exact hcharacters
      | riddleAnswer => exact hanswer
      | maxExpressionLength => exact hlength
      | logLevel => exact hlevel
      | appTitle => exact htitle
      | appVersion => exact hversion
    · cases h
  · intro h
    simp only [load, h]
    rfl

theorem load_eq_error {complaints : List Complaint} (h : l.load sources = .error complaints) :
    complaints = Field.all.filterMap fun field => complaint? (l.field sources field) := by
  unfold load at h
  split at h
  · cases h
  · obtain rfl := Except.error.inj h
    rfl

theorem mem_complaints_iff {complaints : List Complaint} (h : l.load sources = .error complaints)
    (issue : Issue) :
    field.objection issue ∈ complaints ↔
      ∃ raw, l.raw sources field = some raw ∧ l.coerce field raw = .error issue := by
  rw [load_eq_error h, List.mem_filterMap]
  constructor
  · rintro ⟨other, -, hother⟩
    obtain ⟨raw, issue', hraw, hissue, hsame⟩ :=
      field_eq_error_iff.mp (complaint?_eq_some_iff.mp hother)
    obtain ⟨rfl, rfl⟩ := Field.objection_inj hsame
    exact ⟨raw, hraw, hissue⟩
  · rintro ⟨raw, hraw, hissue⟩
    refine ⟨field, field.mem_all, complaint?_eq_some_iff.mpr ?_⟩
    exact field_eq_error_iff.mpr ⟨raw, issue, hraw, hissue, rfl⟩

theorem objection_of_mem {complaints : List Complaint} (h : l.load sources = .error complaints)
    {complaint : Complaint} (hmem : complaint ∈ complaints) :
    ∃ field issue, complaint = Field.objection field issue := by
  rw [load_eq_error h] at hmem
  obtain ⟨field, -, hfield⟩ := List.mem_filterMap.mp hmem
  obtain ⟨raw, issue, -, -, rfl⟩ := field_eq_error_iff.mp (complaint?_eq_some_iff.mp hfield)
  exact ⟨field, issue, rfl⟩

/-- Complaints come in the order of the fields, no more than one of each. -/
theorem complaints_sublist {complaints : List Complaint} (h : l.load sources = .error complaints) :
    (complaints.map (·.location)).Sublist (Field.all.map fun field => [.name field.name]) := by
  have hlocation : ∀ field : Field, ∀ complaint ∈ complaint? (l.field sources field),
      complaint.location = [.name field.name] := by
    intro field complaint hcomplaint
    obtain ⟨raw, issue, -, -, rfl⟩ :=
      field_eq_error_iff.mp (complaint?_eq_some_iff.mp hcomplaint)
    rfl
  rw [load_eq_error h]
  induction Field.all with
  | nil => simp
  | cons field fields ih =>
    rw [List.filterMap_cons, List.map_cons]
    cases hfield : complaint? (l.field sources field) with
    | none => exact ih.cons _
    | some complaint =>
      rw [List.map_cons, hlocation field complaint hfield]
      exact ih.cons_cons _

end Loader

/-! ## Configurations -/

/-- Overrides, an environment and the text of a `.env` file. Each says one thing of a field, or
nothing. -/
structure Configuration where
  overrides : List (String × Json)
  environment : Variables
  text : String
  /-- What the text says. -/
  entries : Variables
  written : Dotenv.File (Text.foldLineEnds text.toList) entries
  overridesOnce : ∀ field : Field, NamedOnce overrides field.name
  environmentOnce : ∀ field : Field, NamedOnce environment field.variableName
  entriesOnce : ∀ field : Field, NamedOnce entries field.variableName

namespace Configuration

def sources (c : Configuration) (read : Variables → String → Variables) : Sources :=
  ⟨c.overrides, c.environment, read c.environment c.text⟩

/-- An override gives the field this raw value. -/
def Overrides (c : Configuration) (l : Loader) (field : Field) (raw : Json) : Prop :=
  ∃ entry ∈ c.overrides, l.isOverrideOf entry.1 field ∧ entry.2 = raw

/-- The raw value that comes first for a field. -/
inductive Wins (c : Configuration) (l : Loader) (field : Field) : Json → Prop
  | override {raw : Json} (h : c.Overrides l field raw) : Wins c l field raw
  | variable {text : String} (hoverride : ∀ raw, ¬ c.Overrides l field raw)
      (h : Names c.environment field.variableName text) : Wins c l field (.string text)
  | entry {text : String} (hoverride : ∀ raw, ¬ c.Overrides l field raw)
      (hvariable : ∀ text, ¬ Names c.environment field.variableName text)
      (h : Names c.entries field.variableName text) : Wins c l field (.string text)

/-- The value that a field takes. -/
inductive Gives (c : Configuration) (l : Loader) (field : Field) : field.Value → Prop
  | default (h : ∀ raw, ¬ c.Wins l field raw) : Gives c l field (defaults.get field)
  | coerced {raw : Json} {value : field.Value} (h : c.Wins l field raw)
      (hvalue : l.coerce field raw = .ok value) : Gives c l field value

/-- The settings are refused, and this is among what is told of them. -/
def Objects (c : Configuration) (l : Loader) (read : Variables → String → Variables)
    (field : Field) (issue : Issue) : Prop :=
  ∃ complaints, l.load (c.sources read) = .error complaints ∧ field.objection issue ∈ complaints

/-- What the two say of one field is the same. -/
structure Agrees (c : Configuration) (l : Loader) (c' : Configuration) (field : Field) : Prop where
  overrides : ∀ raw, c.Overrides l field raw ↔ c'.Overrides l field raw
  environment : ∀ text, Names c.environment field.variableName text ↔
    Names c'.environment field.variableName text
  entries : ∀ text, Names c.entries field.variableName text ↔
    Names c'.entries field.variableName text

section
variable {l : Loader} {c c' : Configuration} {field : Field}

theorem Agrees.symm (h : c.Agrees l c' field) : c'.Agrees l c field where
  overrides := fun raw => (h.overrides raw).symm
  environment := fun text => (h.environment text).symm
  entries := fun text => (h.entries text).symm

theorem Agrees.wins (h : c.Agrees l c' field) {raw : Json} (hraw : c.Wins l field raw) :
    c'.Wins l field raw := by
  rcases hraw with hraw | ⟨hnone, hraw⟩ | ⟨hnone, hunset, hraw⟩
  · exact .override ((h.overrides _).mp hraw)
  · exact .variable (by simpa [h.overrides] using hnone) ((h.environment _).mp hraw)
  · exact .entry (by simpa [h.overrides] using hnone) (by simpa [h.environment] using hunset)
      ((h.entries _).mp hraw)

theorem Agrees.wins_iff (h : c.Agrees l c' field) (raw : Json) :
    c.Wins l field raw ↔ c'.Wins l field raw := ⟨h.wins, h.symm.wins⟩

theorem Agrees.gives (h : c.Agrees l c' field) {value : field.Value}
    (hvalue : c.Gives l field value) : c'.Gives l field value := by
  cases hvalue with
  | default hnone => exact .default (by simpa [h.wins_iff] using hnone)
  | coerced hraw hvalue => exact .coerced (h.wins hraw) hvalue

theorem exists_gives (h : ∀ raw, c.Wins l field raw → ∃ value, l.coerce field raw = .ok value) :
    ∃ value, c.Gives l field value := by
  by_cases hwins : ∃ raw, c.Wins l field raw
  · obtain ⟨raw, hraw⟩ := hwins
    obtain ⟨value, hvalue⟩ := h raw hraw
    exact ⟨value, .coerced hraw hvalue⟩
  · exact ⟨defaults.get field, .default (not_exists.mp hwins)⟩

end

section
variable {l : Loader} (hl : l.Lawful) {read : Variables → String → Variables}
  (hread : Dotenv.ReadsFiles read) {c : Configuration} {field : Field}
include hl hread

theorem raw_eq_some_iff {raw : Json} :
    l.raw (c.sources read) field = some raw ↔ c.Wins l field raw := by
  have hoverride : ∀ raw, l.ofOverrides c.overrides field = some raw ↔ c.Overrides l field raw :=
    fun _ => hl.ofOverrides_iff (c.overridesOnce field)
  have hvariable : ∀ text, l.ofVariables c.environment field = some text ↔
      Names c.environment field.variableName text :=
    fun _ => hl.ofVariables_iff (c.environmentOnce field)
  obtain ⟨hkept, hnames⟩ :=
    hread c.environment c.text c.entries c.written field (c.entriesOnce field)
  have hentry : ∀ text, l.ofVariables (read c.environment c.text) field = some text ↔
      Names c.entries field.variableName text :=
    fun text => (hl.ofVariables_iff hkept).trans (hnames text)
  have hraw : l.raw (c.sources read) field = (l.ofOverrides c.overrides field
      <|> (l.ofVariables c.environment field).map .string
      <|> (l.ofVariables (read c.environment c.text) field).map .string) := hl.merge_eq ..
  rw [hraw]
  constructor
  · intro h
    cases ho : l.ofOverrides c.overrides field with
    | some first =>
      obtain rfl : first = raw := by simpa [ho] using h
      exact .override ((hoverride _).mp ho)
    | none =>
      have hnone : ∀ raw, ¬ c.Overrides l field raw := by simp [← hoverride, ho]
      cases hv : l.ofVariables c.environment field with
      | some text =>
        obtain rfl : Json.string text = raw := by simpa [ho, hv] using h
        exact .variable hnone ((hvariable _).mp hv)
      | none =>
        obtain ⟨text, he, rfl⟩ : ∃ text,
            l.ofVariables (read c.environment c.text) field = some text ∧
              Json.string text = raw := by simpa [ho, hv] using h
        exact .entry hnone (by simp [← hvariable, hv]) ((hentry _).mp he)
  · have hunset : (∀ raw, ¬ c.Overrides l field raw) →
        l.ofOverrides c.overrides field = none := by
      simp [← hoverride, Option.eq_none_iff_forall_ne_some]
    rintro (h | ⟨hnone, h⟩ | ⟨hnone, hmissing, h⟩)
    · simp [(hoverride _).mpr h]
    · simp [hunset hnone, (hvariable _).mpr h]
    · have hv : l.ofVariables c.environment field = none := by
        simpa [← hvariable, Option.eq_none_iff_forall_ne_some] using hmissing
      simp [hunset hnone, hv, (hentry _).mpr h]

theorem raw_eq_none_iff :
    l.raw (c.sources read) field = none ↔ ∀ raw, ¬ c.Wins l field raw := by
  simp [← raw_eq_some_iff hl hread, Option.eq_none_iff_forall_ne_some]

theorem field_eq_ok_iff {value : field.Value} :
    l.field (c.sources read) field = .ok value ↔ c.Gives l field value := by
  rw [Loader.field_eq_ok_iff, raw_eq_none_iff hl hread]
  constructor
  · rintro (⟨h, rfl⟩ | ⟨raw, h, hvalue⟩)
    · exact .default h
    · exact .coerced ((raw_eq_some_iff hl hread).mp h) hvalue
  · rintro (h | ⟨h, hvalue⟩)
    · exact .inl ⟨h, rfl⟩
    · exact .inr ⟨_, (raw_eq_some_iff hl hread).mpr h, hvalue⟩

theorem load_eq_ok_iff {s : Settings} :
    l.load (c.sources read) = .ok s ↔ ∀ field, c.Gives l field (s.get field) := by
  simp only [Loader.load_eq_ok_iff, field_eq_ok_iff hl hread]

theorem mem_complaints_iff {complaints : List Complaint}
    (h : l.load (c.sources read) = .error complaints) (issue : Issue) :
    field.objection issue ∈ complaints ↔
      ∃ raw, c.Wins l field raw ∧ l.coerce field raw = .error issue := by
  simp only [Loader.mem_complaints_iff h, raw_eq_some_iff hl hread]

theorem objects_iff {issue : Issue} :
    c.Objects l read field issue ↔
      ∃ raw, c.Wins l field raw ∧ l.coerce field raw = .error issue := by
  constructor
  · rintro ⟨complaints, hload, hmem⟩
    exact (mem_complaints_iff hl hread hload issue).mp hmem
  · rintro ⟨raw, hraw, hissue⟩
    have hfield := Loader.field_eq_error_iff.mpr
      ⟨raw, issue, (raw_eq_some_iff hl hread).mpr hraw, hissue, rfl⟩
    cases hload : l.load (c.sources read) with
    | ok s => simp [Loader.load_eq_ok_iff.mp hload field] at hfield
    | error complaints =>
      exact ⟨complaints, hload, (mem_complaints_iff hl hread hload issue).mpr ⟨raw, hraw, hissue⟩⟩

theorem exists_load_iff :
    (∃ s, l.load (c.sources read) = .ok s) ↔
      ∀ field raw, c.Wins l field raw → ∃ value, l.coerce field raw = .ok value := by
  constructor
  · rintro ⟨s, hs⟩ field raw hraw
    cases hcoerce : l.coerce field raw with
    | ok value => exact ⟨value, rfl⟩
    | error issue =>
      obtain ⟨complaints, hload, -⟩ := (objects_iff hl hread).mpr ⟨raw, hraw, hcoerce⟩
      cases hs.symm.trans hload
  · intro h
    choose value hvalue using fun field => exists_gives (h field)
    refine ⟨⟨value .strictOperands, value .strictCharacters, value .riddleAnswer,
      value .maxExpressionLength, value .logLevel, value .appTitle, value .appVersion⟩,
      (load_eq_ok_iff hl hread).mpr fun field => ?_⟩
    cases field <;> exact hvalue _

theorem Agrees.get_eq {c' : Configuration} (h : c.Agrees l c' field) {s s' : Settings}
    (hs : l.load (c.sources read) = .ok s) (hs' : l.load (c'.sources read) = .ok s') :
    s.get field = s'.get field := by
  have hgives := h.gives ((load_eq_ok_iff hl hread).mp hs field)
  have hfield := (field_eq_ok_iff hl hread).mpr hgives
  exact Except.ok.inj (hfield.symm.trans (Loader.load_eq_ok_iff.mp hs' field))

end

end Configuration

end Abacus.Settings

namespace Abacus.Console

open Settings

/-! ## The command line -/

/-- The options of an invocation set this field. -/
def Invocation.sets (invocation : Invocation) : Field → Bool
  | .strictOperands => invocation.strictOperands
  | .strictCharacters => invocation.strictCharacters
  | .riddleAnswer | .maxExpressionLength | .logLevel | .appTitle | .appVersion => false

theorem named_overrides (invocation : Invocation) (field : Field) :
    named (overrides invocation) field.name =
      if invocation.sets field then [(field.name, .bool true)] else [] := by
  unfold overrides Invocation.sets
  cases invocation.strictOperands <;> cases invocation.strictCharacters <;> cases field <;> rfl

section
variable {l : Loader} (hl : l.Lawful)
include hl

theorem ofOverrides_overrides (invocation : Invocation) (field : Field) :
    l.ofOverrides (overrides invocation) field =
      if invocation.sets field then some (.bool true) else none := by
  have hnamed := named_overrides invocation field
  have hone : NamedOnce (overrides invocation) field.name := by
    rw [NamedOnce, hnamed]
    split <;> simp
  -- Whether or not letter case counts, an override of the field has its name up to letter case.
  have hmem : ∀ entry ∈ overrides invocation, l.isOverrideOf entry.1 field →
      entry ∈ named (overrides invocation) field.name := fun entry hentry hfield =>
    List.mem_filter.mpr ⟨hentry, beq_iff_eq.mpr (hl.lowerCase_of_isOverrideOf hfield)⟩
  rw [hnamed] at hmem
  split
  · rename_i hsets
    have hentry : (field.name, Json.bool true) ∈ named (overrides invocation) field.name := by
      simp [hnamed, hsets]
    exact (hl.ofOverrides_iff hone).mpr
      ⟨_, List.mem_of_mem_filter hentry, hl.isOverrideOf_name field, rfl⟩
  · rename_i hsets
    refine Option.eq_none_iff_forall_ne_some.mpr fun raw hraw => ?_
    obtain ⟨entry, hentry, hfield, -⟩ := (hl.ofOverrides_iff hone).mp hraw
    simpa [hsets] using hmem entry hentry hfield

/-- An option is an override, and without it the field is loaded as if there were none. -/
theorem field_overrides (invocation : Invocation) (environment dotenv : Variables) (field : Field) :
    l.field ⟨overrides invocation, environment, dotenv⟩ field =
      if invocation.sets field then (l.coerce field (.bool true)).mapError field.objection
      else l.field ⟨[], environment, dotenv⟩ field := by
  have hfound := ofOverrides_overrides hl invocation field
  have hempty : NamedOnce ([] : List (String × Json)) field.name := Nat.zero_le 1
  have hnone : l.ofOverrides [] field = none :=
    Option.eq_none_iff_forall_ne_some.mpr fun raw => by simp [hl.ofOverrides_iff hempty]
  unfold Loader.field Loader.raw
  rw [hl.merge_eq, hl.merge_eq, hfound, hnone]
  cases invocation.sets field <;> rfl

/-- An option sets its field and never clears it. -/
theorem option_iff {s : Surroundings} {invocation : Invocation} {effective : Settings}
    {field : Field} {set : field.Value} (hset : l.coerce field (.bool true) = .ok set)
    (h : settingsOf l s invocation = .ok effective) :
    effective.get field = set ↔ invocation.sets field = true ∨
      l.field ⟨[], s.environment, s.dotenv.values⟩ field = .ok set := by
  have hfield := Loader.load_eq_ok_iff.mp (mapError_eq_ok h) field
  rw [field_overrides hl] at hfield
  cases hsets : invocation.sets field with
  | true =>
    rw [hsets, if_pos rfl, hset, mapError_ok] at hfield
    simp [Except.ok.inj hfield]
  | false =>
    rw [hsets, if_neg Bool.false_ne_true] at hfield
    simp [hfield]

end

end Abacus.Console

namespace Abacus.Settings

/-! ## All of it -/

section

open Dotenv

/-- An override masks a variable that is no number, and a variable masks an entry of the file that
is no truth value. -/
def masked : Configuration where
  overrides := [("max_expression_length", .integer 5)]
  environment := [("EXPRCALC_MAX_EXPRESSION_LENGTH", "five"), ("Exprcalc_Strict_Operands", "on")]
  text := "# x\nEXPRCALC_STRICT_OPERANDS=zzz\r\nexport exprcalc_riddle_answer = \"a b\" # x"
  entries := [("EXPRCALC_STRICT_OPERANDS", "zzz"), ("exprcalc_riddle_answer", "a b")]
  written := by
    have hoperands : IsName "EXPRCALC_STRICT_OPERANDS".toList :=
      ⟨by decide, List.all_eq_true.mp (by decide), by decide, by decide, by decide⟩
    have hanswer : IsName "exprcalc_riddle_answer".toList :=
      ⟨by decide, List.all_eq_true.mp (by decide), by decide, by decide, by decide⟩
    have hnone : LineBlanks [] := List.forall_mem_nil _
    have hspace : LineBlanks [' '] := List.forall_mem_singleton.mpr (by decide)
    have hplain : Assigns ([] ++ "zzz".toList ++ [] ++ []) "zzz".toList := by
      have hletter : ∀ c ∈ some 'z', ¬ Text.isBlank c := by
        rintro c ⟨⟩
        decide
      refine .plain hnone ⟨by decide, by decide, hletter, hletter, ?_⟩ hnone (.inl rfl)
      exact Uncommented.append_of_not_mem (by simp [Uncommented]) (by decide)
    have hquoted : Assigns ([' '] ++ '"' :: ("a b".toList ++ '"' :: ([' '] ++ "# x".toList)))
        (unescape doubleQuoteEscape? "a b".toList) := by
      refine .quoted (.inr ⟨rfl, rfl⟩) hspace ?_ (by decide) hspace (.inr ⟨rfl, by decide⟩)
      exact .char (by decide) (by decide) (.char (by decide) (by decide)
        (.char (by decide) (by decide) .nil))
    have hthird : File (_ ++ []) _ :=
      .line (.entry hnone (.inr ⟨[' '], rfl, by simp, hspace⟩) hanswer hspace hquoted (by decide))
        .file .nil
    have hsecond : File (_ ++ '\n' :: _) _ :=
      .line (.entry hnone (.inl rfl) hoperands hnone hplain (by decide)) (.line _) hthird
    have hfirst : File ([] ++ "# x".toList ++ '\n' :: _) _ :=
      .line (.comment hnone ⟨rfl, by decide⟩) (.line _) hsecond
    refine Eq.mp (congrArg₂ File ?_ ?_) hfirst
    · decide
    · decide
  overridesOnce := fun field => by cases field <;> decide
  environmentOnce := fun field => by cases field <;> decide
  entriesOnce := fun field => by cases field <;> decide

end

end Abacus.Settings
