import Mathlib.Data.List.Induction
import Abacus.Proofs.DotenvText

/-!
# Names in any letter case

Whatever list it is that holds a name once, reading the name from either end gives its value. The
variables of a `.env` file keep the values of its text, so that each name depends on the entries of
that name alone. This is all that the settings rely on of a loader and of a reader of such files.
-/

namespace Abacus

theorem lowerCase_lowerCase (text : String) : lowerCase (lowerCase text) = lowerCase text := by
  have hchar : ∀ c : Char, c.toLower.toLower = c.toLower := by
    intro c
    delta Char.toLower
    grind
  simp [lowerCase, Function.comp_def, hchar]

namespace Settings

/-! ## Named entries -/

/-- The entries with this name in any letter case; `name` is in lower case. -/
def named {α : Type} (entries : List (String × α)) (name : String) : List (String × α) :=
  entries.filter fun entry => lowerCase entry.1 == name

/-- The name has this value, in one letter case or another. -/
def Names {α : Type} (entries : List (String × α)) (name : String) (value : α) : Prop :=
  ∃ entry ∈ entries, lowerCase entry.1 = name ∧ entry.2 = value

/-- No two entries have this name, up to letter case. -/
def NamedOnce {α : Type} (entries : List (String × α)) (name : String) : Prop :=
  (named entries name).length ≤ 1

instance {α : Type} (entries : List (String × α)) (name : String) :
    Decidable (NamedOnce entries name) :=
  inferInstanceAs (Decidable (_ ≤ 1))

section
variable {α : Type} {entries : List (String × α)} {name : String} {value : α}

theorem names_iff : Names entries name value ↔ value ∈ (named entries name).map (·.2) := by
  simp only [Names, named, List.mem_map, List.mem_filter, beq_iff_eq, and_assoc]

theorem not_names (h : named entries name = []) (value : α) : ¬ Names entries name value := by
  rw [names_iff, h]
  exact List.not_mem_nil

theorem NamedOnce.cases (h : NamedOnce entries name) :
    named entries name = [] ∨ ∃ entry, named entries name = [entry] := by
  unfold NamedOnce at h
  cases hnamed : named entries name with
  | nil => exact .inl rfl
  | cons entry rest =>
    rw [hnamed, List.length_cons] at h
    obtain rfl : rest = [] := List.eq_nil_of_length_eq_zero (by omega)
    exact .inr ⟨entry, rfl⟩

end

theorem named_concat {α : Type} (entries : List (String × α)) (entry : String × α) (name : String) :
    named (entries ++ [entry]) name =
      named entries name ++ if lowerCase entry.1 == name then [entry] else [] := by
  rw [named, List.filter_append, List.filter_singleton]
  cases lowerCase entry.1 == name <;> rfl

theorem find?_named {α : Type} (entries : List (String × α)) (name : String) :
    (entries.find? fun entry => lowerCase entry.1 == name) = (named entries name).head? :=
  (List.head?_filter ..).symm

theorem value?_iff {entries : Variables} {name value : String} (h : NamedOnce entries name) :
    entries.value? name = some value ↔ Names entries name value := by
  have hfind : entries.value? name = (named entries name).getLast?.map (·.2) := by
    unfold Variables.value?
    rw [find?_named, named, List.filter_reverse, List.head?_reverse]
    rfl
  rw [hfind, names_iff]
  rcases h.cases with hnil | ⟨entry, hone⟩
  · simp [hnil]
  · simp [hone, eq_comm]

theorem override?_iff {overrides : List (String × Json)} {field : Field} {raw : Json}
    (h : NamedOnce overrides field.name) :
    override? overrides field = some raw ↔ Names overrides field.name raw := by
  unfold override?
  rw [find?_named, names_iff]
  rcases h.cases with hnil | ⟨entry, hone⟩
  · simp [hnil]
  · have hlookup : Json.lookup? overrides entry.1 = some entry.2 := by
      have hentry : entry ∈ named overrides field.name := by simp [hone]
      obtain ⟨hmem, hname⟩ := List.mem_filter.mp hentry
      unfold Json.lookup?
      cases hfind : overrides.reverse.find? fun member => member.1 == entry.1 with
      | none =>
        have hnone := List.find?_eq_none.mp hfind entry (List.mem_reverse.mpr hmem)
        simp at hnone
      | some other =>
        have hsame : other.1 = entry.1 := by simpa using List.find?_some hfind
        have hother : other ∈ named overrides field.name := by
          refine List.mem_filter.mpr ⟨List.mem_reverse.mp (List.mem_of_find?_eq_some hfind), ?_⟩
          rw [hsame]
          exact hname
        obtain rfl : other = entry := by simpa [hone] using hother
        rfl
    simp [hone, hlookup, eq_comm]

namespace Dotenv

open Text

/-! ## What a file keeps -/

/-- A value without a reference is kept as it is. -/
theorem expand_eq_self (valueOf? : List Char → Option (List Char)) (cs : List Char)
    (h : ¬ ['$', '{'] <:+: cs) : expand valueOf? cs = cs := by
  induction cs with
  | nil => rw [expand]
  | cons c cs ih =>
    have hrest : ¬ ['$', '{'] <:+: cs := fun hinfix => h (List.infix_cons hinfix)
    rw [expand, ih hrest]
    rintro rest rfl rfl
    exact h (List.prefix_append ['$', '{'] rest).isInfix

def hasName (name : String) (entry : Entry) : Bool := lowerCase (String.ofList entry.name) == name

theorem setEntry_cons (entry other : Entry) (rest : List Entry) :
    setEntry entry (other :: rest) =
      if other.name == entry.name then entry :: rest else other :: setEntry entry rest := rfl

theorem filter_setEntry (name : String) (entry : Entry) (entries : List Entry) :
    (setEntry entry entries).filter (hasName name) =
      if hasName name entry then setEntry entry (entries.filter (hasName name))
      else entries.filter (hasName name) := by
  induction entries with
  | nil => cases h : hasName name entry <;> simp [setEntry, h]
  | cons other rest ih =>
    rw [setEntry_cons]
    by_cases hsame : other.name == entry.name
    · have hname : hasName name other = hasName name entry := by
        rw [hasName, hasName, beq_iff_eq.mp hsame]
      rw [if_pos hsame]
      cases h : hasName name entry <;> simp [h, hname, setEntry_cons, hsame]
    · rw [if_neg hsame, List.filter_cons, List.filter_cons, ih]
      cases hname : hasName name entry <;> cases hother : hasName name other <;>
        simp [setEntry_cons, hsame]

/-- The entries of a file once all of it is read. -/
def stored (entries : Variables) : List Entry :=
  (entries.map Entry.ofPair).foldl (fun found entry => setEntry entry found) []

theorem stored_concat (entries : Variables) (entry : String × String) :
    stored (entries ++ [entry]) = setEntry (Entry.ofPair entry) (stored entries) := by
  simp [stored]

theorem foldl_addEntry (environment entries : Variables)
    (h : ∀ entry ∈ entries, ¬ ['$', '{'] <:+: entry.2.toList) :
    (entries.map Entry.ofPair).foldl (addEntry environment) [] = stored entries := by
  induction entries using List.reverseRecOn with
  | nil => rfl
  | append_singleton entries entry ih =>
    rw [List.forall_mem_append, List.forall_mem_singleton] at h
    rw [List.map_append, List.foldl_append, ih h.1, stored_concat]
    simp [addEntry, Entry.ofPair, expand_eq_self _ _ h.2]

theorem filter_stored (entries : Variables) (name : String) :
    (stored entries).filter (hasName name) = stored (named entries name) := by
  induction entries using List.reverseRecOn with
  | nil => rfl
  | append_singleton entries entry ih =>
    have hname : hasName name (Entry.ofPair entry) = (lowerCase entry.1 == name) := by
      simp [hasName, Entry.ofPair]
    rw [stored_concat, filter_setEntry, ih, hname, named_concat]
    split
    · rw [stored_concat]
    · rw [List.append_nil]

theorem variablesOf_concat (entries : List Entry) (entry : Entry) :
    variablesOf (entries ++ [entry]) =
      (variablesOf entries).filter (fun other => other.1 != lowerCase (String.ofList entry.name)) ++
        (entry.value?.map fun value =>
          (lowerCase (String.ofList entry.name), String.ofList value)).toList := by
  unfold variablesOf
  rw [List.foldl_append]
  cases hvalue : entry.value? with
  | none => simp [hvalue]
  | some value => simp [hvalue]

theorem lowerCase_of_mem_variablesOf (entries : List Entry) :
    ∀ kept ∈ variablesOf entries, lowerCase kept.1 = kept.1 := by
  induction entries using List.reverseRecOn with
  | nil => simp [variablesOf]
  | append_singleton entries entry ih =>
    intro kept hkept
    rw [variablesOf_concat, List.mem_append] at hkept
    rcases hkept with hkept | hkept
    · exact ih kept (List.mem_of_mem_filter hkept)
    · simp only [Option.mem_toList, Option.map_eq_some_iff] at hkept
      obtain ⟨value, -, rfl⟩ := hkept
      exact lowerCase_lowerCase _

/-- The last entry of a name decides. -/
theorem named_variablesOf (entries : List Entry) (name : String) :
    named (variablesOf entries) name =
      (((entries.filter (hasName name)).getLast?.bind (·.value?)).map
        fun value => (name, String.ofList value)).toList := by
  induction entries using List.reverseRecOn with
  | nil => rfl
  | append_singleton entries entry ih =>
    have hlower := lowerCase_of_mem_variablesOf entries
    rw [variablesOf_concat, named, List.filter_append, List.filter_filter, List.filter_append]
    cases hname : hasName name entry with
    | true =>
      obtain rfl : lowerCase (String.ofList entry.name) = name := beq_iff_eq.mp hname
      have hothers : (variablesOf entries).filter (fun other =>
          lowerCase other.1 == lowerCase (String.ofList entry.name) &&
            other.1 != lowerCase (String.ofList entry.name)) = [] := by
        refine List.filter_eq_nil_iff.mpr fun other hother => ?_
        simp [hlower other hother]
      rw [hothers]
      cases hvalue : entry.value? with
      | none => simp [hname, hvalue]
      | some value => simp [hname, hvalue, lowerCase_lowerCase]
    | false =>
      have hne : lowerCase (String.ofList entry.name) ≠ name := by
        simpa [hasName] using hname
      have hothers : (variablesOf entries).filter (fun other =>
          lowerCase other.1 == name && other.1 != lowerCase (String.ofList entry.name)) =
          named (variablesOf entries) name := by
        refine List.filter_congr fun other hother => ?_
        by_cases hother' : other.1 = name
        · simp [hother', hne.symm]
        · simp [hlower other hother, hother']
      rw [hothers, ih]
      cases entry.value? with
      | none => simp [hname]
      | some value => simp [hname, hne, lowerCase_lowerCase]

/-- A file keeps its entries, with their names in lower case. -/
theorem read_values (environment : Variables) {entries : Variables} {text : String}
    (h : File (foldLineEnds text.toList) entries) :
    (read environment text).values = variablesOf (stored entries) := by
  have hentries := entriesOf_statements h (foldLineEnds text.toList).length 1 [] (by simp) (by simp)
  rw [List.nil_append] at hentries
  have hmark : ∀ cs, text.toList ≠ '\ufeff' :: cs := by
    intro cs heq
    rw [heq] at h
    exact h.unmarked rfl
  unfold read
  split
  · rename_i cs heq
    exact absurd heq (hmark cs)
  · rw [← foldl_addEntry environment entries h.unreferenced, ← hentries]
    rfl

theorem named_read (environment : Variables) {entries : Variables} {text name : String}
    (h : File (foldLineEnds text.toList) entries) (hone : NamedOnce entries name) :
    named (read environment text).values name =
      (named entries name).map fun entry => (name, entry.2) := by
  rw [read_values environment h, named_variablesOf, filter_stored]
  rcases hone.cases with hnil | ⟨entry, hentry⟩
  · simp [hnil, stored]
  · simp [hentry, stored, setEntry, Entry.ofPair]

/-! ## Readers -/

/-- What the settings rely on of a reader of `.env` files: of a field that a file names once, up to
letter case, it keeps what the file says. -/
def ReadsFiles (read : Variables → String → Variables) : Prop :=
  ∀ environment text entries, File (foldLineEnds text.toList) entries → ∀ field : Field,
    NamedOnce entries field.variableName →
      NamedOnce (read environment text) field.variableName ∧
      ∀ value, Names (read environment text) field.variableName value ↔
        Names entries field.variableName value

/-- The variables of a file. -/
def fileVariables (environment : Variables) (text : String) : Variables :=
  (read environment text).values

theorem readsFiles_fileVariables : ReadsFiles fileVariables := by
  intro environment text entries h field hone
  have hnamed := named_read environment h hone
  refine ⟨?_, fun value => ?_⟩
  · rw [NamedOnce, fileVariables, hnamed, List.length_map]
    exact hone
  · rw [names_iff, names_iff, fileVariables, hnamed, List.map_map]
    rfl

end Dotenv

/-! ## Loaders -/

/-- What the settings rely on of a loader. Whether letter case counts in the name of an override is
left open. -/
structure Loader.Lawful (l : Loader) : Prop where
  isOverrideOf_name (field : Field) : l.isOverrideOf field.name field
  lowerCase_of_isOverrideOf {name : String} {field : Field} (h : l.isOverrideOf name field) :
    lowerCase name = field.name
  ofOverrides_iff {overrides : List (String × Json)} {field : Field} {raw : Json}
    (h : NamedOnce overrides field.name) :
    l.ofOverrides overrides field = some raw ↔
      ∃ entry ∈ overrides, l.isOverrideOf entry.1 field ∧ entry.2 = raw
  ofVariables_iff {entries : Variables} {field : Field} {text : String}
    (h : NamedOnce entries field.variableName) :
    l.ofVariables entries field = some text ↔ Names entries field.variableName text
  /-- Overrides come before the environment, and the environment before the file. -/
  merge_eq (overrides : Found Json) (environment dotenv : Found String) (field : Field) :
    l.merge overrides environment dotenv field =
      (overrides field <|> (environment field).map .string <|> (dotenv field).map .string)
  bool_true : l.bool (.bool true) = .ok true

theorem Loader.standard_lawful : Loader.standard.Lawful where
  isOverrideOf_name := fun field => by cases field <;> decide
  lowerCase_of_isOverrideOf := beq_iff_eq.mp
  ofOverrides_iff := fun h => by simpa [Loader.standard, Names] using override?_iff h
  ofVariables_iff := value?_iff
  merge_eq := fun _ _ _ _ => rfl
  bool_true := rfl

end Settings

end Abacus
