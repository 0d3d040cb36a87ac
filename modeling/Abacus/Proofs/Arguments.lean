import Abacus.Console.Arguments
import Abacus.Proofs.Traced

/-!
# A command with its text

A text behind `--text=` may follow any arguments that are read. They are read as before, and all of
the text is taken in the place of one that they may have given, whatever it holds, but for `--`, in
whose place an empty one is taken.
-/

namespace Abacus.Console

/-! ## The option -/

/-- The text as an argument of a command. -/
def textArgument (text : String) : String := "--text=" ++ text

theorem toList_textArgument (text : String) :
    (textArgument text).toList = '-' :: '-' :: 't' :: 'e' :: 'x' :: 't' :: '=' :: text.toList := by
  simp [textArgument]

theorem splitAttached_textArgument (text : String) :
    splitAttached (textArgument text) = ("--text", some text) := by
  have hspan : (textArgument text).toList.span (· != '=') =
      (['-', '-', 't', 'e', 'x', 't'], '=' :: text.toList) := by
    rw [toList_textArgument]
    rfl
  unfold splitAttached
  rw [hspan]
  simp

/-- No option is named like it. -/
theorem named?_textArgument (flags : List Flag) (text : String) :
    named? flags (textArgument text) = none := by
  unfold named?
  rw [List.find?_eq_none]
  intro flag _
  have hne (name : String) (hname : '=' ∉ name.toList) : textArgument text ≠ name := by
    rintro rfl
    simp [toList_textArgument] at hname
  cases flag <;> simp [Flag.names, hne]

theorem classify_textArgument (flags : List Flag) (text : String) :
    classify flags (textArgument text) = classifyOther flags (textArgument text) := by
  unfold classify
  rw [toList_textArgument]
  simp only [named?_textArgument]
  rfl

/-- The program knows no such option. Whether it is plain to the program depends on the blanks in
the text, but the command has been found before it by then. -/
theorem classify_ofProgram (text : String) :
    ∃ word, classify Flag.ofProgram (textArgument text) = .ok word := by
  have hnamed : named? Flag.ofProgram "--text" = none := by decide
  have hcandidates : candidates Flag.ofProgram (textArgument text) = [] := by
    unfold candidates longCandidates
    rw [toList_textArgument]
    simp only [splitAttached_textArgument]
    rfl
  rw [classify_textArgument]
  unfold classifyOther classifyOther.ofCandidates
  rw [splitAttached_textArgument]
  simp only [hnamed, hcandidates]
  split
  · exact ⟨.plain, rfl⟩
  · exact ⟨.unknownOption, rfl⟩

theorem classify_ofCommand (text : String) :
    classify Flag.ofCommand (textArgument text) = .ok (.option .text (some text)) := by
  have hnamed : named? Flag.ofCommand "--text" = some .text := by decide
  rw [classify_textArgument]
  unfold classifyOther
  rw [splitAttached_textArgument]
  simp only [hnamed]
  rfl

/-! ## Words -/

theorem textArgument_ne_separator (text : String) : textArgument text ≠ "--" := by
  intro h
  have hlist := congrArg String.toList h
  simp [toList_textArgument] at hlist

theorem classifyAll_nil (flags : List Flag) : classifyAll flags [] = .ok [] := rfl

theorem classifyAll_cons {flags : List Flag} {argument : String} {word : Word}
    {rest : List String} {words : List (String × Word)} (hne : argument ≠ "--")
    (hword : classify flags argument = .ok word) (hwords : classifyAll flags rest = .ok words) :
    classifyAll flags (argument :: rest) = .ok ((argument, word) :: words) := by
  rw [classifyAll]
  · rw [hword, ok_bind, hwords]
    rfl
  · exact hne

/-- An argument behind others is classified by itself, unless there is a separator before it. -/
theorem classifyAll_append {flags : List Flag} {arguments : List String}
    {words : List (String × Word)} (h : classifyAll flags arguments = .ok words)
    {argument : String} (hne : argument ≠ "--") {word : Word}
    (hword : classify flags argument = .ok word) :
    ∃ word', classifyAll flags (arguments ++ [argument]) = .ok (words ++ [(argument, word')]) ∧
      ((∀ w ∈ words, w.2 ≠ .separator) → word' = word) := by
  induction arguments generalizing words with
  | nil =>
    obtain rfl := Except.ok.inj h
    exact ⟨word, classifyAll_cons hne hword (classifyAll_nil flags), fun _ => rfl⟩
  | cons first arguments ih =>
    by_cases hfirst : first = "--"
    · subst hfirst
      obtain rfl := Except.ok.inj h
      refine ⟨.plain, by simp [classifyAll], fun hnone => ?_⟩
      exact absurd rfl (hnone ("--", .separator) List.mem_cons_self)
    · rw [classifyAll] at h
      · obtain ⟨word₁, hword₁, h⟩ := bind_eq_ok h
        obtain ⟨words₁, hwords₁, h⟩ := bind_eq_ok h
        obtain rfl := Except.ok.inj h
        obtain ⟨word', hall, hsame⟩ := ih hwords₁
        refine ⟨word', classifyAll_cons hfirst hword₁ hall, fun hnone => hsame fun w hw => ?_⟩
        exact hnone w (List.mem_cons_of_mem _ hw)
      · exact hfirst

/-- An option takes along the plain word behind it, or nothing. -/
theorem takeOption_rest {command? : Option Command} {flag : Flag} {attached? value? : Option String}
    {rest rest' : List (String × Word)}
    (h : takeOption command? flag attached? rest = .ok (value?, rest')) :
    (∃ front, rest = front ++ rest' ∧ ∀ w ∈ front, w.2 = .plain) ∧
      ∀ more, takeOption command? flag attached? (rest ++ more) = .ok (value?, rest' ++ more) := by
  unfold takeOption at h ⊢
  split at h
  · cases Except.ok.inj h
    exact ⟨⟨[], rfl, by simp⟩, fun more => rfl⟩
  · split at h
    · cases Except.ok.inj h
      exact ⟨⟨[_], rfl, by simp⟩, fun more => rfl⟩
    · cases h
  · cases h
  · split at h
    · cases h
    · cases Except.ok.inj h
      exact ⟨⟨[], rfl, by simp⟩, fun more => by simp_all⟩

/-! ## Reading -/

/-- The command is found in the same place, and its arguments are one more. -/
theorem readProgram_append {fuel : Nat} {words : List (String × Word)} {given : Given}
    {command : Command} {arguments : List String}
    (h : readProgram fuel words = .ok (given, command, arguments)) (last : String × Word) :
    readProgram (fuel + 1) (words ++ [last]) = .ok (given, command, arguments ++ [last.1]) := by
  induction fuel generalizing words given with
  | zero => cases words <;> cases h
  | succ fuel ih =>
    cases words with
    | nil => cases h
    | cons first rest =>
      obtain ⟨argument, word⟩ := first
      unfold readProgram at h ⊢
      rw [List.cons_append]
      cases word with
      | option flag attached? =>
        obtain ⟨⟨value?, rest'⟩, htake, h⟩ := bind_eq_ok h
        obtain ⟨⟨given', command', arguments'⟩, hread, h⟩ := bind_eq_ok h
        cases Except.ok.inj h
        simp only [(takeOption_rest htake).2, ok_bind, ih hread]
        rfl
      | help behind => cases h
      | unknownOption =>
        obtain ⟨⟨given', command', arguments'⟩, hread, h⟩ := bind_eq_ok h
        cases Except.ok.inj h
        simp only [ok_bind, ih hread]
        rfl
      | plain =>
        simp only at h ⊢
        split at h
        · cases Except.ok.inj h
          simp
        · cases h
      | separator => cases h

/-- A separator is left over, so a command that leaves nothing over has none. -/
theorem not_separator {command : Command} {fuel : Nat} {words : List (String × Word)} {own : Given}
    (h : readCommand command fuel words = .ok own) (hfuel : words.length < fuel)
    (hothers : own.others = []) : ∀ w ∈ words, w.2 ≠ .separator := by
  -- The fuel is only a bound for the words, since an option may take one of them along.
  induction fuel generalizing words own with
  | zero => exact absurd hfuel (Nat.not_lt_zero _)
  | succ fuel ih =>
    cases words with
    | nil => exact List.forall_mem_nil _
    | cons first rest =>
      obtain ⟨argument, word⟩ := first
      rw [List.length_cons] at hfuel
      unfold readCommand at h
      cases word with
      | option flag attached? =>
        obtain ⟨⟨value?, rest'⟩, htake, h⟩ := bind_eq_ok h
        obtain ⟨own', hread, h⟩ := bind_eq_ok h
        cases Except.ok.inj h
        obtain ⟨front, rfl, hfront⟩ := (takeOption_rest htake).1
        rw [List.length_append] at hfuel
        refine List.forall_mem_cons.mpr ⟨nofun, List.forall_mem_append.mpr ⟨?_, ?_⟩⟩
        · intro w hw
          rw [hfront w hw]
          nofun
        · exact ih hread (by omega) hothers
      | help behind => cases h
      | unknownOption | plain | separator =>
        obtain ⟨own', hread, h⟩ := bind_eq_ok h
        cases Except.ok.inj h
        cases hothers

/-- The last option is read last. -/
theorem readCommand_append {command : Command} {fuel : Nat} {words : List (String × Word)}
    {own : Given} (h : readCommand command fuel words = .ok own) (hfuel : words.length < fuel)
    (argument text : String) :
    readCommand command (fuel + 1) (words ++ [(argument, .option .text (some text))]) =
      .ok { own with options := own.options ++ [(.text, some (if text == "--" then "" else text))] } := by
  induction fuel generalizing words own with
  | zero => exact absurd hfuel (Nat.not_lt_zero _)
  | succ fuel ih =>
    cases words with
    | nil =>
      cases Except.ok.inj h
      rfl
    | cons first rest =>
      obtain ⟨argument', word⟩ := first
      rw [List.length_cons] at hfuel
      rw [List.cons_append]
      unfold readCommand at h ⊢
      cases word with
      | option flag attached? =>
        obtain ⟨⟨value?, rest'⟩, htake, h⟩ := bind_eq_ok h
        obtain ⟨own', hread, h⟩ := bind_eq_ok h
        cases Except.ok.inj h
        obtain ⟨⟨front, rfl, -⟩, hmore⟩ := takeOption_rest htake
        rw [List.length_append] at hfuel
        simp only [hmore, ok_bind, ih hread (by omega)]
        rfl
      | help behind => cases h
      | unknownOption | plain | separator =>
        obtain ⟨own', hread, h⟩ := bind_eq_ok h
        cases Except.ok.inj h
        simp only [ok_bind, ih hread (by omega)]
        rfl

/-! ## Invocations -/

theorem ofGiven_append (program : Given) (command : Command) (own : Given) (text : String) :
    Invocation.ofGiven program command
        { own with options := own.options ++ [(.text, some text)] } =
      { Invocation.ofGiven program command own with text? := some text } := by
  have hoperands : (Flag.text == .strictOperands) = false := rfl
  have hcharacters : (Flag.text == .strictCharacters) = false := rfl
  simp [Invocation.ofGiven, Given.value?, Given.has, hoperands, hcharacters]

/-- A text behind arguments that are read is the text of the invocation, unless it is `--`. -/
theorem ofArguments_append {arguments : List String} {invocation : Invocation}
    (h : Invocation.ofArguments arguments = .ok invocation) (text : String) :
    Invocation.ofArguments (arguments ++ [textArgument text]) =
      .ok { invocation with text? := some (if text == "--" then "" else text) } := by
  unfold Invocation.ofArguments at h ⊢
  obtain ⟨words, hwords, h⟩ := bind_eq_ok h
  obtain ⟨⟨program, command, rest⟩, hread, h⟩ := bind_eq_ok h
  obtain ⟨commandWords, hcommandWords, h⟩ := bind_eq_ok h
  obtain ⟨own, hown, h⟩ := bind_eq_ok h
  have hne := textArgument_ne_separator text
  obtain ⟨word, hword⟩ := classify_ofProgram text
  obtain ⟨word', hall, -⟩ := classifyAll_append (mapError_eq_ok hwords) hne hword
  obtain ⟨last, hlast, hsame⟩ :=
    classifyAll_append (mapError_eq_ok hcommandWords) hne (classify_ofCommand text)
  have hprogram := readProgram_append hread (textArgument text, word')
  split at h
  · rename_i hothers
    cases Except.ok.inj h
    have hnone := not_separator hown (Nat.lt_succ_self _) (List.append_eq_nil_iff.mp hothers).2
    obtain rfl := hsame hnone
    have hcommand := readCommand_append hown (Nat.lt_succ_self _) (textArgument text) text
    rw [hall, mapError_ok, ok_bind, List.length_append, List.length_singleton, hprogram, ok_bind]
    simp only
    rw [hlast, mapError_ok, ok_bind, List.length_append, List.length_singleton, hcommand, ok_bind]
    simp only [hothers]
    rw [ofGiven_append]
    rfl
  · cases h

theorem ofArguments_command (command : Command) :
    Invocation.ofArguments [command.name] = .ok ⟨command, none, none, false, false⟩ := by
  cases command <;> rfl

end Abacus.Console
