import Mathlib.Data.List.Basic
import Mathlib.Data.List.TakeDrop
import Mathlib.Data.List.TakeWhile
import Mathlib.Tactic.SplitIfs
import Abacus.Settings.Dotenv

/-!
# What a `.env` file says

A file is made of lines that are blank, hold a comment or set a variable. The reader takes the text
of such lines to exactly the variables that they set.
-/

namespace Abacus.Settings.Dotenv

open Text

/-! ## The written form -/

def LineBlanks (cs : List Char) : Prop := ∀ c ∈ cs, isLineBlank c

def IsComment (cs : List Char) : Prop := cs.head? = some '#' ∧ '\n' ∉ cs

/-- A name without quotes, and not the word that may stand before a name. -/
structure IsName (name : List Char) : Prop where
  nonempty : name ≠ []
  plain : ∀ c ∈ name, isNameChar c
  unquoted : name.head? ≠ some '\''
  unmarked : name.head? ≠ some '\ufeff'
  free : name ≠ "export".toList

/-- Text that can stand in quotes: a quote in it has a backslash before it. -/
inductive Quotable (quote : Char) : List Char → Prop
  | nil : Quotable quote []
  | char {c : Char} {cs : List Char} (hquote : c ≠ quote) (hescape : c ≠ '\\')
      (h : Quotable quote cs) : Quotable quote (c :: cs)
  | escape (c : Char) {cs : List Char} (h : Quotable quote cs) : Quotable quote ('\\' :: c :: cs)

/-- No blank has a `#` right behind it, which would start a comment. -/
def Uncommented (cs : List Char) : Prop :=
  ∀ before c after, cs = before ++ c :: '#' :: after → ¬ isBlank c

/-- A value without quotes, behind a gap. -/
structure IsPlain (gap value : List Char) : Prop where
  line : '\n' ∉ value
  unquoted : value.head? ≠ some '\'' ∧ value.head? ≠ some '"'
  starts : ∀ c ∈ value.head?, ¬ isBlank c
  ends : ∀ c ∈ value.getLast?, ¬ isBlank c
  uncommented : Uncommented (gap ++ value)

/-- What may stand behind the `=`, and the value that it stands for. Two forms are left out, which
not all readers of such files take alike: a comment where there is no value, and a backslash before
the closing quote. -/
inductive Assigns : List Char → List Char → Prop
  | plain {gap value blanks comment : List Char} (hgap : LineBlanks gap)
      (h : IsPlain gap value) (hblanks : LineBlanks blanks)
      (hcomment : comment = [] ∨ value ≠ [] ∧ blanks ≠ [] ∧ IsComment comment) :
      Assigns (gap ++ value ++ blanks ++ comment) value
  | quoted {gap body blanks comment : List Char} {quote : Char} {escape? : Char → Option Char}
      (hquote : quote = '\'' ∧ escape? = singleQuoteEscape? ∨
        quote = '"' ∧ escape? = doubleQuoteEscape?)
      (hgap : LineBlanks gap) (h : Quotable quote body) (hlast : body.getLast? ≠ some '\\')
      (hblanks : LineBlanks blanks) (hcomment : comment = [] ∨ IsComment comment) :
      Assigns (gap ++ quote :: (body ++ quote :: (blanks ++ comment))) (unescape escape? body)

/-- A line and the variable that it sets, if it sets one. No value refers to another one. -/
inductive Line : List Char → Option (String × String) → Prop
  | blank {cs : List Char} (h : LineBlanks cs) : Line cs none
  | comment {indent cs : List Char} (hindent : LineBlanks indent) (h : IsComment cs) :
      Line (indent ++ cs) none
  | entry {indent lead name gap cs value : List Char} (hindent : LineBlanks indent)
      (hlead : lead = [] ∨
        ∃ blanks, lead = "export".toList ++ blanks ∧ blanks ≠ [] ∧ LineBlanks blanks)
      (hname : IsName name) (hgap : LineBlanks gap) (h : Assigns cs value)
      (hvalue : ¬ ['$', '{'] <:+: value) :
      Line (indent ++ (lead ++ (name ++ (gap ++ '=' :: cs))))
        (some (String.ofList name, String.ofList value))

/-- The first text starts where a line ends, and the second one is behind that line. -/
inductive Ends : List Char → List Char → Prop
  | file : Ends [] []
  | line (cs : List Char) : Ends ('\n' :: cs) cs

/-- The lines of a file, the last one with or without an end, and the variables in order. -/
inductive File : List Char → Variables → Prop
  | nil : File [] []
  | line {line rest cs : List Char} {pair? : Option (String × String)} {entries : Variables}
      (h : Line line pair?) (hrest : Ends rest cs) (behind : File cs entries) :
      File (line ++ rest) (pair?.toList ++ entries)

/-! ## Ends of lines -/

theorem isBlank_of_isLineBlank {c : Char} (h : isLineBlank c) : isBlank c := by
  simp only [isLineBlank, Bool.and_eq_true] at h
  exact h.1

theorem skipLineBlanks_append {blanks : List Char} (h : LineBlanks blanks) (cs : List Char) :
    skipLineBlanks (blanks ++ cs) = skipLineBlanks cs :=
  List.dropWhile_append_of_pos h

theorem trimLeft_append {blanks : List Char} (h : ∀ c ∈ blanks, isBlank c) (cs : List Char) :
    trimLeft (blanks ++ cs) = trimLeft cs :=
  List.dropWhile_append_of_pos h

theorem skipLineBlanks_ends {rest after : List Char} (h : Ends rest after) :
    skipLineBlanks rest = rest := by
  cases h with
  | file => rfl
  | line cs => exact List.dropWhile_cons_of_neg (by decide)

theorem forall_ne_lineEnd {cs : List Char} (h : '\n' ∉ cs) : ∀ c ∈ cs, (c != '\n') = true := by
  intro c hc
  have hne : c ≠ '\n' := fun heq => h (heq ▸ hc)
  simpa using hne

theorem nextLine_comment {comment rest after : List Char} (hline : '\n' ∉ comment)
    (h : Ends rest after) : nextLine (comment ++ rest) = after := by
  unfold nextLine
  rw [List.dropWhile_append_of_pos (forall_ne_lineEnd hline)]
  cases h with
  | file => rfl
  | line cs => rfl

/-- Behind an entry there may be blanks and a comment. -/
theorem endOfLine?_trailer {blanks comment rest after : List Char} (hblanks : LineBlanks blanks)
    (hcomment : comment = [] ∨ IsComment comment) (h : Ends rest after) :
    endOfLine? (blanks ++ comment ++ rest) = some after := by
  unfold endOfLine?
  rw [List.append_assoc, skipLineBlanks_append hblanks]
  rcases hcomment with rfl | ⟨hhead, hline⟩
  · rw [List.nil_append, skipLineBlanks_ends h]
    cases h with
    | file => rfl
    | line cs => rfl
  · obtain ⟨comment, rfl⟩ := List.head?_eq_some_iff.mp hhead
    have hskip : skipLineBlanks ('#' :: (comment ++ rest)) = '#' :: (comment ++ rest) :=
      List.dropWhile_cons_of_neg (by decide)
    rw [List.cons_append, hskip]
    exact congrArg some (nextLine_comment (fun hmem => hline (List.mem_cons_of_mem _ hmem)) h)

/-! ## Values -/

theorem quotedPart?_cons {quote c : Char} (h : c ≠ '\\') (cs : List Char) :
    quotedPart? quote (c :: cs) =
      if c == quote then some ([], cs)
      else (quotedPart? quote cs).map fun (part, rest) => (c :: part, rest) := by
  rw [quotedPart?]
  rintro _ _ rfl
  exact absurd rfl h

theorem quotedPart?_append {quote : Char} (hquote : quote ≠ '\\') {body : List Char}
    (h : Quotable quote body) (rest : List Char) :
    quotedPart? quote (body ++ quote :: rest) = some (body, rest) := by
  induction h with
  | nil => rw [List.nil_append, quotedPart?_cons hquote, if_pos (by simp)]
  | char hne hescape h ih =>
    rw [List.cons_append, quotedPart?_cons hescape, if_neg (by simpa using hne), ih]
    rfl
  | escape c h ih =>
    simp only [List.cons_append, quotedPart?]
    rw [ih]
    rfl

theorem Uncommented.tail {c : Char} {cs : List Char} (h : Uncommented (c :: cs)) :
    Uncommented cs := by
  intro before d after heq
  exact h (c :: before) d after (by rw [heq, List.cons_append])

theorem Uncommented.append_of_not_mem {cs rest : List Char} (h : Uncommented cs)
    (hrest : '#' ∉ rest) : Uncommented (cs ++ rest) := by
  intro before c after heq
  rw [← List.singleton_append, ← List.append_assoc] at heq
  rcases List.append_eq_append_iff.mp heq with ⟨more, -, rfl⟩ | ⟨more, rfl, hmore⟩
  · simp at hrest
  · cases more with
    | nil =>
      obtain rfl : '#' :: after = rest := hmore
      simp at hrest
    | cons d more =>
      obtain rfl : '#' = d := (List.cons.inj hmore).1
      exact h before c more (by simp)

/-- What a blank in front of more blanks stands before is no comment. -/
theorem Uncommented.head?_trimLeft {c : Char} {cs : List Char} (h : Uncommented (c :: cs))
    (hc : isBlank c) : (trimLeft cs).head? ≠ some '#' := by
  induction cs generalizing c with
  | nil => simp [trimLeft]
  | cons d cs ih =>
    unfold trimLeft
    by_cases hd : isBlank d
    · rw [List.dropWhile_cons_of_pos hd]
      exact ih h.tail hd
    · rw [List.dropWhile_cons_of_neg hd]
      rintro heq
      obtain rfl : d = '#' := by simpa using heq
      exact h [] c cs rfl hc

theorem beforeComment_uncommented {cs : List Char} (h : Uncommented cs) :
    beforeComment cs = cs := by
  induction cs with
  | nil => rfl
  | cons c cs ih =>
    unfold beforeComment
    rw [ih h.tail, if_neg]
    intro hstop
    simp only [Bool.and_eq_true, beq_iff_eq] at hstop
    exact h.head?_trimLeft hstop.1 hstop.2

/-- A comment behind blanks goes with them. -/
theorem beforeComment_comment {cs blanks comment : List Char} (h : Uncommented cs)
    (hend : ∀ c ∈ cs.getLast?, ¬ isBlank c) (hblanks : ∀ c ∈ blanks, isBlank c)
    (hne : blanks ≠ []) (hcomment : comment.head? = some '#') :
    beforeComment (cs ++ (blanks ++ comment)) = cs := by
  obtain ⟨comment, rfl⟩ := List.head?_eq_some_iff.mp hcomment
  induction cs with
  | nil =>
    obtain ⟨b, blanks, rfl⟩ := List.exists_cons_of_ne_nil hne
    obtain ⟨hb, hrest⟩ := List.forall_mem_cons.mp hblanks
    rw [List.nil_append, List.cons_append, beforeComment, if_pos]
    rw [trimLeft_append hrest, hb]
    rfl
  | cons c cs ih =>
    rw [List.cons_append, beforeComment]
    cases cs with
    | nil =>
      have hc : ¬ isBlank c := hend c rfl
      rw [if_neg (by simp [hc])]
      exact congrArg _ (ih h.tail (by simp))
    | cons d cs =>
      have hlast : ∀ e ∈ (d :: cs).getLast?, ¬ isBlank e := by simpa using hend
      rw [if_neg, ih h.tail hlast]
      intro hstop
      simp only [Bool.and_eq_true, beq_iff_eq] at hstop
      -- The last character is no blank, so the blanks end before the ones in question.
      have hne : (d :: cs).dropWhile isBlank ≠ [] := by
        intro hnil
        have hall := List.dropWhile_eq_nil_iff.mp hnil
        exact hlast _ (List.getLast?_eq_some_getLast (List.cons_ne_nil d cs))
          (hall _ (List.getLast_mem _))
      have hhead : (trimLeft (d :: cs ++ (blanks ++ '#' :: comment))).head? = some '#' := hstop.2
      obtain ⟨e, rest, he⟩ := List.exists_cons_of_ne_nil hne
      apply h.head?_trimLeft hstop.1
      rw [trimLeft, List.dropWhile_append, if_neg (by simpa using hne), he] at hhead
      rwa [trimLeft, he]

theorem trimLeft_eq_self {cs : List Char} (h : ∀ c ∈ cs.head?, ¬ isBlank c) :
    trimLeft cs = cs := by
  cases cs with
  | nil => rfl
  | cons c cs => exact List.dropWhile_cons_of_neg (h c rfl)

theorem trimRight_append {cs blanks : List Char} (h : ∀ c ∈ cs.getLast?, ¬ isBlank c)
    (hblanks : ∀ c ∈ blanks, isBlank c) : trimRight (cs ++ blanks) = cs := by
  have hreverse : (cs.reverse).dropWhile isBlank = cs.reverse :=
    trimLeft_eq_self (by simpa using h)
  unfold trimRight
  rw [List.reverse_append, List.dropWhile_append_of_pos (by simpa using hblanks), hreverse,
    List.reverse_reverse]

theorem trim_append {gap value blanks : List Char} (hgap : ∀ c ∈ gap, isBlank c)
    (hstarts : ∀ c ∈ value.head?, ¬ isBlank c) (hends : ∀ c ∈ value.getLast?, ¬ isBlank c)
    (hblanks : ∀ c ∈ blanks, isBlank c) : trim (gap ++ value ++ blanks) = value := by
  unfold trim
  rw [List.append_assoc, trimLeft_append hgap]
  cases value with
  | nil =>
    rw [List.nil_append, show trimLeft blanks = [] from List.dropWhile_eq_nil_iff.mpr hblanks]
    rfl
  | cons c value => rw [trimLeft_eq_self (by simpa using hstarts), trimRight_append hends hblanks]

theorem LineBlanks.blank {blanks : List Char} (h : LineBlanks blanks) : ∀ c ∈ blanks, isBlank c :=
  fun c hc => isBlank_of_isLineBlank (h c hc)

theorem LineBlanks.line {blanks : List Char} (h : LineBlanks blanks) : '\n' ∉ blanks :=
  fun hmem => absurd (h _ hmem) (by decide)

theorem span_line {line rest after : List Char} (hline : '\n' ∉ line) (h : Ends rest after) :
    (line ++ rest).span (· != '\n') = (line, rest) := by
  have hall := forall_ne_lineEnd hline
  rw [List.span_eq_takeWhile_dropWhile, List.takeWhile_append_of_pos hall,
    List.dropWhile_append_of_pos hall]
  cases h with
  | file => simp
  | line cs => simp

theorem value?_unquoted {cs : List Char} (hsingle : (skipLineBlanks cs).head? ≠ some '\'')
    (hdouble : (skipLineBlanks cs).head? ≠ some '"') :
    value? cs =
      some (trim (beforeComment (cs.span (· != '\n')).1), (cs.span (· != '\n')).2) := by
  unfold value?
  split
  · simp_all
  · simp_all
  · rfl

/-- What is left of a line is its value, whatever blanks and comments are around it. -/
theorem trim_beforeComment {gap value blanks comment : List Char} (hgap : ∀ c ∈ gap, isBlank c)
    (h : IsPlain gap value) (hblanks : ∀ c ∈ blanks, isBlank c)
    (hcomment : comment = [] ∨ value ≠ [] ∧ blanks ≠ [] ∧ comment.head? = some '#') :
    trim (beforeComment (gap ++ value ++ blanks ++ comment)) = value := by
  rcases hcomment with rfl | ⟨hvalue, hne, hcomment⟩
  · have hhash : '#' ∉ blanks := fun hmem => absurd (hblanks _ hmem) (by decide)
    have hline := Uncommented.append_of_not_mem h.uncommented hhash
    rw [List.append_nil, beforeComment_uncommented hline]
    exact trim_append hgap h.starts h.ends hblanks
  · have hends : ∀ c ∈ (gap ++ value).getLast?, ¬ isBlank c := by
      rw [List.getLast?_append_of_ne_nil gap hvalue]
      exact h.ends
    rw [List.append_assoc (gap ++ value),
      beforeComment_comment h.uncommented hends hblanks hne hcomment]
    have htrim := trim_append hgap h.starts h.ends (List.forall_mem_nil _)
    rwa [List.append_nil] at htrim

theorem value?_plain {gap value blanks comment rest after : List Char} (hgap : LineBlanks gap)
    (h : IsPlain gap value) (hblanks : LineBlanks blanks)
    (hcomment : comment = [] ∨ value ≠ [] ∧ blanks ≠ [] ∧ IsComment comment)
    (hrest : Ends rest after) :
    value? (gap ++ value ++ blanks ++ comment ++ rest) = some (value, rest) := by
  have hcommentLine : '\n' ∉ comment := by
    rcases hcomment with rfl | ⟨-, -, hcomment⟩
    · simp
    · exact hcomment.2
  have hline : '\n' ∉ gap ++ value ++ blanks ++ comment := by
    simp [hgap.line, h.line, hblanks.line, hcommentLine]
  have hhead : ∀ quote, quote ≠ '\n' → value.head? ≠ some quote →
      (skipLineBlanks (gap ++ value ++ blanks ++ comment ++ rest)).head? ≠ some quote := by
    intro quote hend hvalue
    simp only [List.append_assoc]
    rw [skipLineBlanks_append hgap]
    cases value with
    | cons c value =>
      have hc : ¬ isLineBlank c := fun hc => h.starts c rfl (isBlank_of_isLineBlank hc)
      rw [List.cons_append, skipLineBlanks, List.dropWhile_cons_of_neg hc]
      simpa using hvalue
    | nil =>
      obtain rfl : comment = [] := hcomment.resolve_right fun hcomment => hcomment.1 rfl
      rw [List.nil_append, skipLineBlanks_append hblanks, List.nil_append,
        skipLineBlanks_ends hrest]
      cases hrest with
      | file => simp
      | line cs => simpa using hend.symm
  have hbefore := trim_beforeComment hgap.blank h hblanks.blank
    (hcomment.imp_right fun hcomment => ⟨hcomment.1, hcomment.2.1, hcomment.2.2.1⟩)
  rw [value?_unquoted (hhead _ (by decide) h.unquoted.1) (hhead _ (by decide) h.unquoted.2),
    span_line hline hrest, hbefore]

/-- A value that is written behind a `=` is read up to the end of its line. -/
theorem value?_assigns {cs value rest after : List Char} (h : Assigns cs value)
    (hrest : Ends rest after) :
    ∃ behind, value? (cs ++ rest) = some (value, behind) ∧ endOfLine? behind = some after := by
  cases h with
  | plain hgap h hblanks hcomment =>
    refine ⟨rest, value?_plain hgap h hblanks hcomment hrest, ?_⟩
    have htrailer : endOfLine? ([] ++ [] ++ rest) = some after :=
      endOfLine?_trailer (by simp [LineBlanks]) (.inl rfl) hrest
    exact htrailer
  | @quoted gap body blanks comment quote _ hquote hgap h _ hblanks hcomment =>
    refine ⟨blanks ++ comment ++ rest, ?_, endOfLine?_trailer hblanks hcomment hrest⟩
    have hskip : skipLineBlanks (gap ++ quote :: (body ++ quote :: (blanks ++ comment)) ++ rest) =
        quote :: (body ++ quote :: (blanks ++ comment ++ rest)) := by
      rw [List.append_assoc, skipLineBlanks_append hgap, List.cons_append, skipLineBlanks,
        List.dropWhile_cons_of_neg (by rcases hquote with ⟨rfl, -⟩ | ⟨rfl, -⟩ <;> decide)]
      simp
    rw [value?, hskip]
    rcases hquote with ⟨rfl, rfl⟩ | ⟨rfl, rfl⟩
    · simp only [quotedPart?_append (by decide) h]
      rfl
    · simp only [quotedPart?_append (by decide) h]
      rfl

/-! ## Lines -/

theorem span_name {name rest : List Char} (h : ∀ c ∈ name, isNameChar c)
    (hrest : ∀ c ∈ rest.head?, isNameChar c = false) :
    (name ++ rest).span isNameChar = (name, rest) := by
  rw [List.span_eq_takeWhile_dropWhile, List.takeWhile_append_of_pos h,
    List.dropWhile_append_of_pos h]
  cases rest with
  | nil => simp
  | cons c rest =>
    have hc : isNameChar c = false := hrest c rfl
    simp [hc]

theorem name?_append {name rest : List Char} (h : IsName name)
    (hrest : ∀ c ∈ rest.head?, isNameChar c = false) :
    name? (name ++ rest) = some (name, rest) := by
  have hspan := span_name h.plain hrest
  obtain ⟨c, name, rfl⟩ := List.exists_cons_of_ne_nil h.nonempty
  unfold name?
  split
  · rename_i heq
    obtain rfl : c = '\'' := (List.cons.inj heq).1
    exact absurd rfl h.unquoted
  · rw [hspan]

theorem isNameChar_of_isLineBlank {c : Char} (h : isLineBlank c) : isNameChar c = false := by
  simp [isNameChar, isBlank_of_isLineBlank h]

theorem skipExport_name {name rest : List Char} (h : IsName name)
    (hrest : ∀ c ∈ rest.head?, isNameChar c = false) :
    skipExport (name ++ rest) = name ++ rest := by
  have hspan := span_name h.plain hrest
  unfold skipExport
  split
  · rename_i c rest' heq
    split_ifs with hc
    · -- Otherwise the name would be the word itself.
      have hword : (name ++ rest).span isNameChar = ("export".toList, c :: rest') := by
        rw [heq]
        change ("export".toList ++ c :: rest').span isNameChar = _
        refine span_name (List.all_eq_true.mp (by decide)) fun d hd => ?_
        obtain rfl : c = d := Option.some.inj hd
        exact isNameChar_of_isLineBlank hc
      rw [hspan] at hword
      exact absurd (Prod.mk.inj hword).1 h.free
    · rfl
  · rfl

theorem IsName.head_not_blank {name : List Char} (h : IsName name) (rest : List Char) :
    ∀ c ∈ (name ++ rest).head?, isBlank c = false ∧ c ≠ '#' := by
  obtain ⟨c, name, rfl⟩ := List.exists_cons_of_ne_nil h.nonempty
  have hc := h.plain c List.mem_cons_self
  intro d hd
  obtain rfl : c = d := Option.some.inj hd
  simp only [isNameChar, Bool.and_eq_true, bne_iff_ne, Bool.not_eq_true'] at hc
  exact ⟨hc.2, hc.1.2⟩

theorem skipExport_export {blanks cs : List Char} (hblanks : LineBlanks blanks)
    (hne : blanks ≠ []) (h : ∀ c ∈ cs.head?, isBlank c = false) :
    skipExport ("export".toList ++ blanks ++ cs) = cs := by
  obtain ⟨b, blanks, rfl⟩ := List.exists_cons_of_ne_nil hne
  obtain ⟨hb, hrest⟩ := List.forall_mem_cons.mp hblanks
  change (if isLineBlank b then skipLineBlanks (blanks ++ cs) else _) = cs
  rw [if_pos hb, skipLineBlanks_append hrest]
  cases cs with
  | nil => rfl
  | cons c cs =>
    have hc : isBlank c = false := h c rfl
    exact List.dropWhile_cons_of_neg (by simp [isLineBlank, hc])

theorem head_gap {gap : List Char} (hgap : LineBlanks gap) (cs : List Char) :
    ∀ c ∈ (gap ++ '=' :: cs).head?, isNameChar c = false := by
  cases gap with
  | nil =>
    rintro c hc
    obtain rfl : '=' = c := Option.some.inj hc
    decide
  | cons b gap =>
    rintro c hc
    obtain rfl : b = c := Option.some.inj hc
    exact isNameChar_of_isLineBlank (hgap _ List.mem_cons_self)

theorem readEntry_entry {name gap cs value rest after : List Char} (hname : IsName name)
    (hgap : LineBlanks gap) (h : Assigns cs value) (hrest : Ends rest after) :
    readEntry (name ++ (gap ++ '=' :: (cs ++ rest))) = (.entry ⟨name, some value⟩, after) := by
  have hskip : skipLineBlanks (gap ++ '=' :: (cs ++ rest)) = '=' :: (cs ++ rest) := by
    rw [skipLineBlanks_append hgap]
    exact List.dropWhile_cons_of_neg (by decide)
  obtain ⟨behind, hvalue, hend⟩ := value?_assigns h hrest
  unfold readEntry
  rw [name?_append hname (head_gap hgap _)]
  simp only [hskip, hvalue, closeEntry, hend]

theorem readStatement_of_hash {cs rest : List Char} (h : trimLeft cs = '#' :: rest) :
    readStatement cs = (.comment, nextLine rest) := by
  have hskip : skipExport ('#' :: rest) = '#' :: rest := rfl
  unfold readStatement
  simp only [h, hskip]

theorem readStatement_of_name {cs start behind : List Char} {c d : Char}
    (h : trimLeft cs = c :: start) (hskip : skipExport (c :: start) = d :: behind)
    (hd : d ≠ '#') : readStatement cs = readEntry (d :: behind) := by
  unfold readStatement
  simp only [h, hskip]
  split
  · rename_i heq
    exact absurd (List.cons.inj heq).1 hd
  · rfl

/-- The statement of a line, with the text behind the line. -/
theorem readStatement_entry {indent lead name gap cs value rest after : List Char}
    (hindent : LineBlanks indent)
    (hlead : lead = [] ∨
      ∃ blanks, lead = "export".toList ++ blanks ∧ blanks ≠ [] ∧ LineBlanks blanks)
    (hname : IsName name) (hgap : LineBlanks gap) (h : Assigns cs value) (hrest : Ends rest after) :
    readStatement (indent ++ (lead ++ (name ++ (gap ++ '=' :: (cs ++ rest))))) =
      (.entry ⟨name, some value⟩, after) := by
  have hentry := readEntry_entry hname hgap h hrest
  have hhead := hname.head_not_blank (gap ++ '=' :: (cs ++ rest))
  have hexport : skipExport (lead ++ (name ++ (gap ++ '=' :: (cs ++ rest)))) =
      name ++ (gap ++ '=' :: (cs ++ rest)) := by
    rcases hlead with rfl | ⟨blanks, rfl, hne, hblanks⟩
    · rw [List.nil_append, skipExport_name hname (head_gap hgap _)]
    · exact skipExport_export hblanks hne fun c hc => (hhead c hc).1
  obtain ⟨c, start, hstart⟩ : ∃ c start, lead ++ (name ++ (gap ++ '=' :: (cs ++ rest))) =
      c :: start ∧ isBlank c = false := by
    rcases hlead with rfl | ⟨blanks, rfl, -, -⟩
    · obtain ⟨c, name, rfl⟩ := List.exists_cons_of_ne_nil hname.nonempty
      exact ⟨c, _, rfl, (hhead c rfl).1⟩
    · exact ⟨'e', _, rfl, by decide⟩
  have htrim : trimLeft (indent ++ (lead ++ (name ++ (gap ++ '=' :: (cs ++ rest))))) =
      c :: start := by
    rw [trimLeft_append hindent.blank, hstart.1]
    exact List.dropWhile_cons_of_neg (by simp [hstart.2])
  obtain ⟨d, name, rfl⟩ := List.exists_cons_of_ne_nil hname.nonempty
  rw [hstart.1] at hexport
  rw [readStatement_of_name htrim hexport (hhead d rfl).2]
  exact hentry

theorem readStatement_comment {indent cs rest after : List Char} (hindent : LineBlanks indent)
    (h : IsComment cs) (hrest : Ends rest after) :
    readStatement (indent ++ (cs ++ rest)) = (.comment, after) := by
  obtain ⟨cs, rfl⟩ := List.head?_eq_some_iff.mp h.1
  have htrim : trimLeft (indent ++ ('#' :: cs ++ rest)) = '#' :: (cs ++ rest) := by
    rw [trimLeft_append hindent.blank, List.cons_append]
    exact List.dropWhile_cons_of_neg (by decide)
  have hline : '\n' ∉ cs := fun hmem => h.2 (List.mem_cons_of_mem _ hmem)
  rw [readStatement_of_hash htrim, nextLine_comment hline hrest]

/-! ## Files -/

def entriesOf (found : List (Nat × Statement)) : List Entry :=
  found.filterMap fun
    | (_, .entry entry) => some entry
    | _ => none

def Entry.ofPair (pair : String × String) : Entry := ⟨pair.1.toList, some pair.2.toList⟩

@[simp]
theorem statements_nil (fuel line : Nat) : statements fuel line [] = [] := by
  cases fuel <;> rfl

theorem statements_step {cs rest : List Char} {statement : Statement} (fuel line : Nat)
    (hne : cs ≠ []) (h : readStatement cs = (statement, rest)) :
    ∃ line', statements (fuel + 1) line cs = (line, statement) :: statements fuel line' rest := by
  refine ⟨line + (cs.count '\n' - rest.count '\n'), ?_⟩
  rw [statements, h]
  exact hne

theorem readStatement_blank {blanks : List Char} (h : ∀ c ∈ blanks, isBlank c) (cs : List Char) :
    readStatement (blanks ++ cs) = readStatement cs := by
  unfold readStatement
  rw [trimLeft_append h]

/-- A line is blank or gives the statement of its entry. -/
theorem readStatement_line {line rest after : List Char} {pair? : Option (String × String)}
    (h : Line line pair?) (hrest : Ends rest after) :
    LineBlanks line ∧ pair? = none ∨
      ∃ statement, readStatement (line ++ rest) = (statement, after) ∧ line ≠ [] ∧
        ∀ n found, entriesOf ((n, statement) :: found) =
          pair?.toList.map Entry.ofPair ++ entriesOf found := by
  cases h with
  | blank h => exact .inl ⟨h, rfl⟩
  | @comment indent cs hindent h =>
    refine .inr ⟨.comment, ?_, ?_, fun _ _ => rfl⟩
    · rw [List.append_assoc, readStatement_comment hindent h hrest]
    · rintro hnil
      obtain ⟨-, rfl⟩ := List.append_eq_nil_iff.mp hnil
      cases h.1
  | @entry indent lead name gap cs value hindent hlead hname hgap h hvalue =>
    refine .inr ⟨.entry ⟨name, some value⟩, ?_, by simp, fun _ _ => ?_⟩
    · have := readStatement_entry hindent hlead hname hgap h hrest
      simpa only [List.append_assoc, List.cons_append] using this
    · simp [entriesOf, Entry.ofPair]

/-- Blanks may come first, since blank lines go with the statement behind them. -/
theorem entriesOf_statements {cs : List Char} {entries : Variables} (h : File cs entries)
    (fuel line : Nat) (blanks : List Char) (hblanks : ∀ c ∈ blanks, isBlank c)
    (hfuel : blanks.length + cs.length ≤ fuel) :
    entriesOf (statements fuel line (blanks ++ cs)) = entries.map Entry.ofPair := by
  induction h generalizing fuel line blanks with
  | nil =>
    rw [List.append_nil]
    cases blanks with
    | nil => simp [entriesOf]
    | cons b blanks =>
      obtain ⟨fuel, rfl⟩ : ∃ k, fuel = k + 1 := ⟨fuel - 1, by simp at hfuel; omega⟩
      have hread : readStatement (b :: blanks) = (.comment, []) := by
        have := readStatement_blank hblanks []
        rwa [List.append_nil] at this
      obtain ⟨line', hstep⟩ := statements_step fuel line (by simp) hread
      simp [hstep, entriesOf]
  | @line first rest cs pair? entries h hrest behind ih =>
    have hlength : cs.length ≤ rest.length := by cases hrest <;> simp
    rw [List.length_append] at hfuel
    rcases readStatement_line h hrest with ⟨hfirst, rfl⟩ | ⟨statement, hread, hne, hgives⟩
    · have hall : ∀ c ∈ blanks ++ first, isBlank c :=
        List.forall_mem_append.mpr ⟨hblanks, hfirst.blank⟩
      cases hrest with
      | file =>
        have := ih fuel line _ hall (by simp at hfuel ⊢; omega)
        simpa using this
      | line =>
        have hmore : ∀ c ∈ blanks ++ first ++ ['\n'], isBlank c :=
          List.forall_mem_append.mpr ⟨hall, List.forall_mem_singleton.mpr (by decide)⟩
        have := ih fuel line _ hmore (by simp at hfuel ⊢; omega)
        simpa using this
    · have hpos := List.length_pos_of_ne_nil hne
      obtain ⟨fuel, rfl⟩ : ∃ k, fuel = k + 1 := ⟨fuel - 1, by omega⟩
      have hall : readStatement (blanks ++ (first ++ rest)) = (statement, cs) := by
        rw [readStatement_blank hblanks, hread]
      obtain ⟨line', hstep⟩ := statements_step fuel line (by simp [hne]) hall
      have hbehind := ih fuel line' [] (by simp) (by simp only [List.length_nil]; omega)
      rw [List.nil_append] at hbehind
      rw [hstep, hgives, hbehind, List.map_append]

theorem Line.unreferenced {line : List Char} {pair : String × String} (h : Line line (some pair)) :
    ¬ ['$', '{'] <:+: pair.2.toList := by
  cases h with
  | entry _ _ _ _ _ hvalue => simpa using hvalue

theorem File.unreferenced {cs : List Char} {entries : Variables} (h : File cs entries) :
    ∀ entry ∈ entries, ¬ ['$', '{'] <:+: entry.2.toList := by
  induction h with
  | nil => simp
  | @line _ _ _ pair? _ h _ _ ih =>
    refine List.forall_mem_append.mpr ⟨?_, ih⟩
    intro pair hpair
    obtain rfl : pair? = some pair := Option.mem_toList.mp hpair
    exact h.unreferenced

theorem LineBlanks.unmarked {blanks cs : List Char} (h : LineBlanks blanks)
    (hcs : cs.head? ≠ some '\ufeff') : (blanks ++ cs).head? ≠ some '\ufeff' := by
  cases blanks with
  | nil => exact hcs
  | cons b blanks =>
    rintro heq
    obtain rfl : b = '\ufeff' := Option.some.inj heq
    exact absurd (h _ List.mem_cons_self) (by decide)

theorem Line.unmarked {line rest after : List Char} {pair? : Option (String × String)}
    (h : Line line pair?) (hrest : Ends rest after) : (line ++ rest).head? ≠ some '\ufeff' := by
  cases h with
  | blank h =>
    apply h.unmarked
    cases hrest <;> simp
  | comment hindent h =>
    obtain ⟨cs, rfl⟩ := List.head?_eq_some_iff.mp h.1
    rw [List.append_assoc]
    exact hindent.unmarked (by simp)
  | entry hindent hlead hname =>
    rw [List.append_assoc]
    apply hindent.unmarked
    rcases hlead with rfl | ⟨blanks, rfl, -⟩
    · obtain ⟨c, name, rfl⟩ := List.exists_cons_of_ne_nil hname.nonempty
      exact hname.unmarked
    · simp

theorem File.unmarked {cs : List Char} {entries : Variables} (h : File cs entries) :
    cs.head? ≠ some '\ufeff' := by
  cases h with
  | nil => simp
  | line h hrest _ => exact h.unmarked hrest

end Abacus.Settings.Dotenv
