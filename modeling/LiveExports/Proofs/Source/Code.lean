import LiveExports.Proofs.Source.Blanking
import LiveExports.Proofs.Source.Lines
import LiveExports.Proofs.Source.Parts

/-!
# The code of a program

A statement is code, which holds no quotes and no slashes, and what may follow it: a specifier in
quotes, or the empty body of a function.  So a program has no comments, whatever its specifiers
hold, and blanking leaves it as it is.  And it makes no calls: no quoted text follows an opening
parenthesis, not even one inside of a specifier.
-/

namespace LiveExports.Source

/-- Characters of code outside of quotes and of the bodies of functions. -/
def isCodeChar (c : Char) : Bool :=
  continuesIdentifier c || clauseMarks.contains c || c == '=' || c == ';'

theorem of_isCodeChar (holds : Char → Bool)
    (hname : ∀ code < 128, continuesIdentifier (Char.ofNat code) = true →
      holds (Char.ofNat code) = true)
    (hmark : (clauseMarks ++ ['=', ';']).all holds = true) {c : Char}
    (hc : isCodeChar c = true) : holds c = true := by
  simp only [isCodeChar, Bool.or_eq_true, List.contains_iff_mem, beq_iff_eq] at hc
  rcases hc with ((hc | hc) | hc) | hc
  · exact of_continuesIdentifier holds hname hc
  · exact List.all_eq_true.mp hmark c (List.mem_append_left _ hc)
  · exact List.all_eq_true.mp hmark c (by simp [hc])
  · exact List.all_eq_true.mp hmark c (by simp [hc])

theorem isCodeChar_of_continuesIdentifier (c : Char) (hc : continuesIdentifier c = true) :
    isCodeChar c = true := by
  simp [isCodeChar, hc]

theorem Identifier.all_isCodeChar (name : Identifier) : name.chars.all isCodeChar = true :=
  name.all_chars isCodeChar_of_continuesIdentifier

theorem Clause.all_isCodeChar (clause : Clause) : clause.chars.all isCodeChar = true :=
  clause.all_chars isCodeChar_of_continuesIdentifier (by decide)

/-- A list in braces is a clause too. -/
theorem bracedList_all_isCodeChar (items : List Item) :
    (bracedList items).all isCodeChar = true :=
  (Clause.listOnly items).all_isCodeChar

/-- What may follow the code of a statement. -/
inductive EndsStatement : List Char → Prop
  | nothing : EndsStatement []
  | emptyBody : EndsStatement Declared.functionValue.ending
  | specifier (source : Specifier) : EndsStatement (source.quoted ++ [';'])

theorem Statement.exists_code (statement : Statement) :
    ∃ code ending, statement.chars = code ++ ending ∧ code.all isCodeChar = true ∧
      EndsStatement ending := by
  cases statement with
  | blank => exact ⟨[], [], rfl, rfl, .nothing⟩
  | imports clause source =>
      refine ⟨['i', 'm', 'p', 'o', 'r', 't', ' '] ++ (clause.chars ++
        [' ', 'f', 'r', 'o', 'm', ' ']), _, ?_, ?_, .specifier source⟩
      · simp [chars, body, fromText]
      · rw [List.all_append, List.all_append, clause.all_isCodeChar]
        rfl
  | runs source =>
      exact ⟨['i', 'm', 'p', 'o', 'r', 't', ' '], _, rfl, rfl, .specifier source⟩
  | forwards items source =>
      refine ⟨['e', 'x', 'p', 'o', 'r', 't', ' '] ++ (bracedList items ++
        [' ', 'f', 'r', 'o', 'm', ' ']), _, ?_, ?_, .specifier source⟩
      · simp [chars, body, fromText]
      · rw [List.all_append, List.all_append, bracedList_all_isCodeChar]
        rfl
  | forwardsAll source =>
      exact ⟨['e', 'x', 'p', 'o', 'r', 't', ' ', '*', ' ', 'f', 'r', 'o', 'm', ' '], _, rfl, rfl,
        .specifier source⟩
  | forwardsWhole name source =>
      refine ⟨['e', 'x', 'p', 'o', 'r', 't', ' ', '*', ' ', 'a', 's', ' '] ++ (name.chars ++
        [' ', 'f', 'r', 'o', 'm', ' ']), _, ?_, ?_, .specifier source⟩
      · simp [chars, body, fromText]
      · rw [List.all_append, List.all_append, name.all_isCodeChar]
        rfl
  | exportsList items =>
      refine ⟨['e', 'x', 'p', 'o', 'r', 't', ' '] ++ (bracedList items ++ [';']), _, ?_, ?_,
        .nothing⟩
      · simp [chars, body]
      · rw [List.all_append, List.all_append, bracedList_all_isCodeChar]
        rfl
  | declares declared name =>
      have hcode : ∀ ending : List Char, ending.all isCodeChar = true →
          (['e', 'x', 'p', 'o', 'r', 't', ' '] ++ (declared.word ++ ' ' :: (name.chars ++
            ending))).all isCodeChar = true := by
        intro ending hending
        simp only [List.all_append, List.all_cons, name.all_isCodeChar, hending]
        cases declared <;> rfl
      cases declared with
      | functionValue =>
          refine ⟨_, _, ?_, hcode [] rfl, .emptyBody⟩
          simp [chars, body]
      | classValue =>
          refine ⟨_, _, ?_, hcode Declared.classValue.ending rfl, .nothing⟩
          simp [chars, body]
      | constantValue =>
          refine ⟨_, _, ?_, hcode Declared.constantValue.ending rfl, .nothing⟩
          simp [chars, body]
  | exportsDefault name ne_keyword =>
      refine ⟨['e', 'x', 'p', 'o', 'r', 't', ' ', 'd', 'e', 'f', 'a', 'u', 'l', 't', ' '] ++
        (name.chars ++ [';']), _, ?_, ?_, .nothing⟩
      · simp [chars, body]
      · rw [List.all_append, List.all_append, name.all_isCodeChar]
        rfl

theorem Specifier.quoted_append (source : Specifier) (tail : List Char) :
    source.quoted ++ [';'] ++ tail = '\'' :: (source.chars ++ '\'' :: ';' :: tail) := by
  simp [quoted]

/-- A statement stands on one line. -/
theorem Statement.lineEnd_not_mem (statement : Statement) : '\n' ∉ statement.chars := by
  obtain ⟨code, ending, htext, hcode, hending⟩ := statement.exists_code
  rw [htext, List.mem_append, not_or]
  constructor
  · intro hmem
    have hnot := List.all_eq_true.mp hcode _ hmem
    exact absurd hnot (by decide)
  · cases hending with
    | nothing => exact List.not_mem_nil
    | emptyBody => decide
    | specifier source =>
        have hsource : '\n' ∉ source.chars := fun hmem => source.unmarked _ hmem (by decide)
        simp [Specifier.quoted, hsource]

/-! ## Comments -/

theorem closesTo_unmarked {chars : List Char} (hunmarked : ∀ c ∈ chars, c ∉ specifierMarks)
    (rest : List Char) : ClosesTo '\'' rest (chars ++ '\'' :: rest) := by
  induction chars with
  | nil => exact .quote
  | cons c chars ih =>
      have hc := hunmarked c List.mem_cons_self
      simp only [specifierMarks, List.mem_cons, List.not_mem_nil, or_false, not_or] at hc
      exact .char hc.1 hc.2.2.1 hc.2.2.2 (ih fun d hd => hunmarked d (List.mem_cons_of_mem c hd))

/-- Characters that neither open a comment nor a quoted text. -/
def isPlain (c : Char) : Bool :=
  c != '/' && !isQuote c

/-- Outside of quotes a statement holds neither slashes nor quotes. -/
theorem Statement.passesTo (statement : Statement) (tail : List Char) :
    PassesTo (isPlain · = true) tail (statement.chars ++ tail) := by
  obtain ⟨code, ending, htext, hcode, hending⟩ := statement.exists_code
  have hplain : ∀ c ∈ code, isPlain c = true := fun c hc =>
    of_isCodeChar isPlain (by decide) (by decide) (List.all_eq_true.mp hcode c hc)
  rw [htext, List.append_assoc]
  apply (PassesTo.append hplain _).trans
  cases hending with
  | nothing => exact .refl
  | emptyBody =>
      have hbody : Declared.functionValue.ending.all isPlain = true := by decide
      exact PassesTo.append (List.all_eq_true.mp hbody) tail
  | specifier source =>
      rw [source.quoted_append]
      have hclose := closesTo_unmarked source.unmarked (';' :: tail)
      exact .quoted (by decide) hclose (.char (by decide) .refl)

theorem Program.passesTo (program : List Statement) :
    PassesTo (isPlain · = true) [] (text program) := by
  unfold text
  induction program with
  | nil => exact .refl
  | cons statement rest ih =>
      rw [List.map_cons, join_cons]
      apply (statement.passesTo _).trans
      cases rest with
      | nil => exact .refl
      | cons second others => exact .char (by decide) ih

/-- Blanking comments leaves a program as it is. -/
theorem blankComments_program (program : List Statement) :
    blankComments (Program.text program) = .ok (Program.text program) := by
  apply blankComments_of_passesTo (Program.passesTo program)
  intro c hc
  simpa [isPlain] using hc

/-! ## Calls -/

/-- No quoted text follows an opening parenthesis. -/
def CallFree (text : List Char) : Prop :=
  ∀ rest, '(' :: rest <:+ text → specifier? (Text.trimStart rest) = none

theorem callFree_nil : CallFree [] := by
  intro rest hrest
  cases List.suffix_nil.mp hrest

theorem callFree_cons {c : Char} {text : List Char}
    (hc : c = '(' → specifier? (Text.trimStart text) = none) (htext : CallFree text) :
    CallFree (c :: text) := by
  intro rest hrest
  rcases List.suffix_cons_iff.mp hrest with heq | hlater
  · obtain ⟨hparen, hsame⟩ := List.cons.inj heq
    rw [hsame]
    exact hc hparen.symm
  · exact htext rest hlater

theorem callFree_append {code text : List Char} (hcode : '(' ∉ code) (htext : CallFree text) :
    CallFree (code ++ text) := by
  induction code with
  | nil => exact htext
  | cons c code ih =>
      rw [List.mem_cons, not_or] at hcode
      exact callFree_cons (fun hc => absurd hc.symm hcode.1) (ih hcode.2)

/-- What is left of a specifier and its line is no specifier: the next quote is the closing one, and
no other follows it on the line. -/
theorem specifier?_rest {tail : List Char} (htail : EndsLine tail) {chars : List Char}
    (hunmarked : ∀ c ∈ chars, c ∉ specifierMarks) :
    specifier? (Text.trimStart (chars ++ '\'' :: ';' :: tail)) = none := by
  apply specifier?_trimStart
  · intro c hc
    have hmarks := hunmarked c hc
    simp only [specifierMarks, List.mem_cons, List.not_mem_nil, or_false, not_or] at hmarks
    simp [isSpecifierQuote, hmarks.1, hmarks.2.1]
  · rcases htail with rfl | ⟨more, rfl⟩ <;> rfl

theorem callFree_unmarked {chars tail : List Char}
    (hunmarked : ∀ c ∈ chars, c ∉ specifierMarks) (htail : EndsLine tail) (h : CallFree tail) :
    CallFree (chars ++ '\'' :: ';' :: tail) := by
  induction chars with
  | nil =>
      show CallFree (['\'', ';'] ++ tail)
      exact callFree_append (by decide) h
  | cons c chars ih =>
      have hlater : ∀ d ∈ chars, d ∉ specifierMarks :=
        fun d hd => hunmarked d (List.mem_cons_of_mem c hd)
      exact callFree_cons (fun _ => specifier?_rest htail hlater) (ih hlater)

theorem Statement.callFree (statement : Statement) {tail : List Char} (htail : EndsLine tail)
    (h : CallFree tail) : CallFree (statement.chars ++ tail) := by
  obtain ⟨code, ending, htext, hcode, hending⟩ := statement.exists_code
  have hparen : '(' ∉ code := by
    intro hmem
    have hnot := List.all_eq_true.mp hcode _ hmem
    exact absurd hnot (by decide)
  rw [htext, List.append_assoc]
  apply callFree_append hparen
  cases hending with
  | nothing => exact h
  | emptyBody =>
      -- What follows this parenthesis is the other one.
      have hbody : CallFree ([')', ' ', '\x7b', '\x7d'] ++ tail) := callFree_append (by decide) h
      exact callFree_cons (fun _ => rfl) hbody
  | specifier source =>
      rw [source.quoted_append]
      have hsource := callFree_unmarked source.unmarked htail h
      exact callFree_cons (fun hc => absurd hc (by decide)) hsource

theorem Program.callFree (program : List Statement) : CallFree (text program) := by
  unfold text
  induction program with
  | nil => exact callFree_nil
  | cons statement rest ih =>
      rw [List.map_cons, join_cons]
      apply statement.callFree (endsLine_tailOf _)
      cases rest with
      | nil => exact callFree_nil
      | cons second others => exact callFree_cons (fun hc => absurd hc (by decide)) ih

theorem suffix_of_after? {literal text rest : List Char}
    (h : Text.after? literal text = some rest) :
    rest <:+ text := by
  rw [Text.eq_append_of_after? h]
  exact List.suffix_append _ _

/-- A call has an opening parenthesis and a quoted text after it. -/
theorem importCall?_of_callFree {text : List Char} (h : CallFree text) :
    importCall? text = none := by
  cases hcall : importCall? text with
  | none => rfl
  | some result =>
      simp only [importCall?, Option.bind_eq_bind, Option.bind_eq_some_iff] at hcall
      obtain ⟨afterWord, hword, afterParen, hparen, ⟨source, rest⟩, hsource, -⟩ := hcall
      have hsuffix : afterWord <:+ text := by
        cases hrequire : Text.after? "require".toList text with
        | none =>
            rw [hrequire] at hword
            exact suffix_of_after? hword
        | some left =>
            rw [hrequire] at hword
            rw [← Option.some.inj hword]
            exact suffix_of_after? hrequire
      have hopen : '(' :: afterParen <:+ text := by
        have htext := Text.eq_append_of_after? hparen
        have htrimmed : '(' :: afterParen <:+ afterWord := by
          rw [← List.singleton_append, ← htext]
          exact List.dropWhile_suffix _
        exact htrimmed.trans hsuffix
      rw [h _ hopen] at hsource
      cases hsource

theorem matchesFrom_eq_nil {α : Type} {mayBegin : Option Char → Bool}
    {recognise : List Char → Option (α × List Char)} {text : List Char}
    (h : ∀ rest, rest <:+ text → recognise rest = none) (previous : Option Char) (offset : Nat) :
    matchesFrom mayBegin recognise previous offset 0 text = [] := by
  induction text generalizing previous offset with
  | nil => rfl
  | cons c text ih =>
      have hhere : recognise (c :: text) = none := h _ (List.suffix_refl _)
      have hlater := ih (fun rest hrest => h rest (hrest.trans (List.suffix_cons c text)))
      simp [matchesFrom, hhere, hlater]

/-- A form has no statements in a text where it is recognised nowhere. -/
theorem Form.statements_eq_nil {δ : Type} {form : Form δ} {text : List Char}
    (h : ∀ rest, rest <:+ text → form.recognise rest = none) : form.statements text = [] := by
  rw [Form.statements, occurrences, matchesFrom_eq_nil h]
  rfl

theorem Form.statements_of_taken_eq_nil {δ : Type} {form : Form δ} {text : List Char}
    (htaken : form.taken text = []) :
    form.statements text = (occurrences form.mayBegin form.recognise text).map fun o =>
      o.with (form.declared o.found o.line) := by
  rw [Form.statements, htaken]
  simp

/-- A program makes no calls. -/
theorem callImport_program (program : List Statement) :
    Form.callImport.statements (Program.text program) = [] := by
  apply Form.statements_eq_nil
  intro rest hrest
  exact importCall?_of_callFree fun later hlater =>
    Program.callFree program later (hlater.trans hrest)

end LiveExports.Source
