import LiveExports.Proofs.Source.Comments

/-!
# The lines of declarations

Statements are looked for in the blanked text, and the lines they are given are counted there.  They
are lines of the source as well: up to any character both texts have the same line ends
(`lineAt_eq`).

What is found is found where a recogniser takes the text from there on
(`standsAt_of_mem_occurrences`).  Its place is told in bytes of the blanked text, which may have
fewer bytes than the source, and its line is looked up there.  Every form of statement puts the line
of its occurrence into what it declares (`KeepsLine`), and the order of the text is an order of
lines, so that the declarations are in the order of their lines.
-/

namespace LiveExports.Source

/-- The line of the character that comes after `place` others. -/
def lineAt (source : List Char) (place : Nat) : Nat :=
  1 + (source.take place).count '\n'

/-- The number of lines of a source.  A line end at its very end begins no further line. -/
def lineCount (source : List Char) : Nat :=
  source.count '\n' + if source.getLast? = some '\n' then 0 else 1

variable {α δ : Type}

/-- An occurrence is one of a recogniser: it stands behind `place` characters of the text, where it
may begin and on the line it tells, and the recogniser finds it in the text from there on. -/
structure Occurrence.StandsAt (text : List Char) (mayBegin : Option Char → Bool)
    (recognise : List Char → Option (α × List Char)) (place : Nat) (o : Occurrence α) : Prop where
  place_lt : place < text.length
  offset_eq : o.offset = byteLength (text.take place)
  mayBegin_previous : mayBegin (text.take place).getLast? = true
  recognised : ∃ after, recognise (text.drop place) = some (o.found, after)
  line_eq : o.line = lineAt text place

/-! ## Lines -/

theorem lineAt_mono (source : List Char) {offset later : Nat} (h : offset ≤ later) :
    lineAt source offset ≤ lineAt source later :=
  Nat.add_le_add_left ((List.take_prefix_take_left h).sublist.count_le '\n') 1

theorem lineAt_le_lineCount {source : List Char} {offset : Nat} (h : offset < source.length) :
    lineAt source offset ≤ lineCount source := by
  obtain rfl | ⟨before, last, rfl⟩ := List.eq_nil_or_concat source
  · cases h
  · rw [List.concat_eq_append] at h ⊢
    have hoffset : offset ≤ before.length := by
      rw [List.length_append, List.length_singleton] at h
      omega
    have hcount : (before.take offset).count '\n' ≤ before.count '\n' :=
      (List.take_sublist offset before).count_le '\n'
    rw [lineAt, lineCount, List.take_append_of_le_length hoffset, List.getLast?_concat,
      List.count_append]
    by_cases hlast : last = '\n'
    · simp only [hlast, List.count_singleton_self, if_true]
      omega
    · simp only [Option.some.injEq, hlast, if_false]
      omega

/-- A text of the same shape has the same lines. -/
theorem lineAt_eq {source text : List Char} (h : List.Forall₂ KeepsShape source text)
    (offset : Nat) :
    lineAt text offset = lineAt source offset := by
  unfold lineAt
  induction h generalizing offset with
  | nil => rfl
  | @cons c made source text hmade _ ih =>
      cases offset with
      | zero => rfl
      | succ offset =>
          have hrest := ih offset
          by_cases hc : c = '\n'
          · simp only [hc, hmade.1.mpr hc, List.take_succ_cons, List.count_cons_self]
            omega
          · have hne : made ≠ '\n' := fun hends => hc (hmade.1.mp hends)
            simp only [List.take_succ_cons, List.count_cons_of_ne hc, List.count_cons_of_ne hne]
            exact hrest

theorem byteLength_take_lt {text : List Char} {place later : Nat} (hlt : place < later)
    (hplace : place < text.length) :
    byteLength (text.take place) < byteLength (text.take later) := by
  induction text generalizing place later with
  | nil => cases hplace
  | cons c text ih =>
      obtain ⟨later, rfl⟩ := Nat.exists_eq_add_one_of_ne_zero (Nat.ne_zero_of_lt hlt)
      have hpos := c.utf8Size_pos
      cases place with
      | zero =>
          simp only [List.take_zero, byteLength_nil, List.take_succ_cons, byteLength_cons]
          omega
      | succ place =>
          have hrest := ih (Nat.lt_of_succ_lt_succ hlt) (Nat.lt_of_succ_lt_succ hplace)
          simp only [List.take_succ_cons, byteLength_cons]
          omega

/-! ## Occurrences -/

section Occurrences

variable {mayBegin : Option Char → Bool} {recognise : List Char → Option (α × List Char)}

theorem standsAt_of_mem_matchesFrom {before text : List Char} {skip : Nat} {found : Nat × α}
    (h : found ∈ matchesFrom mayBegin recognise before.getLast? (byteLength before) skip text) :
    ∃ place,
      ((LineIndex.ofText (before ++ text)).occurrence found).StandsAt (before ++ text) mayBegin
      recognise place := by
  induction text generalizing before skip with
  | nil => cases h
  | cons c rest ih =>
      -- From the next character on, one more stands before the text.
      have hnext : ∀ skip, found ∈ matchesFrom mayBegin recognise (some c)
          (byteLength before + c.utf8Size) skip rest →
          ∃ place, ((LineIndex.ofText (before ++ c :: rest)).occurrence found).StandsAt
            (before ++ c :: rest) mayBegin recognise place := by
        intro skip hmem
        have hlater := @ih (before ++ [c]) skip
        rw [List.getLast?_concat, byteLength_append, byteLength_cons, byteLength_nil, Nat.add_zero,
          List.append_assoc] at hlater
        exact hlater hmem
      cases skip with
      | succ skip => exact hnext skip h
      | zero =>
          rw [matchesFrom] at h
          cases hfound : if mayBegin before.getLast? then recognise (c :: rest) else none with
          | none =>
              rw [hfound] at h
              exact hnext 0 h
          | some result =>
              obtain ⟨item, after⟩ := result
              rw [hfound] at h
              rcases List.mem_cons.mp h with rfl | hlater
              · have hbegins : mayBegin before.getLast? = true := by
                  by_contra hno
                  rw [if_neg hno] at hfound
                  cases hfound
                rw [if_pos hbegins] at hfound
                refine ⟨before.length, ?_, ?_, ?_, ⟨after, ?_⟩, ?_⟩
                · simp
                · simp [LineIndex.occurrence]
                · simpa using hbegins
                · simpa [LineIndex.occurrence] using hfound
                · simpa [LineIndex.occurrence, lineAt]
                    using LineIndex.lineOf_ofText before (c :: rest)
              · exact hnext _ hlater

theorem standsAt_of_mem_occurrences {text : List Char} {o : Occurrence α}
    (h : o ∈ occurrences mayBegin recognise text) :
    ∃ place, o.StandsAt text mayBegin recognise place := by
  obtain ⟨found, hfound, rfl⟩ := List.mem_map.mp h
  exact @standsAt_of_mem_matchesFrom α mayBegin recognise [] text 0 found hfound

theorem le_offset_of_mem_matchesFrom {previous : Option Char} {offset skip : Nat} {text : List Char}
    {found : Nat × α} (h : found ∈ matchesFrom mayBegin recognise previous offset skip text) :
    offset ≤ found.1 := by
  fun_induction matchesFrom mayBegin recognise previous offset skip text with
  | case1 => cases h
  | case2 previous offset skip c rest ih =>
      have hle := ih h
      omega
  | case3 previous offset c rest item after _ ih =>
      rcases List.mem_cons.mp h with rfl | hlater
      · exact Nat.le_refl offset
      · have hle := ih hlater
        omega
  | case4 previous offset c rest _ ih =>
      have hle := ih h
      omega

/-- Occurrences are found from left to right. -/
theorem pairwise_matchesFrom (previous : Option Char) (offset skip : Nat) (text : List Char) :
    (matchesFrom mayBegin recognise previous offset skip text).Pairwise
      fun first second => first.1 < second.1 := by
  fun_induction matchesFrom mayBegin recognise previous offset skip text with
  | case1 => exact .nil
  | case2 previous offset skip c rest ih => exact ih
  | case3 previous offset c rest item after _ ih =>
      refine List.pairwise_cons.mpr ⟨fun found hfound => ?_, ih⟩
      have hle := le_offset_of_mem_matchesFrom hfound
      have hpos := c.utf8Size_pos
      show offset < found.1
      omega
  | case4 previous offset c rest _ ih => exact ih

theorem pairwise_occurrences (text : List Char) :
    (occurrences mayBegin recognise text).Pairwise fun a b => a.offset < b.offset :=
  List.pairwise_map.mpr (pairwise_matchesFrom none 0 0 text)

/-- What comes first in bytes comes first in characters. -/
theorem Occurrence.StandsAt.place_le {β : Type} {text : List Char} {o : Occurrence α} {place : Nat}
    (h : o.StandsAt text mayBegin recognise place) {otherBegin : Option Char → Bool}
    {other : List Char → Option (β × List Char)} {o' : Occurrence β} {later : Nat}
    (h' : o'.StandsAt text otherBegin other later) (hle : o.offset ≤ o'.offset) :
    place ≤ later := by
  by_contra hgt
  have hlt := byteLength_take_lt (Nat.lt_of_not_le hgt) h'.place_lt
  rw [← h.offset_eq, ← h'.offset_eq] at hlt
  omega

end Occurrences

/-! ## Forms of statements -/

namespace Form

/-- The statement is one of the form, not taken by another form, and declares what such a statement
does on its line. -/
def Makes (form : Form δ) (text : List Char) (place : Nat) (statement : Occurrence (List δ)) :
    Prop :=
  statement.offset ∉ form.taken text ∧
  ∃ found, (statement.with found).StandsAt text form.mayBegin form.recognise place ∧
    statement.found = form.declared found statement.line

/-- What a statement declares is on the line of the statement. -/
def KeepsLine (lineOf : δ → Nat) (form : Form δ) : Prop :=
  ∀ found line, ∀ decl ∈ form.declared found line, lineOf decl = line

theorem makes_of_mem_statements {form : Form δ} {text : List Char} {statement : Occurrence (List δ)}
    (h : statement ∈ form.statements text) : ∃ place, form.Makes text place statement := by
  obtain ⟨o, ho, rfl⟩ := List.mem_map.mp h
  obtain ⟨hoccurs, hfree⟩ := List.mem_filter.mp ho
  obtain ⟨place, hstands⟩ := standsAt_of_mem_occurrences hoccurs
  refine ⟨place, ?_, o.found, hstands, rfl⟩
  simpa [Occurrence.with] using hfree

end Form

theorem line_localExport (imports : List ImportDecl) (name exported : String) (line : Nat) :
    (localExport imports name exported line).line = line := by
  unfold localExport
  split
  · split <;> rfl
  · rfl

theorem keepsLine_importForms : ∀ form ∈ importForms, form.KeepsLine ImportDecl.line := by
  simp only [importForms, List.forall_mem_cons]
  refine ⟨?clause, ?bare, ?call, List.forall_mem_nil _⟩
  case clause => exact fun found line => List.forall_mem_map.mpr fun decl _ => rfl
  case bare => exact fun source line => List.forall_mem_singleton.mpr rfl
  case call => exact fun source line => List.forall_mem_singleton.mpr rfl

theorem keepsLine_exportForms (imports : List ImportDecl) :
    ∀ form ∈ exportForms imports, form.KeepsLine ExportDecl.line := by
  simp only [exportForms, List.forall_mem_cons]
  refine ⟨?forwarded, ?star, ?listed, ?declared, ?pattern, ?default, ?assigned,
    ?assignedDefault, List.forall_mem_nil _⟩
  case forwarded => exact fun found line => List.forall_mem_map.mpr fun names _ => rfl
  case star => exact fun found line => List.forall_mem_map.mpr fun name _ => rfl
  case listed =>
    exact fun list line => List.forall_mem_map.mpr fun names _ => line_localExport _ _ _ line
  case declared => exact fun name line => List.forall_mem_singleton.mpr rfl
  case pattern => exact fun pattern line => List.forall_mem_map.mpr fun name _ => rfl
  case default =>
    intro found line
    refine List.forall_mem_singleton.mpr ?_
    split
    · split
      · rfl
      · exact line_localExport _ _ _ line
    · rfl
  case assigned => exact fun name line => List.forall_mem_singleton.mpr rfl
  case assignedDefault => exact fun _ line => List.forall_mem_singleton.mpr rfl

/-! ## Whole sources -/

/-- The declarations of the statements in a text, by the lines of the source that the text was made
from. -/
structure DeclaredOnLines (forms : List (Form δ)) (lineOf : δ → Nat) (source text : List Char)
    (statements : List (Occurrence (List δ))) (declared : List δ) : Prop where
  /-- The declarations are those of the statements, in the order of the text. -/
  declared_eq : declared = (inOrder statements).flatMap (·.found)
  /-- Where a statement begins, a character stands and one of the forms is recognised; its
  declarations are on the line of this character. -/
  begins : ∀ statement ∈ statements, ∃ place < source.length,
    (∃ form ∈ forms, form.Makes text place statement) ∧
    ∀ decl ∈ statement.found, lineOf decl = lineAt source place
  bounds : ∀ decl ∈ declared, 1 ≤ lineOf decl ∧ lineOf decl ≤ lineCount source
  ordered : declared.Pairwise fun a b => lineOf a ≤ lineOf b

theorem declaredOnLines {forms : List (Form δ)} {lineOf : δ → Nat} {source text : List Char}
    (hshape : List.Forall₂ KeepsShape source text)
    (hlines : ∀ form ∈ forms, form.KeepsLine lineOf) :
    DeclaredOnLines forms lineOf source text (forms.flatMap (·.statements text))
      (declarationsOf (forms.flatMap (·.statements text))) := by
  have hbegins : ∀ statement ∈ forms.flatMap (·.statements text), ∃ place < source.length,
      (∃ form ∈ forms, form.Makes text place statement) ∧
      ∀ decl ∈ statement.found, lineOf decl = lineAt source place := by
    intro statement hstatement
    obtain ⟨form, hform, hmem⟩ := List.mem_flatMap.mp hstatement
    obtain ⟨place, hmakes⟩ := Form.makes_of_mem_statements hmem
    have ⟨_, found, hstands, hfound⟩ := hmakes
    refine ⟨place, ?_, ⟨form, hform, hmakes⟩, fun decl hdecl => ?_⟩
    · rw [hshape.length_eq]
      exact hstands.place_lt
    · rw [hfound] at hdecl
      rw [hlines form hform found statement.line decl hdecl, ← lineAt_eq hshape]
      exact hstands.line_eq
  have hinOrder : ∀ {statement}, statement ∈ inOrder (forms.flatMap (·.statements text)) →
      statement ∈ forms.flatMap (·.statements text) :=
    fun h => (List.mergeSort_perm _ _).mem_iff.mp h
  refine ⟨rfl, hbegins, ?_, ?_⟩
  · intro decl hdecl
    obtain ⟨statement, hstatement, hfound⟩ := List.mem_flatMap.mp hdecl
    obtain ⟨place, hplace, -, hline⟩ := hbegins statement (hinOrder hstatement)
    rw [hline decl hfound]
    exact ⟨Nat.le_add_right 1 _, lineAt_le_lineCount hplace⟩
  · rw [declarationsOf, List.pairwise_flatMap]
    constructor
    · intro statement hstatement
      refine List.pairwise_of_forall_mem_list fun a ha b hb => ?_
      obtain ⟨place, -, -, hline⟩ := hbegins statement (hinOrder hstatement)
      exact Nat.le_of_eq ((hline a ha).trans (hline b hb).symm)
    · refine (pairwise_inOrder _).imp_of_mem ?_
      intro first second hfirst hsecond hle a ha b hb
      obtain ⟨place, -, ⟨_, -, -, _, hstands, -⟩, hline⟩ := hbegins first (hinOrder hfirst)
      obtain ⟨later, -, ⟨_, -, -, _, hlater, -⟩, hline'⟩ := hbegins second (hinOrder hsecond)
      rw [hline a ha, hline' b hb]
      exact lineAt_mono source (hstands.place_le hlater hle)

/-- An `import` at the beginning of a line that is none of the import statements. -/
structure IsUnreadable (text : List Char) (place : Nat) (o : Occurrence (List Char)) : Prop where
  standsAt : o.StandsAt text beginsLine importWord? place
  isStatement : isNoStatement o.found = false
  unread : ∀ statement ∈ importStatements text, statement.offset ≠ o.offset

theorem exists_isUnreadable {text : List Char} {line : Nat}
    (h : unreadableImport? text (importStatements text) = some line) :
    ∃ o place, IsUnreadable text place o ∧ o.line = line ∧
      ∀ other ∈ lineOccurrences importWord? text, ∀ later, IsUnreadable text later other →
        place ≤ later := by
  obtain ⟨o, hfirst, hline⟩ := Option.map_eq_some_iff.mp h
  obtain ⟨hunreadable, before, after, heq, hbefore⟩ := List.find?_eq_some_iff_append.mp hfirst
  have hsorted : (lineOccurrences importWord? text).Pairwise fun a b => a.offset < b.offset :=
    pairwise_occurrences text
  have hmem : o ∈ lineOccurrences importWord? text := by
    rw [heq]
    simp
  obtain ⟨place, hstands⟩ := standsAt_of_mem_occurrences hmem
  simp only [Bool.and_eq_true, Bool.not_eq_true', List.any_eq_false, beq_iff_eq] at hunreadable
  refine ⟨o, place, ⟨hstands, hunreadable.1, hunreadable.2⟩, hline, ?_⟩
  intro other hother later hisUnreadable
  refine hstands.place_le hisUnreadable.standsAt ?_
  rw [heq] at hother hsorted
  rcases List.mem_append.mp hother with hearlier | hlater
  · have hread := hbefore other hearlier
    simp only [hisUnreadable.isStatement, Bool.not_false, Bool.true_and, Bool.not_not,
      List.any_eq_true, beq_iff_eq] at hread
    obtain ⟨statement, hstatement, hoffset⟩ := hread
    exact absurd hoffset (hisUnreadable.unread statement hstatement)
  · rcases List.mem_cons.mp hlater with rfl | hafter
    · exact Nat.le_refl _
    · exact Nat.le_of_lt
        ((List.pairwise_cons.mp (List.pairwise_append.mp hsorted).2.1).1 other hafter)

/-- Declarations are reported on the lines of the source where their statements begin, in the order
of these lines, and so is an import that cannot be read. -/
theorem ofSource_reports_lines (module : ModuleId) (source : String) :
    (∀ declarations, Declarations.ofSource module source = .ok declarations →
      ∃ text, blankComments source.toList = .ok text ∧
        List.Forall₂ KeepsShape source.toList text ∧
        DeclaredOnLines importForms ImportDecl.line source.toList text (importStatements text)
          declarations.imports ∧
        DeclaredOnLines (exportForms declarations.imports) ExportDecl.line source.toList text
          (exportStatements declarations.imports text) declarations.exports) ∧
    ∀ line, Declarations.ofSource module source =
        .error (.parse module.text "unreadable import statement" (some line)) →
      ∃ text place o, blankComments source.toList = .ok text ∧ IsUnreadable text place o ∧
        (∀ other ∈ lineOccurrences importWord? text, ∀ later, IsUnreadable text later other →
          place ≤ later) ∧
        line = lineAt source.toList place := by
  unfold Declarations.ofSource read
  cases htext : blankComments source.toList with
  | error start =>
      refine ⟨fun declarations h => ?_, fun line h => ?_⟩
      · cases h
      · have hmessage : "unterminated block comment" = "unreadable import statement" :=
          (Fault.parse.inj (Except.error.inj h)).2.1
        exact absurd hmessage (by decide)
  | ok text =>
      have hshape := keepsShape_of_blankFrom htext
      unfold readBlanked
      dsimp only
      cases hunreadable : unreadableImport? text (importStatements text) with
      | some start =>
          refine ⟨fun declarations h => ?_, fun line h => ?_⟩
          · cases h
          · obtain ⟨o, place, ho, hline, hfirst⟩ := exists_isUnreadable hunreadable
            refine ⟨text, place, o, rfl, ho, hfirst, ?_⟩
            have hstart : some start = some line := (Fault.parse.inj (Except.error.inj h)).2.2
            rw [← Option.some.inj hstart, ← hline, ← lineAt_eq hshape]
            exact ho.standsAt.line_eq
      | none =>
          refine ⟨fun declarations h => ?_, fun line h => ?_⟩
          · cases h
            refine ⟨text, rfl, hshape, ?_, ?_⟩
            · exact declaredOnLines hshape keepsLine_importForms
            · exact declaredOnLines hshape (keepsLine_exportForms _)
          · cases h

/-- The comment before the export holds a line end and a character of two bytes. -/
theorem ofSource_reports_lines_after_comment :
    (∃ text, blankComments "/*\xe9\n*/\nexport let b".toList = .ok text ∧
      DeclaredOnLines (exportForms []) ExportDecl.line "/*\xe9\n*/\nexport let b".toList text
        (exportStatements [] text) [{ name := "b", line := 3 }]) ∧
    ∃ text place o, blankComments "/*\n*/\nimport b".toList = .ok text ∧ IsUnreadable text place o ∧
      3 = lineAt "/*\n*/\nimport b".toList place := by
  have hread : Declarations.ofSource ⟨"/p/a.js"⟩ "/*\xe9\n*/\nexport let b" =
      .ok { exports := [{ name := "b", line := 3 }] } := by
    decide +kernel
  have hrefused : Declarations.ofSource ⟨"/p/a.js"⟩ "/*\n*/\nimport b" =
      .error (.parse "/p/a.js" "unreadable import statement" (some 3)) := by
    decide +kernel
  constructor
  · obtain ⟨text, htext, -, -, hexports⟩ := (ofSource_reports_lines _ _).1 _ hread
    exact ⟨text, htext, hexports⟩
  · obtain ⟨text, place, o, htext, ho, -, hline⟩ := (ofSource_reports_lines _ _).2 _ hrefused
    exact ⟨text, place, o, htext, ho, hline⟩

end LiveExports.Source
