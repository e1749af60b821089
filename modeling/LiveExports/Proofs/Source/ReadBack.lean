import LiveExports.Proofs.Source.Code
import LiveExports.Proofs.Source.Lists
import LiveExports.Proofs.Source.Recognition

/-!
# Reading a program back

A source that is the text of a program is read, and what is read is what the program declares
(`Declarations.ofSource_program`).  The forms of statements are looked for one after the other.
What is found in one form is what the statements of this form declare, and every statement is found
in one form only, so that putting what was found in order gives the order of the program.
-/

namespace LiveExports.Source

variable {α : Type}

/-! ## The statements of one form -/

theorem lineOccurrences_program {recognise : List Char → Option (α × List Char)}
    {found? : Statement → Option α} (h : Recognises Statement.chars recognise found?)
    (hnothing : recognise [] = none) (program : List Statement) :
    lineOccurrences recognise (Program.text program) =
      located Statement.chars (fun _ statement => (found? statement).toList) 0 1 program :=
  lineOccurrences_of_recognises h Statement.lineEnd_not_mem hnothing program

/-- What is found in one form is what the statements of this form declare. -/
theorem statements_of_recognises {form : Form α} {found? : Statement → Option form.Found}
    (h : Recognises Statement.chars form.recognise found?) (hnothing : form.recognise [] = none)
    {program : List Statement} (htaken : form.taken (Program.text program) = [])
    (hbegins : form.mayBegin = beginsLine) {declared : Nat → Statement → List α}
    (hdeclared : ∀ statement item, found? statement = some item → ∀ line,
      form.declared item line = declared line statement) :
    form.statements (Program.text program) =
      located Statement.chars (foundAs found? declared) 0 1 program := by
  have hoccurrences := lineOccurrences_program h hnothing program
  rw [lineOccurrences, ← hbegins] at hoccurrences
  rw [Form.statements_of_taken_eq_nil htaken, hoccurrences]
  exact map_located (fun statement item hitem _ line => hdeclared statement item hitem line) 0 1
    program

theorem statements_of_never {form : Form α}
    (h : Recognises Statement.chars form.recognise fun _ => none)
    (hnothing : form.recognise [] = none) (hbegins : form.mayBegin = beginsLine)
    (program : List Statement) : form.statements (Program.text program) = [] := by
  have hoccurrences := lineOccurrences_program h hnothing program
  rw [lineOccurrences, ← hbegins] at hoccurrences
  rw [Form.statements, hoccurrences]
  dsimp only [Option.toList_none]
  rw [located_nothing]
  rfl

/-- The declarations of a program, where every statement that declares something is found once. -/
theorem declarationsOf_eq_gather {program : List Statement}
    {statements : List (Occurrence (List α))}
    {found : Nat → Statement → List (List α)}
    (hperm : statements.Perm (located Statement.chars found 0 1 program))
    {declared : Nat → Statement → List α}
    (hfound : ∀ line statement, found line statement = [declared line statement] ∨
      found line statement = [] ∧ declared line statement = []) :
    declarationsOf statements = Program.gather program declared := by
  have hsingle : ∀ line statement, (found line statement).length ≤ 1 := by
    intro line statement
    rcases hfound line statement with hone | ⟨hnone, -⟩
    · rw [hone]
      exact Nat.le_refl 1
    · rw [hnone]
      exact Nat.zero_le 1
  have hflat : ∀ line statement, (found line statement).flatten = declared line statement := by
    intro line statement
    rcases hfound line statement with hone | ⟨hnone, hempty⟩
    · rw [hone, List.flatten_singleton]
    · rw [hnone, hempty, List.flatten_nil]
  rw [declarationsOf, inOrder_of_perm hsingle hperm, flatMap_located, Program.gather]
  refine congrArg (fun f => (program.zipIdx 1).flatMap f) ?_
  funext statement
  exact hflat _ _

/-! ## Imports -/

theorem clauseImport_program (program : List Statement) :
    Form.clauseImport.statements (Program.text program) =
      located Statement.chars (foundAs Statement.clause? Statement.importDecls) 0 1 program := by
  apply statements_of_recognises recognises_importFrom rfl rfl rfl
  intro statement item hitem line
  cases statement with
  | imports clause source =>
      cases hitem
      show (readClause clause.chars source.text).map _ = _
      rw [readClause_chars]
      rfl
  | _ => cases hitem

theorem bareImport_program (program : List Statement) :
    Form.bareImport.statements (Program.text program) =
      located Statement.chars (foundAs Statement.bareSource? Statement.importDecls) 0 1
        program := by
  apply statements_of_recognises recognises_importBare rfl rfl rfl
  intro statement item hitem line
  cases statement with
  | runs source =>
      cases hitem
      rfl
  | _ => cases hitem

/-- What is found of a statement in the forms of imports. -/
def foundImports (line : Nat) (statement : Statement) : List (List ImportDecl) :=
  foundAs Statement.clause? Statement.importDecls line statement ++
    foundAs Statement.bareSource? Statement.importDecls line statement

theorem importStatements_perm (program : List Statement) :
    (importStatements (Program.text program)).Perm
      (located Statement.chars foundImports 0 1 program) := by
  simp only [importStatements, importForms, List.flatMap_cons, List.flatMap_nil, List.append_nil,
    callImport_program, clauseImport_program, bareImport_program]
  exact located_append_perm 0 1 program

theorem declarationsOf_importStatements (program : List Statement) :
    declarationsOf (importStatements (Program.text program)) = Program.imports program := by
  apply declarationsOf_eq_gather (importStatements_perm program)
  intro line statement
  cases statement with
  | imports clause source => exact .inl rfl
  | runs source => exact .inl rfl
  | _ => exact .inr ⟨rfl, rfl⟩

/-! ## Lines that begin with `import` -/

/-- The word `import` begins the lines of the import statements. -/
theorem importWord?_chars (statement : Statement) {tail : List Char} (htail : EndsLine tail) :
    importWord? (statement.chars ++ tail) =
      if statement.isImport then
        some (' ' :: (statement.body ++ tail), ' ' :: (statement.body ++ tail))
      else none := by
  unfold importWord?
  rw [statement.after?_import htail]
  cases statement.isImport <;> rfl

theorem lineOccurrences_importWord? (program : List Statement) :
    lineOccurrences importWord? (Program.text program) =
      lineFinds importWord? 0 1 (program.map Statement.chars) := by
  apply lineOccurrences_join _ _ rfl
  · intro line hline
    obtain ⟨statement, -, rfl⟩ := List.mem_map.mp hline
    exact statement.lineEnd_not_mem
  · intro line hline tail htail found after hfound
    obtain ⟨statement, -, rfl⟩ := List.mem_map.mp hline
    rw [importWord?_chars statement htail] at hfound
    split at hfound
    · cases hfound
      simp only [List.length_cons, List.length_append]
      omega
    · cases hfound

/-- Every line that begins with `import` is one of the import statements. -/
theorem exists_of_mem_importWords {program : List Statement} {offset line : Nat}
    {o : Occurrence (List Char)}
    (ho : o ∈ lineFinds importWord? offset line (program.map Statement.chars)) :
    ∃ found ∈ located Statement.chars foundImports offset line program,
      found.offset = o.offset := by
  induction program generalizing offset line with
  | nil => cases ho
  | cons statement rest ih =>
      rw [List.map_cons, lineFinds, importWord?_chars statement (endsLine_tailOf _)] at ho
      rw [located]
      rcases List.mem_append.mp ho with hfirst | hrest
      · obtain ⟨result, hresult, rfl⟩ := List.mem_map.mp hfirst
        cases statement with
        | imports clause source => exact ⟨_, List.mem_append_left _ List.mem_cons_self, rfl⟩
        | runs source => exact ⟨_, List.mem_append_left _ List.mem_cons_self, rfl⟩
        | _ => cases hresult
      · obtain ⟨found, hfound, hoffset⟩ := ih hrest
        exact ⟨found, List.mem_append_right _ hfound, hoffset⟩

theorem unreadableImport?_program (program : List Statement) :
    unreadableImport? (Program.text program) (importStatements (Program.text program)) = none := by
  unfold unreadableImport?
  rw [Option.map_eq_none_iff, List.find?_eq_none, lineOccurrences_importWord?]
  intro o ho
  -- The import statement of this line is among those that were found.
  obtain ⟨found, hfound, hoffset⟩ := exists_of_mem_importWords ho
  have hany : (importStatements (Program.text program)).any (·.offset == o.offset) = true := by
    rw [List.any_eq_true]
    exact ⟨found, (importStatements_perm program).mem_iff.mpr hfound, by simp [hoffset]⟩
  simp [hany]

/-! ## Exported names -/

theorem Identifier.text_ne_empty (name : Identifier) : name.text ≠ "" := by
  obtain ⟨c, rest, hchars, -⟩ := name.exists_chars_eq_cons
  intro hempty
  have hnil := congrArg String.toList hempty
  rw [text, hchars, String.toList_ofList] at hnil
  cases hnil

theorem name_ne_empty_of_mem_clause {clause : Clause} {source : String} {decl : ImportDecl}
    (h : decl ∈ clause.imports source) : decl.name ≠ "" := by
  have hlist : ∀ items : List Item, decl ∈ Clause.listImports items source → decl.name ≠ "" := by
    intro items hitems
    obtain ⟨item, -, rfl⟩ := List.mem_map.mp hitems
    exact item.name.text_ne_empty
  cases clause with
  | defaultOnly name =>
      rw [List.mem_singleton.mp h]
      exact (by decide : defaultName ≠ "")
  | wholeModule name =>
      rw [List.mem_singleton.mp h]
      exact (by decide : namespaceName ≠ "")
  | listOnly items => exact hlist items h
  | defaultAndList name items =>
      rcases List.mem_cons.mp h with rfl | hitems
      · exact (by decide : defaultName ≠ "")
      · exact hlist items hitems

/-- An import that gives a name imports something. -/
theorem isSideEffect_of_mem_imports {program : List Statement} {decl : ImportDecl}
    (h : decl ∈ Program.imports program) (hname : decl.localName ≠ "") :
    decl.isSideEffect = false := by
  obtain ⟨⟨statement, line⟩, -, hdecl⟩ := List.mem_flatMap.mp h
  have hne : decl.name ≠ "" := by
    cases statement with
    | imports clause source =>
        obtain ⟨imported, himported, rfl⟩ := List.mem_map.mp hdecl
        show imported.name ≠ ""
        exact name_ne_empty_of_mem_clause himported
    | runs source =>
        rw [List.mem_singleton.mp hdecl] at hname
        exact absurd rfl hname
    | _ => cases hdecl
  simpa [ImportDecl.isSideEffect] using hne

/-- The binding of a name is the last import of it. -/
theorem bindingOf_eq_lastImport? (imports : List ImportDecl) (name : Identifier) :
    bindingOf imports name.text = Statement.lastImport? imports name := by
  have hpick : (fun decl : ImportDecl => decl.localName != "" && decl.localName == name.text) =
      fun decl => decl.localName == name.text := by
    funext decl
    by_cases heq : decl.localName = name.text
    · simp [heq, name.text_ne_empty]
    · simp [heq]
  rw [bindingOf, hpick, List.getLast?_eq_head?_reverse, ← List.filter_reverse, List.head?_filter]
  rfl

theorem localExport_eq_exportOf (program : List Statement) (name : Identifier) (exported : String)
    (line : Nat) :
    localExport (Program.imports program) name.text exported line =
      Statement.exportOf (Program.imports program) name exported line := by
  unfold localExport Statement.exportOf
  rw [bindingOf_eq_lastImport?]
  cases hlast : Statement.lastImport? (Program.imports program) name with
  | none => rfl
  | some decl =>
      have hmem : decl ∈ Program.imports program :=
        List.mem_reverse.mp (List.mem_of_find?_eq_some hlast)
      have hgiven : decl.localName = name.text := by simpa using List.find?_some hlast
      have hname : decl.localName ≠ "" := by
        rw [hgiven]
        exact name.text_ne_empty
      simp [isSideEffect_of_mem_imports hmem hname]

/-! ## Exports -/

section Exports

variable (program : List Statement)

/-- What the statements of a program export. -/
def exportDeclsOf : Nat → Statement → List ExportDecl :=
  Statement.exportDecls (Program.imports program)

theorem forwardedList_program :
    Form.forwardedList.statements (Program.text program) =
      located Statement.chars (foundAs Statement.forwardedList? (exportDeclsOf program)) 0 1
        program := by
  apply statements_of_recognises recognises_exportFrom rfl rfl rfl
  intro statement item hitem line
  cases statement with
  | forwards items source =>
      cases hitem
      show (readList (listBody items)).map _ = _
      rw [readList_listBody, List.map_map]
      rfl
  | _ => cases hitem

theorem forwardedModule_program :
    Form.forwardedModule.statements (Program.text program) =
      located Statement.chars (foundAs Statement.forwardedModule? (exportDeclsOf program)) 0 1
        program := by
  apply statements_of_recognises recognises_exportStar rfl rfl rfl
  intro statement item hitem line
  cases statement with
  | forwardsAll source =>
      cases hitem
      rfl
  | forwardsWhole name source =>
      cases hitem
      rfl
  | _ => cases hitem

theorem star_program :
    Form.star.statements (Program.text program) =
      located Statement.chars (foundAs Statement.forwardedModule? fun _ statement =>
        statement.stars) 0 1 program := by
  apply statements_of_recognises recognises_exportStar rfl rfl rfl
  intro statement item hitem line
  cases statement with
  | forwardsAll source =>
      cases hitem
      rfl
  | forwardsWhole name source =>
      cases hitem
      rfl
  | _ => cases hitem

/-- The list of an export without a specifier. -/
def Statement.listedList? : Statement → Option (List Char)
  | exportsList items => some (listBody items)
  | _ => none

theorem exportedList_program :
    (Form.exportedList (Program.imports program)).statements (Program.text program) =
      located Statement.chars (foundAs Statement.listedList? (exportDeclsOf program)) 0 1
        program := by
  have hlisted : (fun (_ : Nat) (statement : Statement) =>
      if statement.forwardedList?.toList.isEmpty then statement.exportedList?.toList else []) =
        fun _ statement => statement.listedList?.toList := by
    funext line statement
    cases statement <;> rfl
  show ((lineOccurrences exportList? (Program.text program)).filter fun o =>
    !((lineOccurrences exportFrom? (Program.text program)).map (·.offset)).contains o.offset).map
      _ = _
  rw [lineOccurrences_program recognises_exportFrom rfl,
    lineOccurrences_program recognises_exportList rfl, filter_located, hlisted]
  apply map_located
  intro statement item hitem offset line
  cases statement with
  | exportsList items =>
      cases hitem
      dsimp only [Form.exportedList]
      rw [readList_listBody, List.map_map]
      exact List.map_congr_left fun item _ => localExport_eq_exportOf program _ _ _
  | _ => cases hitem

theorem declaration_program :
    Form.declaration.statements (Program.text program) =
      located Statement.chars (foundAs Statement.declaredName? (exportDeclsOf program)) 0 1
        program := by
  apply statements_of_recognises recognises_exportDeclaration rfl rfl rfl
  intro statement item hitem line
  cases statement with
  | declares declared name =>
      cases hitem
      rfl
  | _ => cases hitem

theorem default_program :
    (Form.default (Program.imports program)).statements (Program.text program) =
      located Statement.chars (foundAs Statement.defaultWord? (exportDeclsOf program)) 0 1
        program := by
  apply statements_of_recognises recognises_exportDefault rfl rfl rfl
  intro statement item hitem line
  cases statement with
  | exportsDefault name ne_keyword =>
      cases hitem
      have hkeyword : defaultKeywords.contains name.text = false := by
        simpa using ne_keyword
      show [if defaultKeywords.contains name.text then _ else
        localExport (Program.imports program) name.text defaultName line] = _
      rw [hkeyword, localExport_eq_exportOf]
      rfl
  | _ => cases hitem

/-- What is found of a statement in the forms of exports. -/
def foundExports (line : Nat) (statement : Statement) : List (List ExportDecl) :=
  let declared := exportDeclsOf program
  foundAs Statement.forwardedList? declared line statement ++
    foundAs Statement.forwardedModule? declared line statement ++
    foundAs Statement.listedList? declared line statement ++
    foundAs Statement.declaredName? declared line statement ++
    foundAs Statement.defaultWord? declared line statement

/-- A program exports neither patterns nor by assignments. -/
theorem exportStatements_perm :
    (exportStatements (Program.imports program) (Program.text program)).Perm
      (located Statement.chars (foundExports program) 0 1 program) := by
  have hpattern : Form.pattern.statements (Program.text program) = [] :=
    statements_of_never recognises_exportPattern rfl rfl program
  have hassigned : Form.assignedName.statements (Program.text program) = [] :=
    statements_of_never recognises_assignedName rfl rfl program
  have hdefault : Form.assignedDefault.statements (Program.text program) = [] :=
    statements_of_never recognises_assignedDefault rfl rfl program
  simp only [exportStatements, exportForms, List.flatMap_cons, List.flatMap_nil, List.append_nil,
    List.nil_append, hpattern, hassigned, hdefault, forwardedList_program, forwardedModule_program,
    exportedList_program, declaration_program, default_program, ← List.append_assoc]
  exact perm_append_located (perm_append_located (perm_append_located
    (located_append_perm 0 1 program)))

theorem declarationsOf_exportStatements :
    declarationsOf (exportStatements (Program.imports program) (Program.text program)) =
      Program.gather program (exportDeclsOf program) := by
  apply declarationsOf_eq_gather (exportStatements_perm program)
  intro line statement
  cases statement with
  | blank => exact .inr ⟨rfl, rfl⟩
  | imports clause source => exact .inr ⟨rfl, rfl⟩
  | runs source => exact .inr ⟨rfl, rfl⟩
  | _ => exact .inl rfl

theorem declarationsOf_star :
    declarationsOf (Form.star.statements (Program.text program)) =
      Program.gather program fun _ statement => statement.stars := by
  apply declarationsOf_eq_gather (.of_eq (star_program program))
  intro line statement
  cases statement with
  | forwardsAll source => exact .inl rfl
  | forwardsWhole name source => exact .inl rfl
  | _ => exact .inr ⟨rfl, rfl⟩

end Exports

/-! ## Whole programs -/

theorem readBlanked_program (program : List Statement) :
    readBlanked (Program.text program) = .ok (Program.declarations program) := by
  unfold readBlanked
  dsimp only
  rw [unreadableImport?_program]
  dsimp only
  rw [declarationsOf_importStatements, declarationsOf_exportStatements, declarationsOf_star]
  rfl

end LiveExports.Source

namespace LiveExports

/-- A module whose source is the text of a program declares what the program does. -/
theorem Declarations.ofSource_program (module : ModuleId) (program : List Source.Statement) :
    Declarations.ofSource module (String.ofList (Source.Program.text program)) =
      .ok (Source.Program.declarations program) := by
  unfold Declarations.ofSource Source.read
  rw [String.toList_ofList, Source.blankComments_program]
  dsimp only
  rw [Source.readBlanked_program]

end LiveExports
