import LiveExports.Proofs.Source.Parts

/-!
# Reading lists and clauses back

A list that is written between braces is read back item by item, and a clause gives the imports that
it stands for.  An item with another name is told from one that is marked with `type` because such a
name is not `type` itself.
-/

namespace LiveExports.Source

/-! ## Blanks around a text -/

/-- A text that neither begins nor ends with a blank. -/
def IsTrimmed (text : List Char) : Prop :=
  (∃ c, text.head? = some c ∧ Text.isBlank c = false) ∧
    ∃ c, text.getLast? = some c ∧ Text.isBlank c = false

namespace IsTrimmed

variable {text : List Char} (h : IsTrimmed text)

include h

theorem ne_nil : text ≠ [] := by
  rintro rfl
  obtain ⟨⟨c, hc, -⟩, -⟩ := h
  cases hc

theorem trimStart_append (rest : List Char) : Text.trimStart (text ++ rest) = text ++ rest := by
  obtain ⟨⟨c, hc, hblank⟩, -⟩ := h
  obtain ⟨others, rfl⟩ := List.head?_eq_some_iff.mp hc
  exact trimStart_cons hblank _

theorem trimEnd_eq : Text.trimEnd text = text := by
  obtain ⟨-, c, hc, hblank⟩ := h
  obtain ⟨others, rfl⟩ := List.getLast?_eq_some_iff.mp hc
  unfold Text.trimEnd
  rw [List.reverse_append, List.reverse_singleton, List.singleton_append,
    List.dropWhile_cons_of_neg (by simp [hblank]), List.reverse_cons, List.reverse_reverse]

theorem trimEnd_space : Text.trimEnd (text ++ [' ']) = text := by
  have hspace : Text.isBlank ' ' = true := by decide
  have htrim := h.trimEnd_eq
  unfold Text.trimEnd at htrim ⊢
  rw [List.reverse_append, List.reverse_singleton, List.singleton_append,
    List.dropWhile_cons_of_pos hspace, htrim]

theorem trim_eq : Text.trim text = text := by
  have hstart := h.trimStart_append []
  rw [List.append_nil] at hstart
  rw [Text.trim, hstart, h.trimEnd_eq]

theorem trim_before : Text.trim (' ' :: text) = text := by
  have hstart := h.trimStart_append []
  rw [List.append_nil] at hstart
  rw [Text.trim, trimStart_space, hstart, h.trimEnd_eq]

/-- A text that begins and ends with trimmed ones. -/
theorem append {last : List Char} (hlast : IsTrimmed last) (middle : List Char) :
    IsTrimmed (text ++ (middle ++ last)) := by
  obtain ⟨⟨c, hc, hfirst⟩, -⟩ := h
  obtain ⟨-, d, hd, hend⟩ := hlast
  refine ⟨⟨c, ?_, hfirst⟩, d, ?_, hend⟩
  · rw [List.head?_append, hc]
    rfl
  · rw [List.getLast?_append, List.getLast?_append, hd]
    rfl

theorem trim_around : Text.trim (' ' :: (text ++ [' '])) = text := by
  rw [Text.trim, trimStart_space, h.trimStart_append, h.trimEnd_space]

end IsTrimmed

theorem Identifier.isTrimmed (name : Identifier) : IsTrimmed name.chars := by
  obtain ⟨c, rest, hchars, hbegins⟩ := name.exists_chars_eq_cons
  exact ⟨⟨c, by rw [hchars]; rfl,
    isBlank_of_continuesIdentifier (continuesIdentifier_of_begins hbegins)⟩,
    name.exists_getLast?_chars⟩

theorem Clause.isTrimmed (clause : Clause) : IsTrimmed clause.chars := by
  obtain ⟨c, rest, hchars, hblank, -⟩ := clause.exists_chars_eq_cons
  exact ⟨⟨c, by rw [hchars]; rfl, hblank⟩, clause.exists_getLast?_chars⟩

theorem Item.isTrimmed (item : Item) : IsTrimmed item.chars := by
  unfold Item.chars
  split
  · exact item.name.isTrimmed
  · next given _ =>
    rw [List.append_assoc]
    exact item.name.isTrimmed.append given.isTrimmed _

/-! ## Items -/

theorem words_single {word : List Char} (hne : word ≠ [])
    (hword : word.any Text.isBlank = false) : Text.words word = [word] := by
  have hblank : ∀ c ∈ word, Text.isBlank c = false := by simpa using hword
  have hsplit := Text.splitWhen_append hblank (show Text.splitWhen Text.isBlank [] = [[]] from rfl)
  rw [List.append_nil] at hsplit
  rw [Text.words, hsplit]
  simp [hne]

theorem words_append {word : List Char} (hne : word ≠ [])
    (hword : word.any Text.isBlank = false) (rest : List Char) :
    Text.words (word ++ ' ' :: rest) = word :: Text.words rest := by
  have hblank : ∀ c ∈ word, Text.isBlank c = false := by simpa using hword
  have hrest : Text.splitWhen Text.isBlank (' ' :: rest) = [] :: Text.splitWhen Text.isBlank rest :=
    rfl
  rw [Text.words, Text.splitWhen_append hblank hrest, Text.words]
  simp [hne]

/-- A name alone is not marked with `type`. -/
theorem after?_type_name (name : Identifier) : Text.after? "type ".toList name.chars = none := by
  cases hafter : Text.after? "type ".toList name.chars with
  | none => rfl
  | some rest =>
      have htext := Text.eq_append_of_after? hafter
      have hspace : ' ' ∈ name.chars := htext ▸ List.mem_append_left _ (by decide)
      exact absurd hspace (name.not_mem (by decide))

/-- Nor is a name that is given another, as it would be `type` itself. -/
theorem after?_type_renamed {name : Identifier} (hname : name.chars ≠ "type".toList)
    (rest : List Char) : Text.after? "type ".toList (name.chars ++ ' ' :: rest) = none := by
  cases hafter : Text.after? "type ".toList (name.chars ++ ' ' :: rest) with
  | none => rfl
  | some left =>
      have hfirst : ∀ word : List Char, ' ' ∉ word → ∀ more,
          (word ++ ' ' :: more).takeWhile (· != ' ') = word := by
        intro word hword more
        refine (takeWhile_append_stop (fun c hc => ?_) (by decide) more).1
        have hne : c ≠ ' ' := by
          rintro rfl
          exact hword hc
        simpa using hne
      -- The text up to its first space is the name, and it is `type`.
      have hsame : name.chars ++ ' ' :: rest = "type".toList ++ ' ' :: left := by
        rw [Text.eq_append_of_after? hafter]
        simp
      have htype := hfirst name.chars (name.not_mem (by decide)) rest
      rw [hsame, hfirst "type".toList (by decide)] at htype
      exact absurd htype.symm hname

/-- An item is read back. -/
theorem readItem_chars (item : Item) :
    readItem item.chars = (item.name.text, item.given.text) := by
  have hblank : ∀ name : Identifier, name.chars.any Text.isBlank = false := by
    intro name
    simpa using fun c => name.isBlank_of_mem
  obtain ⟨name, renamed, ne_type⟩ := item
  cases renamed with
  | none =>
      show readItem name.chars = (name.text, name.text)
      unfold readItem
      rw [after?_type_name]
      simp only [Option.map_none, Option.getD_none,
        words_single name.isTrimmed.ne_nil (hblank name)]
      rfl
  | some given =>
      have htext : Item.chars ⟨name, some given, ne_type⟩ =
          name.chars ++ ' ' :: (['a', 's'] ++ ' ' :: given.chars) := by
        simp [Item.chars]
      rw [htext]
      unfold readItem
      rw [after?_type_renamed (ne_type rfl)]
      simp only [Option.map_none, Option.getD_none]
      rw [words_append name.isTrimmed.ne_nil (hblank name),
        words_append (by decide) (by decide), words_single given.isTrimmed.ne_nil (hblank given)]
      rfl

/-! ## Lists -/

theorem listItems_append (first rest : List Char) :
    listItems (first ++ ',' :: rest) = listItems first ++ listItems rest := by
  simp [listItems, Text.split_append_separator]

theorem listItems_of_not_mem {text : List Char} (hcomma : ',' ∉ text)
    (htrim : Text.trim text ≠ []) : listItems text = [Text.trim text] := by
  simp [listItems, Text.split_of_not_mem hcomma, htrim]

/-- The items of a list are those that were written. -/
theorem listItems_listBody (items : List Item) :
    listItems (listBody items) = items.map Item.chars := by
  have hcomma : ∀ item : Item, ',' ∉ item.chars := by
    intro item hmem
    have hall := item.all_chars (fun _ => of_continuesIdentifier (· != ',') (by decide)) rfl
    exact absurd (List.all_eq_true.mp hall _ hmem) (by decide)
  induction items with
  | nil => rfl
  | cons item rest ih =>
      cases rest with
      | nil =>
          have hbody : listBody [item] = ' ' :: (item.chars ++ [' ']) := rfl
          rw [hbody, listItems_of_not_mem (by simp [hcomma]), item.isTrimmed.trim_around]
          · rfl
          · rw [item.isTrimmed.trim_around]
            exact item.isTrimmed.ne_nil
      | cons second others =>
          have hbody : listBody (item :: second :: others) =
              ' ' :: item.chars ++ ',' :: listBody (second :: others) := by
            simp [listBody, Text.join]
          rw [hbody, listItems_append, ih, listItems_of_not_mem (by simp [hcomma]),
            item.isTrimmed.trim_before]
          · rfl
          · rw [item.isTrimmed.trim_before]
            exact item.isTrimmed.ne_nil

theorem readList_listBody (items : List Item) :
    readList (listBody items) = items.map fun item => (item.name.text, item.given.text) := by
  rw [readList, listItems_listBody, List.map_map]
  exact List.map_congr_left fun item _ => readItem_chars item

/-! ## Clauses -/

theorem splitBraces_of_not_mem {text : List Char} (h : '\x7b' ∉ text) :
    splitBraces text = (text, none) := by
  have hall : ∀ c ∈ text, decide (c ≠ '\x7b') = true := by
    intro c hc
    have hne : c ≠ '\x7b' := by
      rintro rfl
      exact h hc
    simpa using hne
  have hdrop : (text ++ []).dropWhile (fun c => decide (c ≠ '\x7b')) = [] :=
    List.dropWhile_append_of_pos hall
  rw [List.append_nil] at hdrop
  unfold splitBraces
  rw [hdrop]

theorem splitBraces_braces {head : List Char} (h : '\x7b' ∉ head) (body : List Char) :
    splitBraces (head ++ '\x7b' :: (body ++ ['\x7d'])) = (head, some body) := by
  have hhead : ∀ c ∈ head, decide (c ≠ '\x7b') = true := by
    intro c hc
    have hne : c ≠ '\x7b' := by
      rintro rfl
      exact h hc
    simpa using hne
  obtain ⟨htake, hdrop⟩ := takeWhile_append_stop hhead
    (show decide ('\x7b' ≠ '\x7b') = false by decide) (body ++ ['\x7d'])
  unfold splitBraces
  rw [htake, hdrop]
  simp

theorem splitBraces_append {head : List Char} (h : '\x7b' ∉ head) (items : List Item) :
    splitBraces (head ++ bracedList items) = (head, some (listBody items)) :=
  splitBraces_braces h (listBody items)

theorem listItems_of_isTrimmed {text : List Char} (h : IsTrimmed text) (hcomma : ',' ∉ text) :
    listItems text = [text] := by
  have htrim := h.trim_eq
  rw [listItems_of_not_mem hcomma, htrim]
  rw [htrim]
  exact h.ne_nil

theorem listItems_name (name : Identifier) : listItems name.chars = [name.chars] :=
  listItems_of_isTrimmed name.isTrimmed (name.not_mem (by decide))

theorem readHeadPart_name (name : Identifier) (source : String) :
    readHeadPart source name.chars = Clause.defaultImport name source := by
  obtain ⟨c, rest, hchars, hbegins⟩ := name.exists_chars_eq_cons
  have hstar : c ≠ '*' := by
    rintro rfl
    exact absurd hbegins (by decide)
  unfold readHeadPart
  split
  · next heq =>
    rw [hchars] at heq
    exact absurd (List.cons.inj heq).1 hstar
  · rfl

/-- `* as N` binds `N`. -/
theorem readHeadPart_wholeModule (name : Identifier) (source : String) :
    readHeadPart source (Clause.chars (.wholeModule name)) =
      { source, name := namespaceName, localName := name.text } := by
  have hbound : IsTrimmed ('a' :: 's' :: ' ' :: name.chars) := by
    obtain ⟨last, hlast, hblank⟩ := name.exists_getLast?_chars
    refine ⟨⟨'a', rfl, by decide⟩, last, ?_, hblank⟩
    simp [List.getLast?_cons, hlast]
  have htext : Clause.chars (.wholeModule name) = '*' :: ' ' :: 'a' :: 's' :: ' ' :: name.chars :=
    rfl
  have hafter : Text.after? "as".toList ('a' :: 's' :: ' ' :: name.chars) =
      some (' ' :: name.chars) := rfl
  rw [htext]
  unfold readHeadPart
  simp only [hbound.trim_before]
  rw [hafter, Option.map_some, name.isTrimmed.trim_before]
  rfl

/-- A clause gives what it imports. -/
theorem readClause_chars (clause : Clause) (source : String) :
    readClause clause.chars source = clause.imports source := by
  have hname : ∀ name : Identifier, '\x7b' ∉ name.chars := fun name => name.not_mem (by decide)
  unfold readClause
  rw [clause.isTrimmed.trim_eq]
  cases clause with
  | defaultOnly name =>
      rw [Clause.chars, splitBraces_of_not_mem (hname name)]
      simp only [listItems_name, List.map_cons, List.map_nil, readHeadPart_name]
      rfl
  | wholeModule name =>
      have hbrace : '\x7b' ∉ Clause.chars (.wholeModule name) := by simp [Clause.chars, hname]
      have hcomma : ',' ∉ Clause.chars (.wholeModule name) := by
        simp [Clause.chars, name.not_mem (show continuesIdentifier ',' = false by decide)]
      have hitems := listItems_of_isTrimmed (Clause.wholeModule name).isTrimmed hcomma
      rw [splitBraces_of_not_mem hbrace]
      simp only [hitems, List.map_cons, List.map_nil, readHeadPart_wholeModule]
      rfl
  | listOnly items =>
      have hsplit := splitBraces_append (show '\x7b' ∉ [] by simp) items
      rw [List.nil_append] at hsplit
      rw [Clause.chars, hsplit]
      simp only [Option.getD_some, readList_listBody, List.map_map]
      rfl
  | defaultAndList name items =>
      have hhead : listItems (name.chars ++ [',', ' ']) = [name.chars] := by
        rw [listItems_append, listItems_name]
        rfl
      rw [Clause.chars, splitBraces_append (by simp [hname])]
      simp only [Option.getD_some, readList_listBody, List.map_map, hhead, List.map_cons,
        List.map_nil, readHeadPart_name]
      rfl

end LiveExports.Source
