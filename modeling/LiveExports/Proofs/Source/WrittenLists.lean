import LiveExports.Proofs.Source.Lists

/-!
# Lists of items as they may be written

The items of a list may be marked with `type`, may have any white space around them, and a comma may
stand after the last one.  Any of the names may be `type` or `as`.  A list is read back item by item
(`readList_writtenList`), with one exception: in `type as a` the word `type` is taken for the mark,
so that the item is read as one for `as`.
-/

namespace LiveExports.Source

/-! ## Items and lists -/

/-- White space, or nothing at all. -/
structure Blanks where
  chars : List Char
  isBlank : ∀ c ∈ chars, Text.isBlank c = true

/-- An item as it may be written.  The name that it is given may be left out if it is the same. -/
structure WrittenItem where
  name : Identifier
  given : Identifier
  /-- Is the item marked with `type`? -/
  marked : Bool := false
  /-- Is the name that it is given written after `as`? -/
  renamed : Bool := false
  same : renamed = false → given = name
  before : Blanks := ⟨[], by simp⟩
  after : Blanks := ⟨[], by simp⟩

namespace WrittenItem

variable (item : WrittenItem)

/-- `a` or `a as b` -/
def core : List Char :=
  if item.renamed then item.name.chars ++ ' ' :: (['a', 's'] ++ ' ' :: item.given.chars)
  else item.name.chars

/-- `a`, `a as b`, `type a` or `type a as b` -/
def chars : List Char :=
  if item.marked then ['t', 'y', 'p', 'e', ' '] ++ item.core else item.core

/-- The item with the white space around it. -/
def padded : List Char :=
  item.before.chars ++ (item.chars ++ item.after.chars)

/-- The name of the item and the name that it is given. -/
def pair : String × String :=
  (item.name.text, item.given.text)

/-- Is the item `type as a`, with `type` for its name? -/
def renamesType : Bool :=
  !item.marked && item.renamed && item.name.chars == ['t', 'y', 'p', 'e']

/-- The two names that the item is read as. -/
def readAs : String × String :=
  if item.renamesType then ("as", "as") else item.pair

end WrittenItem

/-- What follows the last item of a list. -/
structure ListEnding where
  comma : Bool := false
  blanks : Blanks := ⟨[], by simp⟩

def ListEnding.chars (ending : ListEnding) : List Char :=
  if ending.comma then ',' :: ending.blanks.chars else ending.blanks.chars

/-- What stands between the braces of a list. -/
def writtenList (items : List WrittenItem) (ending : ListEnding) : List Char :=
  Text.join ',' (items.map WrittenItem.padded) ++ ending.chars

/-! ## White space -/

theorem Blanks.not_mem (blanks : Blanks) {c : Char} (hc : Text.isBlank c = false) :
    c ∉ blanks.chars := by
  intro hmem
  rw [blanks.isBlank c hmem] at hc
  cases hc

namespace IsTrimmed

variable {text : List Char} (h : IsTrimmed text)

include h

theorem trimEnd_append (blanks : Blanks) : Text.trimEnd (text ++ blanks.chars) = text := by
  have hblank : ∀ c ∈ blanks.chars.reverse, Text.isBlank c = true := fun c hc =>
    blanks.isBlank c (List.mem_reverse.mp hc)
  have htrim := h.trimEnd_eq
  unfold Text.trimEnd at htrim ⊢
  rw [List.reverse_append, List.dropWhile_append_of_pos hblank, htrim]

theorem trim_between (before after : Blanks) :
    Text.trim (before.chars ++ (text ++ after.chars)) = text := by
  rw [Text.trim, trimStart_blanks before.isBlank (h.trimStart_append _), h.trimEnd_append]

/-- A text without commas is an item, whatever the white space around it. -/
theorem listItems_between (hcomma : ',' ∉ text) (before after : Blanks) :
    listItems (before.chars ++ (text ++ after.chars)) = [text] := by
  have hblank : Text.isBlank ',' = false := by decide
  have htrim := h.trim_between before after
  rw [listItems_of_not_mem _ (by rw [htrim]; exact h.ne_nil), htrim]
  simp [hcomma, before.not_mem hblank, after.not_mem hblank]

end IsTrimmed

theorem Blanks.listItems_eq_nil (blanks : Blanks) : listItems blanks.chars = [] := by
  have hsplit := Text.split_of_not_mem (blanks.not_mem (show Text.isBlank ',' = false by decide))
  have hstart := trimStart_blanks blanks.isBlank (show Text.trimStart [] = [] from rfl)
  rw [List.append_nil] at hstart
  simp [listItems, hsplit, Text.trim, hstart, Text.trimEnd]

/-! ## Items -/

section Words

variable {item stripped first second third : List Char}
  (hstripped : ((Text.after? "type ".toList item).map Text.trim).getD item = stripped)

include hstripped

theorem readItem_of_one_word (hwords : Text.words stripped = [first]) :
    readItem item = (String.ofList first, String.ofList first) := by
  unfold readItem
  dsimp only
  rw [hstripped, hwords]

/-- A second word counts only if a third follows. -/
theorem readItem_of_two_words (hwords : Text.words stripped = [first, second]) :
    readItem item = (String.ofList first, String.ofList first) := by
  unfold readItem
  dsimp only
  rw [hstripped, hwords]

theorem readItem_of_three_words (hwords : Text.words stripped = [first, ['a', 's'], third]) :
    readItem item = (String.ofList first, String.ofList third) := by
  unfold readItem
  dsimp only
  rw [hstripped, hwords]
  rfl

end Words

theorem Identifier.any_isBlank (name : Identifier) : name.chars.any Text.isBlank = false := by
  simpa using fun c => name.isBlank_of_mem

theorem words_name (name : Identifier) : Text.words name.chars = [name.chars] :=
  words_single name.isTrimmed.ne_nil name.any_isBlank

/-- The words of `as a`. -/
theorem words_as (given : Identifier) :
    Text.words (['a', 's'] ++ ' ' :: given.chars) = [['a', 's'], given.chars] := by
  rw [words_append (by decide) (by decide), words_name]

namespace WrittenItem

variable (item : WrittenItem)

theorem isTrimmed_core : IsTrimmed item.core := by
  unfold core
  split
  · exact item.name.isTrimmed.append item.given.isTrimmed [' ', 'a', 's', ' ']
  · exact item.name.isTrimmed

theorem isTrimmed : IsTrimmed item.chars := by
  have hmark : IsTrimmed ['t'] := ⟨⟨'t', rfl, by decide⟩, 't', rfl, by decide⟩
  unfold chars
  split
  · exact hmark.append item.isTrimmed_core ['y', 'p', 'e', ' ']
  · exact item.isTrimmed_core

theorem comma_not_mem : ',' ∉ item.chars := by
  have hname : ∀ name : Identifier, ',' ∉ name.chars := fun name => name.not_mem (by decide)
  unfold chars core
  split <;> split <;> simp [hname]

/-- The names of an item are read from what is left without the mark. -/
theorem readItem_of_core {text : List Char}
    (hcore : ((Text.after? "type ".toList text).map Text.trim).getD text = item.core) :
    readItem text = item.pair := by
  unfold core at hcore
  split at hcore
  · refine readItem_of_three_words hcore ?_
    rw [words_append item.name.isTrimmed.ne_nil item.name.any_isBlank, words_as]
  · next hrenamed =>
    rw [readItem_of_one_word hcore (words_name item.name), pair,
      item.same (by simpa using hrenamed)]
    rfl

/-- A mark is taken off. -/
theorem readItem_marked (hmarked : item.marked = true) : readItem item.chars = item.pair := by
  apply item.readItem_of_core
  have hafter : Text.after? "type ".toList (['t', 'y', 'p', 'e', ' '] ++ item.core) =
      some item.core :=
    Text.after?_append _ item.core
  rw [chars, if_pos hmarked, hafter, Option.map_some, item.isTrimmed_core.trim_eq]
  rfl

/-- Nothing is taken off where there is no mark, and no name that looks like one. -/
theorem readItem_unmarked (hmarked : item.marked = false) (hname : item.renamesType = false) :
    readItem item.chars = item.pair := by
  apply item.readItem_of_core
  have hnone : Text.after? "type ".toList item.core = none := by
    unfold core
    split
    · next hrenamed =>
      apply after?_type_renamed
      simpa [renamesType, hmarked, hrenamed] using hname
    · exact after?_type_name item.name
  rw [chars, hmarked, if_neg Bool.false_ne_true, hnone]
  rfl

/-- The name `type` before `as` is taken for a mark, and what is left is two words. -/
theorem readItem_renamesType (hname : item.renamesType = true) :
    readItem item.chars = ("as", "as") := by
  simp only [renamesType, Bool.and_eq_true, Bool.not_eq_true', beq_iff_eq] at hname
  obtain ⟨⟨hmarked, hrenamed⟩, htype⟩ := hname
  have has : IsTrimmed ['a', 's'] := ⟨⟨'a', rfl, by decide⟩, 's', rfl, by decide⟩
  have hafter : Text.after? "type ".toList item.chars =
      some (['a', 's'] ++ ([' '] ++ item.given.chars)) := by
    rw [chars, hmarked, if_neg Bool.false_ne_true, core, if_pos hrenamed, htype]
    exact Text.after?_append ['t', 'y', 'p', 'e', ' '] _
  apply readItem_of_two_words _ (words_as item.given)
  rw [hafter, Option.map_some, (has.append item.given.isTrimmed [' ']).trim_eq]
  rfl

theorem readItem_chars : readItem item.chars = item.readAs := by
  unfold readAs
  split
  · next hname => exact item.readItem_renamesType hname
  · next hname =>
    cases hmarked : item.marked with
    | true => exact item.readItem_marked hmarked
    | false => exact item.readItem_unmarked hmarked (by simpa using hname)

/-- An item that is misread is not read as what it says. -/
theorem readAs_eq_pair_iff : item.readAs = item.pair ↔ item.renamesType = false := by
  unfold readAs
  split
  · next hname =>
    simp only [hname, Bool.true_eq_false, iff_false]
    intro hpair
    simp only [renamesType, Bool.and_eq_true, beq_iff_eq] at hname
    have htype : "as" = item.name.text := (Prod.mk.inj hpair).1
    rw [Identifier.text, hname.2] at htype
    exact absurd htype (by decide)
  · next hname => simpa using hname

end WrittenItem

/-! ## Lists -/

theorem listItems_writtenList (items : List WrittenItem) (ending : ListEnding) :
    listItems (writtenList items ending) = items.map WrittenItem.chars := by
  have hending : listItems ending.chars = [] := by
    unfold ListEnding.chars
    split
    · exact listItems_append [] _ ▸ ending.blanks.listItems_eq_nil
    · exact ending.blanks.listItems_eq_nil
  unfold writtenList
  induction items with
  | nil => exact hending
  | cons item rest ih =>
      have hitem := item.isTrimmed
      cases rest with
      | cons second others =>
          rw [List.map_cons, List.map_cons, Text.join, List.append_assoc, List.cons_append,
            ← List.map_cons, listItems_append, ih, WrittenItem.padded,
            hitem.listItems_between item.comma_not_mem]
          · rfl
          · simp
      | nil =>
          rw [List.map_singleton, Text.join, WrittenItem.padded]
          unfold ListEnding.chars at hending ⊢
          split
          · rw [listItems_append, hitem.listItems_between item.comma_not_mem,
              ending.blanks.listItems_eq_nil]
            rfl
          · have hafter : ∀ c ∈ item.after.chars ++ ending.blanks.chars, Text.isBlank c = true := by
              intro c hc
              exact (List.mem_append.mp hc).elim (item.after.isBlank c) (ending.blanks.isBlank c)
            rw [List.append_assoc, List.append_assoc]
            exact hitem.listItems_between item.comma_not_mem item.before ⟨_, hafter⟩

theorem map_readAs_eq_iff (items : List WrittenItem) :
    items.map WrittenItem.readAs = items.map WrittenItem.pair ↔
      ∀ item ∈ items, item.renamesType = false := by
  simp only [List.map_inj_left, WrittenItem.readAs_eq_pair_iff]

/-- The import of an item from a module. -/
def WrittenItem.importFrom (source : String) (item : WrittenItem) : ImportDecl where
  source := source
  name := item.readAs.1
  localName := item.readAs.2

theorem readList_items (items : List WrittenItem) (ending : ListEnding) :
    readList (writtenList items ending) = items.map WrittenItem.readAs := by
  rw [readList, listItems_writtenList, List.map_map]
  exact List.map_congr_left fun item _ => item.readItem_chars

/-- `D, { ... }` -/
def defaultAndWritten (name : Identifier) (items : List WrittenItem) (ending : ListEnding) :
    List Char :=
  name.chars ++ ([',', ' ', '\x7b'] ++ (writtenList items ending ++ ['\x7d']))

theorem readClause_items (name : Identifier) (items : List WrittenItem) (ending : ListEnding)
    (source : String) :
    readClause (defaultAndWritten name items ending) source =
      Clause.defaultImport name source :: items.map (WrittenItem.importFrom source) := by
  have hbrace : IsTrimmed ['\x7d'] := ⟨⟨'\x7d', rfl, by decide⟩, '\x7d', rfl, by decide⟩
  have htrim : Text.trim (defaultAndWritten name items ending) =
      name.chars ++ [',', ' '] ++ '\x7b' :: (writtenList items ending ++ ['\x7d']) := by
    rw [defaultAndWritten, ← List.append_assoc [',', ' ', '\x7b'],
      (name.isTrimmed.append hbrace _).trim_eq]
    simp
  have hhead : listItems (name.chars ++ [',', ' ']) = [name.chars] := by
    rw [listItems_append, listItems_name]
    rfl
  have hopen : '\x7b' ∉ name.chars := name.not_mem (by decide)
  unfold readClause
  rw [htrim, splitBraces_braces (by simp [hopen])]
  simp only [hhead, Option.getD_some, readList_items, List.map_cons, List.map_nil,
    readHeadPart_name, List.map_map]
  rfl

/-- A list is read back item by item, and so is `D, { ... }` with the default import before the
items.  What is read is what was written just if no item renames `type` without being marked. -/
theorem readList_writtenList (items : List WrittenItem) (ending : ListEnding) :
    readList (writtenList items ending) = items.map WrittenItem.readAs ∧
    (readList (writtenList items ending) = items.map WrittenItem.pair ↔
      ∀ item ∈ items, item.renamesType = false) ∧
    ∀ (name : Identifier) (source : String),
      readClause (defaultAndWritten name items ending) source =
        Clause.defaultImport name source :: items.map (WrittenItem.importFrom source) := by
  have hlist := readList_items items ending
  refine ⟨hlist, ?_, fun name source => readClause_items name items ending source⟩
  rw [hlist]
  exact map_readAs_eq_iff items

/-- The item `type as kind`. -/
def renamedType : WrittenItem where
  name := ⟨['t', 'y', 'p', 'e'], rfl⟩
  given := ⟨['k', 'i', 'n', 'd'], rfl⟩
  renamed := true
  same := nofun

theorem readList_writtenList_renamedType :
    String.ofList (writtenList [renamedType] {}) = "type as kind" ∧
    renamedType.pair = ("type", "kind") ∧
    readList (writtenList [renamedType] {}) = [("as", "as")] :=
  ⟨by decide +kernel, by decide +kernel, (readList_writtenList [renamedType] {}).1⟩

-- Marked items and other names are read back, `as` among them.
example :
    readList "type type as kind, as,\ttype as as as, as as type , type,".toList =
      [("type", "kind"), ("as", "as"), ("as", "as"), ("as", "type"), ("type", "type")] := by
  decide +kernel

end LiveExports.Source
