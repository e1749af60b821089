import Mathlib.Data.List.Nodup
import LiveExports.Proofs.Source.LineIndex
import LiveExports.Text.Pieces

/-!
# Occurrences line by line

A text is made of pieces that stand on a line each.  A recogniser that never goes beyond the line it
begins on finds in the text what it finds on each of the lines (`lineOccurrences_join`).  What
several recognisers find is put in the order of the lines (`inOrder_of_perm`).
-/

namespace LiveExports.Source

variable {α σ : Type}

/-- What may follow a line: nothing, or a line end. -/
def EndsLine (tail : List Char) : Prop :=
  tail = [] ∨ ∃ more, tail = '\n' :: more

/-- What follows the first of the lines. -/
def tailOf : List (List Char) → List Char
  | [] => []
  | line :: lines => '\n' :: Text.join '\n' (line :: lines)

theorem endsLine_tailOf (lines : List (List Char)) : EndsLine (tailOf lines) := by
  cases lines with
  | nil => exact .inl rfl
  | cons line lines => exact .inr ⟨_, rfl⟩

theorem join_cons (line : List Char) (lines : List (List Char)) :
    Text.join '\n' (line :: lines) = line ++ tailOf lines := by
  cases lines with
  | nil => simp [Text.join, tailOf]
  | cons second others => rw [Text.join, tailOf]; exact List.cons_ne_nil second others

/-! ## One line after the other -/

section Lines

variable (recognise : List Char → Option (α × List Char))

/-- What a recogniser finds at the beginning of each line. -/
def lineFinds : (offset line : Nat) → List (List Char) → List (Occurrence α)
  | _, _, [] => []
  | offset, line, first :: rest =>
    ((recognise (first ++ tailOf rest)).toList.map fun found =>
      { offset, line, found := found.1 }) ++
      lineFinds (offset + byteLength first + 1) (line + 1) rest

variable {recognise}

/-- Inside of a line nothing is looked for. -/
theorem occurrencesFrom_inside {previous : Char} (hprevious : previous ≠ '\n') {text : List Char}
    (htext : '\n' ∉ text) {skip : Nat} (hskip : skip ≤ text.length) (offset line : Nat)
    (tail : List Char) :
    ∃ last ≠ '\n', occurrencesFrom beginsLine recognise (some previous) offset line skip
        (text ++ tail) =
      occurrencesFrom beginsLine recognise (some last) (offset + byteLength text) line 0 tail := by
  induction text generalizing previous skip offset with
  | nil =>
      have hzero : skip = 0 := by simpa using hskip
      rw [hzero]
      exact ⟨previous, hprevious, rfl⟩
  | cons c text ih =>
      rw [List.mem_cons, not_or] at htext
      have hc : c ≠ '\n' := Ne.symm htext.1
      rw [byteLength_cons, ← Nat.add_assoc, List.cons_append]
      cases skip with
      | zero =>
          obtain ⟨last, hlast, heq⟩ := ih hc htext.2 (Nat.zero_le _) (offset + c.utf8Size)
          refine ⟨last, hlast, ?_⟩
          rw [← heq]
          simp [occurrencesFrom, beginsLine, hprevious, hc]
      | succ skip =>
          rw [List.length_cons] at hskip
          obtain ⟨last, hlast, heq⟩ :=
            ih hc htext.2 (by omega : skip ≤ text.length) (offset + c.utf8Size)
          refine ⟨last, hlast, ?_⟩
          rw [← heq]
          simp [occurrencesFrom, hc]

/-- After a line the search goes on with the next. -/
theorem occurrencesFrom_tail {previous : Char} (hprevious : previous ≠ '\n') (offset line : Nat)
    (lines : List (List Char)) :
    occurrencesFrom beginsLine recognise (some previous) offset line 0 (tailOf lines) =
      occurrencesFrom beginsLine recognise (some '\n') (offset + 1) (line + 1) 0
        (Text.join '\n' lines) := by
  cases lines with
  | nil => rfl
  | cons first rest => simp [tailOf, occurrencesFrom, beginsLine, hprevious, utf8Size_lineEnd]

/-- The step from the beginning of a line to the next: a recogniser that stays on the line finds
what it finds at its beginning. -/
theorem occurrencesFrom_line {first : List Char} (hfirst : '\n' ∉ first) {rest : List (List Char)}
    (hstays : ∀ found after, recognise (first ++ tailOf rest) = some (found, after) →
      (tailOf rest).length ≤ after.length)
    (hnothing : recognise [] = none) {previous : Option Char}
    (hprevious : beginsLine previous = true)
    (offset line : Nat) :
    occurrencesFrom beginsLine recognise previous offset line 0 (first ++ tailOf rest) =
      ((recognise (first ++ tailOf rest)).toList.map fun found =>
        { offset, line, found := found.1 }) ++
      occurrencesFrom beginsLine recognise (some '\n') (offset + byteLength first + 1) (line + 1) 0
        (Text.join '\n' rest) := by
  cases first with
  | nil =>
      -- An empty line is the last, or a line end follows at once.
      cases rest with
      | nil => simp [tailOf, occurrencesFrom, hnothing, Text.join]
      | cons second others =>
          rw [List.nil_append, tailOf] at hstays ⊢
          rw [occurrencesFrom, hprevious, if_pos rfl, if_pos rfl, utf8Size_lineEnd]
          cases hfound : recognise ('\n' :: Text.join '\n' (second :: others)) with
          | none => simp
          | some result =>
              obtain ⟨found, after⟩ := result
              have hafter := hstays found after hfound
              rw [List.length_cons] at hafter
              have hskip : (Text.join '\n' (second :: others)).length - after.length = 0 := by omega
              simp [hskip]
  | cons c text =>
      rw [List.mem_cons, not_or] at hfirst
      have hc : c ≠ '\n' := Ne.symm hfirst.1
      have hrest : ∀ skip, skip ≤ text.length →
          occurrencesFrom beginsLine recognise (some c) (offset + c.utf8Size) line skip
            (text ++ tailOf rest) =
          occurrencesFrom beginsLine recognise (some '\n') (offset + byteLength (c :: text) + 1)
            (line + 1) 0 (Text.join '\n' rest) := by
        intro skip hskip
        obtain ⟨last, hlast, heq⟩ :=
          occurrencesFrom_inside hc hfirst.2 hskip (offset + c.utf8Size) line
          (tailOf rest)
        rw [heq, occurrencesFrom_tail hlast, byteLength_cons, ← Nat.add_assoc]
      rw [List.cons_append] at hstays ⊢
      rw [occurrencesFrom, hprevious, if_pos rfl, if_neg hc]
      cases hfound : recognise (c :: (text ++ tailOf rest)) with
      | none => simpa using hrest 0 (Nat.zero_le _)
      | some result =>
          obtain ⟨found, after⟩ := result
          -- What the recogniser took is skipped; the line is not left by that.
          have hafter : (tailOf rest).length ≤ after.length := hstays found after hfound
          have hskip : (text ++ tailOf rest).length - after.length ≤ text.length := by
            rw [List.length_append]
            omega
          simpa using hrest _ hskip

variable {lines : List (List Char)} (hlines : ∀ line ∈ lines, '\n' ∉ line)
  (hstays : ∀ line ∈ lines, ∀ tail, EndsLine tail → ∀ found after,
    recognise (line ++ tail) = some (found, after) → tail.length ≤ after.length)
  (hnothing : recognise [] = none)

include hlines hstays hnothing

theorem occurrencesFrom_join {previous : Option Char} (hprevious : beginsLine previous = true)
    (offset line : Nat) :
    occurrencesFrom beginsLine recognise previous offset line 0 (Text.join '\n' lines) =
      lineFinds recognise offset line lines := by
  induction lines generalizing previous offset line with
  | nil => rfl
  | cons first rest ih =>
      have hfirst := hlines first List.mem_cons_self
      have hwithin := hstays first List.mem_cons_self _ (endsLine_tailOf rest)
      rw [join_cons, occurrencesFrom_line hfirst hwithin hnothing hprevious, lineFinds]
      congr 1
      exact ih (fun other hother => hlines other (List.mem_cons_of_mem _ hother))
        (fun other hother => hstays other (List.mem_cons_of_mem _ hother)) rfl _ _

theorem lineOccurrences_join :
    lineOccurrences recognise (Text.join '\n' lines) = lineFinds recognise 0 1 lines := by
  rw [lineOccurrences, occurrences_eq_occurrencesFrom]
  exact occurrencesFrom_join hlines hstays hnothing rfl 0 1

end Lines

/-! ## Statements on lines -/

section Located

variable (chars : σ → List Char)

/-- What is found for the statements of a program, each placed where its statement begins. -/
def located (found : Nat → σ → List α) : (offset line : Nat) → List σ → List (Occurrence α)
  | _, _, [] => []
  | offset, line, statement :: rest =>
    ((found line statement).map fun item => { offset, line, found := item }) ++
      located found (offset + byteLength (chars statement) + 1) (line + 1) rest

/-- A recogniser finds `found?` of a statement, whatever comes after its line, and does not go
beyond the line. -/
def Recognises (recognise : List Char → Option (α × List Char)) (found? : σ → Option α) : Prop :=
  ∀ statement tail, EndsLine tail → ∃ after, tail.length ≤ after.length ∧
    recognise (chars statement ++ tail) = (found? statement).map (·, after)

variable {chars}

theorem lineOccurrences_of_recognises {recognise : List Char → Option (α × List Char)}
    {found? : σ → Option α} (h : Recognises chars recognise found?)
    (hchars : ∀ statement, '\n' ∉ chars statement) (hnothing : recognise [] = none)
    (program : List σ) :
    lineOccurrences recognise (Text.join '\n' (program.map chars)) =
      located chars (fun _ statement => (found? statement).toList) 0 1 program := by
  have hfinds : ∀ offset line, lineFinds recognise offset line (program.map chars) =
      located chars (fun _ statement => (found? statement).toList) offset line program := by
    induction program with
    | nil => exact fun _ _ => rfl
    | cons statement rest ih =>
        intro offset line
        obtain ⟨after, -, heq⟩ := h statement _ (endsLine_tailOf (rest.map chars))
        rw [List.map_cons, lineFinds, located, heq, ih]
        cases found? statement <;> rfl
  rw [← hfinds]
  apply lineOccurrences_join _ _ hnothing
  · intro line hline
    obtain ⟨statement, -, rfl⟩ := List.mem_map.mp hline
    exact hchars statement
  · intro line hline tail htail found after hfound
    obtain ⟨statement, -, rfl⟩ := List.mem_map.mp hline
    obtain ⟨left, hleft, heq⟩ := h statement tail htail
    rw [heq] at hfound
    obtain ⟨item, -, hpair⟩ := Option.map_eq_some_iff.mp hfound
    rw [← (Prod.mk.inj hpair).2]
    exact hleft

variable {found other : Nat → σ → List α}

theorem le_offset_of_mem_located {offset line : Nat} {program : List σ} {o : Occurrence α}
    (h : o ∈ located chars found offset line program) : offset ≤ o.offset := by
  induction program generalizing offset line with
  | nil => cases h
  | cons statement rest ih =>
      rcases List.mem_append.mp h with hfirst | hrest
      · obtain ⟨item, -, rfl⟩ := List.mem_map.mp hfirst
        exact Nat.le_refl offset
      · have hle := ih hrest
        omega

theorem located_nothing (offset line : Nat) (program : List σ) :
    located chars (fun _ _ => ([] : List α)) offset line program = [] := by
  induction program generalizing offset line with
  | nil => rfl
  | cons statement rest ih =>
      rw [located, ih]
      rfl

/-- What is declared by the statements that something is found for. -/
def foundAs {β : Type} (found? : σ → Option α) (declared : Nat → σ → β) (line : Nat)
    (statement : σ) : List β :=
  (found? statement).toList.map fun _ => declared line statement

theorem map_located {β : Type} {found? : σ → Option α} {change : Occurrence α → β}
    {declared : Nat → σ → β}
    (hchange : ∀ statement item, found? statement = some item → ∀ offset line,
      change { offset, line, found := item } = declared line statement)
    (offset line : Nat) (program : List σ) :
    (located chars (fun _ statement => (found? statement).toList) offset line program).map
        (fun o => o.with (change o)) =
      located chars (foundAs found? declared) offset line program := by
  induction program generalizing offset line with
  | nil => rfl
  | cons statement rest ih =>
      rw [located, List.map_append, ih, located, foundAs]
      cases hfound : found? statement with
      | none => rfl
      | some item => simp [Occurrence.with, hchange statement item hfound]

/-- What is found in two ways is found together, up to the order. -/
theorem located_append_perm (offset line : Nat) (program : List σ) :
    (located chars found offset line program ++ located chars other offset line program).Perm
      (located chars (fun line statement => found line statement ++ other line statement)
        offset line program) := by
  induction program generalizing offset line with
  | nil => exact .refl _
  | cons statement rest ih =>
      simp only [located, List.map_append, List.append_assoc]
      refine List.Perm.append_left _ ?_
      refine (List.perm_append_comm_assoc _ _ _).trans (List.Perm.append_left _ ?_)
      exact ih _ _

theorem perm_append_located {items : List (Occurrence α)} {offset line : Nat} {program : List σ}
    (h : items.Perm (located chars found offset line program)) :
    (items ++ located chars other offset line program).Perm
      (located chars (fun line statement => found line statement ++ other line statement)
        offset line program) :=
  (h.append_right _).trans (located_append_perm offset line program)

/-- Where every statement gives at most one item, their offsets ascend. -/
theorem sorted_located (hsingle : ∀ line statement, (found line statement).length ≤ 1)
    (offset line : Nat) (program : List σ) :
    (located chars found offset line program).Pairwise fun a b => a.offset < b.offset := by
  induction program generalizing offset line with
  | nil => exact .nil
  | cons statement rest ih =>
      rw [located, List.pairwise_append]
      refine ⟨?_, ih _ _, ?_⟩
      · have hlength := hsingle line statement
        match found line statement, hlength with
        | [], _ => exact .nil
        | [item], _ => exact List.pairwise_singleton _ _
      · intro first hfirst later hlater
        obtain ⟨item, -, rfl⟩ := List.mem_map.mp hfirst
        have hle := le_offset_of_mem_located hlater
        show offset < later.offset
        omega

theorem pairwise_inOrder (items : List (Occurrence α)) :
    (inOrder items).Pairwise fun a b => a.offset ≤ b.offset := by
  have hordered : (inOrder items).Pairwise fun a b => decide (a.offset ≤ b.offset) = true := by
    apply List.pairwise_mergeSort
    · intro a b c hab hbc
      exact decide_eq_true (Nat.le_trans (of_decide_eq_true hab) (of_decide_eq_true hbc))
    · intro a b
      simpa using Nat.le_total a.offset b.offset
  exact hordered.imp of_decide_eq_true

/-- Putting in order gives the order of the lines. -/
theorem inOrder_of_perm (hsingle : ∀ line statement, (found line statement).length ≤ 1)
    {offset line : Nat} {program : List σ} {items : List (Occurrence α)}
    (hperm : items.Perm (located chars found offset line program)) :
    inOrder items = located chars found offset line program := by
  have hsorted : (located chars found offset line program).Pairwise fun a b =>
    a.offset < b.offset :=
    sorted_located hsingle offset line program
  have hpermuted : (inOrder items).Perm (located chars found offset line program) :=
    (List.mergeSort_perm items _).trans hperm
  refine hpermuted.eq_of_pairwise ?_ (pairwise_inOrder items) (hsorted.imp Nat.le_of_lt)
  -- No two items have one offset.
  have hdistinct : ((located chars found offset line program).map (·.offset)).Nodup :=
    List.pairwise_map.mpr (hsorted.imp Nat.ne_of_lt)
  intro a b ha hb hab hba
  exact List.inj_on_of_nodup_map hdistinct (hpermuted.mem_iff.mp ha) hb
    (Nat.le_antisymm hab hba)

theorem flatMap_located {found : Nat → σ → List (List α)} (offset line : Nat) (program : List σ) :
    (located chars found offset line program).flatMap (·.found) =
      (program.zipIdx line).flatMap fun (statement, line) => (found line statement).flatten := by
  induction program generalizing offset line with
  | nil => rfl
  | cons statement rest ih =>
      rw [located, List.flatMap_append, ih, List.zipIdx_cons, List.flatMap_cons]
      refine congrArg (· ++ _) ?_
      dsimp only
      rw [List.flatMap_map, List.flatten_eq_flatMap]
      rfl

/-- What is left when the statements that something else is found for are taken out by their
offsets. -/
theorem filter_located {β : Type} {taken : Nat → σ → List β} (offset line : Nat)
    (program : List σ) :
    (located chars found offset line program).filter (fun o =>
        !((located chars taken offset line program).map (·.offset)).contains o.offset) =
      located chars
        (fun line statement => if (taken line statement).isEmpty then found line statement else [])
        offset line program := by
  induction program generalizing offset line with
  | nil => rfl
  | cons statement rest ih =>
      have hlater : ∀ {γ : Type} {found : Nat → σ → List γ} {o : Occurrence γ},
          o ∈ located chars found (offset + byteLength (chars statement) + 1) (line + 1) rest →
            offset < o.offset := by
        intro γ found o ho
        have hle := le_offset_of_mem_located ho
        omega
      simp only [located, List.filter_append, List.map_append, List.map_map]
      refine congr (congrArg _ ?_) ?_
      · have hnever :
            ¬ ∃ o ∈ located chars taken (offset + byteLength (chars statement) + 1) (line + 1)
            rest, o.offset = offset := by
          rintro ⟨o, ho, heq⟩
          have hlt := hlater ho
          omega
        rw [List.filter_map]
        cases htaken : taken line statement with
        | nil => simp [Function.comp_def, hnever]
        | cons item items => simp [Function.comp_def]
      · rw [← ih]
        refine List.filter_congr fun o ho => ?_
        have hlt := hlater ho
        have hne : o.offset ≠ offset := by omega
        simp [Function.comp_def, hne]

end Located

end LiveExports.Source
