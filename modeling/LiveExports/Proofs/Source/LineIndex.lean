import Mathlib.Data.List.Basic
import LiveExports.Source.Occurrence
import LiveExports.Text.Utf8

/-!
# Looking lines up

The line that is looked up for a place is one more than the line ends before it (`lineOf_ofText`).
So what is found in a text is what is found by a search that counts the lines on its way
(`occurrences_eq_occurrencesFrom`), and this search is the one that later proofs follow.
-/

namespace LiveExports.Source

/-! ## Bytes -/

/-- The number of bytes of a text as it is stored. -/
def byteLength (text : List Char) : Nat :=
  (text.flatMap Text.encodeChar).length

theorem length_encodeChar (c : Char) : (Text.encodeChar c).length = c.utf8Size := by
  have hval : c.val.toNat = c.toNat := rfl
  simp only [Text.encodeChar, Char.utf8Size, UInt32.le_iff_toNat_le, hval]
  split_ifs <;> simp_all <;> omega

theorem utf8Size_lineEnd : '\n'.utf8Size = 1 :=
  rfl

@[simp] theorem byteLength_nil : byteLength [] = 0 :=
  rfl

@[simp] theorem byteLength_cons (c : Char) (text : List Char) :
    byteLength (c :: text) = c.utf8Size + byteLength text := by
  simp [byteLength, length_encodeChar]

theorem byteLength_append (text more : List Char) :
    byteLength (text ++ more) = byteLength text + byteLength more := by
  simp [byteLength]

/-! ## The binary search -/

namespace LineIndex

variable {index : LineIndex}

theorem start_eq_getElem {entry : Nat} (hentry : entry < index.starts.toList.length) :
    index.start entry = index.starts.toList[entry] := by
  rw [Array.length_toList] at hentry
  simp [start, Array.getD, hentry]

theorem start_lt_start {entry later : Nat} (hlt : entry < later)
    (hlater : later < index.starts.toList.length) : index.start entry < index.start later := by
  rw [start_eq_getElem hlater, start_eq_getElem (Nat.lt_trans hlt hlater)]
  exact List.pairwise_iff_getElem.mp index.ascending _ _ _ _ hlt

/-- The entries behind this one begin behind the place; this one does not, unless it is the
first. -/
structure ClosesOff (index : LineIndex) (offset entry : Nat) : Prop where
  lt_size : entry < index.starts.size
  below : entry = 0 ∨ index.start entry ≤ offset
  above : ∀ later, entry < later → later < index.starts.size → offset < index.start later

theorem closesOff_narrow {offset base size : Nat} (hsize : 0 < size)
    (hbound : base + size ≤ index.starts.size) (hbelow : base = 0 ∨ index.start base ≤ offset)
    (habove : ∀ later, base + size ≤ later → later < index.starts.size →
      offset < index.start later) :
    index.ClosesOff offset (index.narrow offset base size) := by
  fun_induction narrow index offset base size with
  | case1 base size hone =>
      refine ⟨by omega, hbelow, fun later hlt hlater => habove later ?_ hlater⟩
      omega
  | case2 base size hmore middle hbehind ih =>
      -- The upper half begins behind the place, and so do all its entries.
      refine ih (by omega) (by omega) hbelow fun later hlater hbounded => ?_
      rcases Nat.lt_or_ge middle later with hlt | hge
      · exact Nat.lt_trans hbehind (start_lt_start hlt (by simpa using hbounded))
      · have heq : later = middle := by omega
        rwa [heq]
  | case3 base size hmore middle hbefore ih =>
      refine ih (by omega) (by omega) (.inr (Nat.le_of_not_lt hbefore)) ?_
      intro later hlater hbounded
      exact habove later (by omega) hbounded

/-- The entries that begin at a place or before it are those up to the one that closes it off. -/
theorem countP_starts {offset entry : Nat} (h : index.ClosesOff offset entry) :
    index.starts.toList.countP (· ≤ offset) =
      if index.start entry ≤ offset then entry + 1 else entry := by
  have hsize : entry < index.starts.toList.length := by simpa using h.lt_size
  have hafter : (index.starts.toList.drop (entry + 1)).countP (· ≤ offset) = 0 := by
    refine List.countP_eq_zero.mpr fun start hstart => ?_
    obtain ⟨later, hlater, rfl⟩ := List.mem_iff_getElem.mp hstart
    rw [List.length_drop] at hlater
    have hbound : entry + 1 + later < index.starts.toList.length := by omega
    have hbehind := h.above (entry + 1 + later) (by omega) (by simpa using hbound)
    rw [start_eq_getElem hbound] at hbehind
    simpa using hbehind
  rw [← List.take_append_drop (entry + 1) index.starts.toList, List.countP_append, hafter]
  split
  · rename_i hle
    have hall : ∀ start ∈ index.starts.toList.take (entry + 1), decide (start ≤ offset) = true := by
      intro start hstart
      obtain ⟨earlier, hearlier, rfl⟩ := List.mem_iff_getElem.mp hstart
      rw [List.length_take] at hearlier
      have hbound : earlier < index.starts.toList.length := by omega
      rw [List.getElem_take, ← start_eq_getElem hbound, decide_eq_true_iff]
      rcases Nat.lt_or_ge earlier entry with hlt | hge
      · exact Nat.le_trans (Nat.le_of_lt (start_lt_start hlt hsize)) hle
      · have heq : earlier = entry := by omega
        rwa [heq]
    rw [List.countP_eq_length.mpr hall, List.length_take]
    omega
  · rename_i hlt
    -- Only the first entry can begin behind the place it closes off.
    have hfirst : entry = 0 := h.below.resolve_right hlt
    subst hfirst
    rw [List.take_one, List.head?_eq_getElem?, List.getElem?_eq_getElem hsize,
      ← start_eq_getElem hsize]
    simpa using hlt

/-- The line of a place is the number of lines that begin there or before. -/
theorem lineOf_eq_countP (index : LineIndex) (offset : Nat) :
    index.lineOf offset = index.starts.toList.countP (· ≤ offset) := by
  unfold lineOf search
  by_cases hempty : index.starts.isEmpty
  · have hnil : index.starts = #[] := Array.isEmpty_iff.mp hempty
    simp [hnil]
  · have hsize : 0 < index.starts.size := by
      rw [Array.isEmpty_iff_size_eq_zero] at hempty
      exact Nat.pos_of_ne_zero hempty
    have hcloses : index.ClosesOff offset (index.narrow offset 0 index.starts.size) :=
      closesOff_narrow hsize (by omega) (.inl rfl) fun later hlater hbounded => by omega
    rw [if_neg hempty, countP_starts hcloses]
    dsimp only
    rcases Nat.lt_trichotomy (index.start (index.narrow offset 0 index.starts.size)) offset with
      hlt | heq | hgt
    · simp [hlt, Nat.le_of_lt hlt, Nat.ne_of_lt hlt]
    · simp [heq]
    · simp [Nat.not_lt_of_gt hgt, Nat.not_le_of_gt hgt, Nat.ne_of_gt hgt]

/-! ## The index of a text -/

theorem startsFrom_append (offset : Nat) (before text : List Char) :
    startsFrom offset (before ++ text) =
      startsFrom offset before ++ startsFrom (offset + byteLength before) text := by
  induction before generalizing offset with
  | nil => rfl
  | cons c before ih =>
      rw [List.cons_append, startsFrom, startsFrom, byteLength_cons, ← Nat.add_assoc]
      split
      · rename_i hc
        subst hc
        rw [ih, List.cons_append]
        rfl
      · exact ih _

theorem le_of_mem_startsFrom {offset start : Nat} {text : List Char}
    (h : start ∈ startsFrom offset text) : start ≤ offset + byteLength text := by
  induction text generalizing offset with
  | nil => cases h
  | cons c rest ih =>
      rw [startsFrom] at h
      rw [byteLength_cons]
      split at h
      · rename_i hc
        subst hc
        rw [utf8Size_lineEnd]
        rcases List.mem_cons.mp h with rfl | hrest
        · omega
        · have hle := ih hrest
          omega
      · have hle := ih h
        omega

theorem length_startsFrom (offset : Nat) (text : List Char) :
    (startsFrom offset text).length = text.count '\n' := by
  induction text generalizing offset with
  | nil => rfl
  | cons c rest ih =>
      rw [startsFrom]
      split
      · rename_i hc
        rw [hc, List.length_cons, ih, List.count_cons_self]
      · rename_i hc
        rw [ih, List.count_cons_of_ne hc]

/-- The line of a place is one more than the line ends before it. -/
theorem lineOf_ofText (before text : List Char) :
    (ofText (before ++ text)).lineOf (byteLength before) = 1 + before.count '\n' := by
  have hbefore : (startsFrom 0 before).countP (· ≤ byteLength before) = before.count '\n' := by
    rw [← length_startsFrom 0 before]
    refine List.countP_eq_length.mpr fun start hstart => decide_eq_true ?_
    have hle := le_of_mem_startsFrom hstart
    omega
  have hafter : (startsFrom (0 + byteLength before) text).countP (· ≤ byteLength before) = 0 := by
    refine List.countP_eq_zero.mpr fun start hstart => ?_
    have hlt := lt_of_mem_startsFrom hstart
    simpa using by omega
  rw [lineOf_eq_countP]
  show (0 :: startsFrom 0 (before ++ text)).countP _ = _
  rw [List.countP_cons_of_pos (by simp), startsFrom_append, List.countP_append, hbefore, hafter]
  omega

end LineIndex

/-! ## Counting lines -/

section Counting

variable {α : Type} (mayBegin : Option Char → Bool)
  (recognise : List Char → Option (α × List Char))

/-- The search for occurrences, with the lines counted on the way. -/
def occurrencesFrom :
    (previous : Option Char) → (offset line skip : Nat) → List Char → List (Occurrence α)
  | _, _, _, _, [] => []
  | _, offset, line, skip + 1, c :: rest =>
    occurrencesFrom (some c) (offset + c.utf8Size) (if c = '\n' then line + 1 else line) skip rest
  | previous, offset, line, 0, c :: rest =>
    let next := if c = '\n' then line + 1 else line
    match if mayBegin previous then recognise (c :: rest) else none with
    | some (found, after) =>
      { offset, line, found } ::
        occurrencesFrom (some c) (offset + c.utf8Size) next (rest.length - after.length) rest
    | none => occurrencesFrom (some c) (offset + c.utf8Size) next 0 rest

variable {mayBegin recognise}

theorem map_matchesFrom (before text : List Char) (previous : Option Char) (skip : Nat) :
    (matchesFrom mayBegin recognise previous (byteLength before) skip text).map
        (LineIndex.ofText (before ++ text)).occurrence =
      occurrencesFrom mayBegin recognise previous (byteLength before) (1 + before.count '\n') skip
        text := by
  induction text generalizing before previous skip with
  | nil => rfl
  | cons c rest ih =>
      have hline : (if c = '\n' then 1 + before.count '\n' + 1 else 1 + before.count '\n') =
          1 + (before ++ [c]).count '\n' := by
        rw [List.count_append, List.count_singleton]
        by_cases hc : c = '\n'
        · simp only [hc, BEq.rfl, if_true]
          omega
        · simp [hc]
      have hoffset : byteLength before + c.utf8Size = byteLength (before ++ [c]) := by
        rw [byteLength_append, byteLength_cons, byteLength_nil, Nat.add_zero]
      -- From the next character on, one more stands before the text.
      have hnext := ih (before ++ [c]) (some c)
      rw [List.append_assoc, List.singleton_append] at hnext
      cases skip with
      | succ skip => rw [matchesFrom, occurrencesFrom, hline, hoffset, hnext]
      | zero =>
          rw [matchesFrom, occurrencesFrom, hline, hoffset]
          cases if mayBegin previous then recognise (c :: rest) else none with
          | none => exact hnext 0
          | some result =>
              rw [List.map_cons, hnext, LineIndex.occurrence, LineIndex.lineOf_ofText]

/-- What is found in a text is found by counting the lines. -/
theorem occurrences_eq_occurrencesFrom (text : List Char) :
    occurrences mayBegin recognise text = occurrencesFrom mayBegin recognise none 0 1 0 text :=
  map_matchesFrom [] text none 0

end Counting

end LiveExports.Source
