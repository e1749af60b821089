import LiveExports.Text.Lower
import LiveExports.Text.Pieces
import Mathlib.Data.List.Forall2

/-!
# What lower-casing leaves alone

Lower-casing looks at the text around a capital sigma, so it is not a map on characters.  Two facts
about it hold wherever a character stands.

* A text in lower case stays as it is (`lower_lower`): what a character becomes is *settled*, that
  is mapped to itself in any surroundings.  For the characters beyond ASCII this is read off the
  rows of the table: what one row gives is not covered by another (`rows_apart`).
* The marks that give a path its shape, slashes, backslashes and full stops, stay where they are,
  and no other character becomes a mark or nothing at all (`keepsMarks_lower`).  So the segments of
  a text and those of its lower-case form correspond one by one (`KeepsMarks.split`).
-/

namespace LiveExports.Text

/-- The marks that give a path its shape. -/
def isMark (c : Char) : Bool :=
  c == '/' || c == '\\' || c == '.'

/-- A character that is mapped to itself, whatever stands around it. -/
def IsSettled (c : Char) : Prop :=
  ∀ before after, lowerChar before c after = [c]

/-! ## ASCII -/

theorem toLower_toLower_ascii : ∀ n < 128,
    (Char.ofNat n).toLower.toNat < 128 ∧
      (Char.ofNat n).toLower.toLower = (Char.ofNat n).toLower ∧
      isMark (Char.ofNat n).toLower = isMark (Char.ofNat n) ∧
      (isMark (Char.ofNat n) = true → (Char.ofNat n).toLower = Char.ofNat n) := by
  decide +kernel

theorem isSettled_toLower {c : Char} (h : c.toNat < 128) : IsSettled c.toLower := by
  intro before after
  have hascii := toLower_toLower_ascii c.toNat h
  rw [Char.ofNat_toNat] at hascii
  rw [lowerChar, if_pos hascii.1, hascii.2.1]

theorem isMark_toLower {c : Char} (h : c.toNat < 128) : isMark c.toLower = isMark c := by
  have hascii := toLower_toLower_ascii c.toNat h
  rw [Char.ofNat_toNat] at hascii
  exact hascii.2.2.1

theorem toNat_of_isMark {c : Char} (h : isMark c = true) : c.toNat ≤ 92 := by
  simp only [isMark, Bool.or_eq_true, beq_iff_eq] at h
  rcases h with (rfl | rfl) | rfl <;> decide

theorem lowerChar_of_isMark {c : Char} (h : isMark c = true) (before after : List Char) :
    lowerChar before c after = [c] := by
  have hcode : c.toNat < 128 := by
    have := toNat_of_isMark h
    omega
  have hascii := toLower_toLower_ascii c.toNat hcode
  rw [Char.ofNat_toNat] at hascii
  rw [lowerChar, if_pos hcode, hascii.2.2.2 h]

/-! ## The table -/

namespace CaseRow

/-- The first code point that a row gives. -/
def lowest (row : CaseRow) : Nat :=
  ((row.first : Int) + row.shift).toNat

/-- The last code point that a row gives. -/
def highest (row : CaseRow) : Nat :=
  ((row.last : Int) + row.shift).toNat

/-- Is a code point mapped by the row? -/
def Covers (row : CaseRow) (code : Nat) : Prop :=
  row.first ≤ code ∧ code ≤ row.last ∧ (code - row.first) % row.step = 0

/-- A row gives characters, none of them a mark, a capital of ASCII or one of the two capitals that
the table leaves out. -/
def isOrderly (row : CaseRow) : Bool :=
  Nat.blt 96 row.lowest && (Nat.ble 128 row.lowest || Nat.ble row.highest 122) &&
    (Nat.blt row.highest 0xD800 || (Nat.ble 0xE000 row.lowest && Nat.blt row.highest 0x110000)) &&
    (Nat.blt row.highest 0x130 || Nat.blt 0x130 row.lowest) &&
    (Nat.blt row.highest 0x3A3 || Nat.blt 0x3A3 row.lowest)

/-- The row gives nothing that the other row covers: the two lie apart, or one takes the even code
points and the other the odd ones. -/
def isApart (row other : CaseRow) : Bool :=
  Nat.blt row.highest other.first || Nat.blt other.last row.lowest ||
    (other.step == 2 && (row.step == 2 || row.first == row.last) &&
      row.lowest % 2 != other.first % 2)

end CaseRow

theorem rows_orderly : (capitals.all CaseRow.isOrderly) = true := by
  decide +kernel

theorem rows_apart : (capitals.all fun row => capitals.all row.isApart) = true := by
  decide +kernel

namespace CaseRow

variable {row other : CaseRow} {code : Nat}

/-- What an orderly row gives lies between the first and the last of it. -/
theorem image_bounds (horderly : row.isOrderly = true) (hcovers : row.Covers code) :
    row.lowest ≤ ((code : Int) + row.shift).toNat ∧
      ((code : Int) + row.shift).toNat ≤ row.highest ∧ 96 < row.lowest := by
  simp only [isOrderly, Bool.and_eq_true, Nat.blt_eq] at horderly
  obtain ⟨hfirst, hlast, -⟩ := hcovers
  have hlowest := horderly.1.1.1.1
  simp only [lowest, highest] at hlowest ⊢
  omega

theorem toNat_image (horderly : row.isOrderly = true) (hcovers : row.Covers code) :
    (Char.ofNat ((code : Int) + row.shift).toNat).toNat = ((code : Int) + row.shift).toNat := by
  have hbounds := image_bounds horderly hcovers
  simp only [isOrderly, Bool.and_eq_true, Bool.or_eq_true, Nat.blt_eq, Nat.ble_eq] at horderly
  have hvalid : ((code : Int) + row.shift).toNat.isValidChar := by
    rcases horderly.1.1.2 with hlow | ⟨hhigh, hmax⟩
    · exact .inl (by omega)
    · exact .inr ⟨by omega, by omega⟩
  rw [Char.ofNat, dif_pos hvalid]
  rfl

theorem not_covers_image (horderly : row.isOrderly = true) (hapart : row.isApart other = true)
    (hcovers : row.Covers code) : ¬ other.Covers ((code : Int) + row.shift).toNat := by
  intro hother
  have hbounds := image_bounds horderly hcovers
  obtain ⟨hfirst, hlast, hstep⟩ := hcovers
  obtain ⟨hotherFirst, hotherLast, hotherStep⟩ := hother
  simp only [isApart, Bool.or_eq_true, Bool.and_eq_true, Nat.blt_eq, beq_iff_eq,
    bne_iff_ne] at hapart
  rcases hapart with (hbelow | habove) | ⟨⟨htwo, heven⟩, hparity⟩
  · omega
  · omega
  · -- Both rows advance by two, from code points of different parity.
    rw [htwo] at hotherStep
    simp only [lowest] at hparity hbounds
    rcases heven with hrowTwo | hsingle
    · rw [hrowTwo] at hstep
      omega
    · omega

end CaseRow

theorem lowerBeyondAscii_of_not_covers {rows : List CaseRow} {c : Char}
    (h : ∀ row ∈ rows, ¬ row.Covers c.toNat) : lowerBeyondAscii rows c = c := by
  induction rows with
  | nil => rfl
  | cons row rows ih =>
      have hrow := h row List.mem_cons_self
      unfold CaseRow.Covers at hrow
      rw [lowerBeyondAscii, if_neg hrow]
      exact ih fun other hother => h other (List.mem_cons_of_mem row hother)

/-- A character beyond ASCII is mapped to itself or by a row that covers it. -/
theorem lowerBeyondAscii_cases (rows : List CaseRow) (c : Char) :
    lowerBeyondAscii rows c = c ∨
      ∃ row ∈ rows, row.Covers c.toNat ∧
        lowerBeyondAscii rows c = Char.ofNat ((c.toNat : Int) + row.shift).toNat := by
  induction rows with
  | nil => exact .inl rfl
  | cons row rows ih =>
      rw [lowerBeyondAscii]
      split
      · next hcovered => exact .inr ⟨row, List.mem_cons_self, hcovered, rfl⟩
      · rcases ih with hself | ⟨other, hother, hcovers, himage⟩
        · exact .inl hself
        · exact .inr ⟨other, List.mem_cons_of_mem row hother, hcovers, himage⟩

theorem isSettled_of_lowerBeyondAscii {c : Char} (hbeyond : ¬ c.toNat < 128)
    (hdotted : c.toNat ≠ 0x130) (hsigma : c.toNat ≠ 0x3A3)
    (h : lowerBeyondAscii capitals c = c) : IsSettled c := by
  intro before after
  rw [lowerChar, if_neg hbeyond, if_neg hdotted, if_neg hsigma, h]

/-- What the table makes of a character is settled and is no mark. -/
theorem isSettled_lowerBeyondAscii {c : Char} (hbeyond : ¬ c.toNat < 128)
    (hdotted : c.toNat ≠ 0x130) (hsigma : c.toNat ≠ 0x3A3) :
    IsSettled (lowerBeyondAscii capitals c) ∧ isMark (lowerBeyondAscii capitals c) = false := by
  have hnoMark : ∀ d : Char, 92 < d.toNat → isMark d = false := by
    intro d hd
    rw [Bool.eq_false_iff]
    intro hmark
    have := toNat_of_isMark hmark
    omega
  rcases lowerBeyondAscii_cases capitals c with hself | ⟨row, hrow, hcovers, himage⟩
  · rw [hself]
    exact ⟨isSettled_of_lowerBeyondAscii hbeyond hdotted hsigma hself, hnoMark c (by omega)⟩
  · have horderly : row.isOrderly = true := List.all_eq_true.mp rows_orderly row hrow
    have hrows : ∀ other ∈ capitals, row.isApart other = true :=
      List.all_eq_true.mp (List.all_eq_true.mp rows_apart row hrow)
    have hcode := CaseRow.toNat_image horderly hcovers
    have hbounds := CaseRow.image_bounds horderly hcovers
    -- No row covers what this row gives, so the table leaves it alone.
    have hfree : ∀ other ∈ capitals, ¬ other.Covers (Char.ofNat
        ((c.toNat : Int) + row.shift).toNat).toNat := by
      intro other hother
      rw [hcode]
      exact CaseRow.not_covers_image horderly (hrows other hother) hcovers
    rw [himage]
    generalize Char.ofNat ((c.toNat : Int) + row.shift).toNat = image at hcode hfree ⊢
    rw [← hcode] at hbounds
    simp only [CaseRow.isOrderly, Bool.and_eq_true, Bool.or_eq_true, Nat.blt_eq,
      Nat.ble_eq] at horderly
    obtain ⟨⟨⟨⟨-, hsmall⟩, -⟩, hdottedFree⟩, hsigmaFree⟩ := horderly
    refine ⟨?_, hnoMark image (by omega)⟩
    by_cases hascii : image.toNat < 128
    · -- Only letters in lower case are given here.
      have hletter : image.toLower = image := by
        have hupper : ¬ (image.val ≥ 'A'.val ∧ image.val ≤ 'Z'.val) := by
          rintro ⟨-, hle⟩
          have : image.toNat ≤ 90 := hle
          omega
        exact dif_neg hupper
      rw [← hletter]
      exact isSettled_toLower hascii
    · exact isSettled_of_lowerBeyondAscii hascii (by omega) (by omega)
        (lowerBeyondAscii_of_not_covers hfree)

/-! ## Whole texts -/

/-- The characters that become one of the letters outside of the table. -/
theorem isSettled_exceptions :
    IsSettled 'i' ∧ IsSettled (Char.ofNat 0x307) ∧ IsSettled (Char.ofNat 0x3C2) ∧
      IsSettled (Char.ofNat 0x3C3) := by
  refine ⟨isSettled_toLower (c := 'i') (by decide), ?_, ?_, ?_⟩ <;>
    exact isSettled_of_lowerBeyondAscii (by decide) (by decide) (by decide) (by decide +kernel)

/-- What a character becomes is settled, whatever stands around it. -/
theorem isSettled_of_mem_lowerChar {before after : List Char} {c d : Char}
    (h : d ∈ lowerChar before c after) : IsSettled d := by
  obtain ⟨hletter, hdot, hfinal, hsigma⟩ := isSettled_exceptions
  unfold lowerChar at h
  split at h
  · next hascii =>
    rw [List.mem_singleton.mp h]
    exact isSettled_toLower hascii
  split at h
  · rcases List.mem_cons.mp h with rfl | h
    · exact hletter
    · rw [List.mem_singleton.mp h]
      exact hdot
  split at h
  · rw [List.mem_singleton.mp h]
    split
    · exact hfinal
    · exact hsigma
  · next hbeyond hdotted hcapital =>
    rw [List.mem_singleton.mp h]
    exact (isSettled_lowerBeyondAscii hbeyond hdotted hcapital).1

theorem lowerFrom_of_settled {text : List Char} (h : ∀ c ∈ text, IsSettled c)
    (before : List Char) : lowerFrom before text = text := by
  induction text generalizing before with
  | nil => rfl
  | cons c text ih =>
      rw [lowerFrom, h c List.mem_cons_self, ih fun d hd => h d (List.mem_cons_of_mem c hd)]
      rfl

theorem isSettled_of_mem_lowerFrom {before text : List Char} {d : Char}
    (h : d ∈ lowerFrom before text) : IsSettled d := by
  induction text generalizing before with
  | nil => cases h
  | cons c text ih =>
      rcases List.mem_append.mp h with hhead | hrest
      · exact isSettled_of_mem_lowerChar hhead
      · exact ih hrest

/-- A text in lower case stays as it is. -/
theorem lower_lower (text : List Char) : lower (lower text) = lower text :=
  lowerFrom_of_settled (fun _ hd => isSettled_of_mem_lowerFrom hd) []

/-! ## Marks -/

/-- A text is made into another, character by character: a mark stays, and anything else becomes
some characters that are no marks. -/
inductive KeepsMarks : List Char → List Char → Prop where
  | nil : KeepsMarks [] []
  | mark {c : Char} {text made : List Char} (hc : isMark c = true) (h : KeepsMarks text made) :
      KeepsMarks (c :: text) (c :: made)
  | other {c : Char} {piece text made : List Char} (hc : isMark c = false) (hpiece : piece ≠ [])
      (hmarks : ∀ d ∈ piece, isMark d = false) (h : KeepsMarks text made) :
      KeepsMarks (c :: text) (piece ++ made)

theorem lowerChar_ne_nil (before : List Char) (c : Char) (after : List Char) :
    lowerChar before c after ≠ [] := by
  unfold lowerChar
  split
  · simp
  split
  · simp
  split <;> simp

theorem isMark_of_mem_lowerChar {before after : List Char} {c d : Char} (hc : isMark c = false)
    (h : d ∈ lowerChar before c after) : isMark d = false := by
  unfold lowerChar at h
  split at h
  · next hascii =>
    rw [List.mem_singleton.mp h, isMark_toLower hascii, hc]
  split at h
  · rcases List.mem_cons.mp h with rfl | h
    · decide
    · rw [List.mem_singleton.mp h]
      decide
  split at h
  · rw [List.mem_singleton.mp h]
    split <;> decide
  · next hbeyond hdotted hcapital =>
    rw [List.mem_singleton.mp h]
    exact (isSettled_lowerBeyondAscii hbeyond hdotted hcapital).2

theorem keepsMarks_lowerFrom (before text : List Char) :
    KeepsMarks text (lowerFrom before text) := by
  induction text generalizing before with
  | nil => exact .nil
  | cons c text ih =>
      rw [lowerFrom]
      cases hc : isMark c with
      | true =>
          rw [lowerChar_of_isMark hc]
          exact .mark hc (ih (c :: before))
      | false =>
          exact .other hc (lowerChar_ne_nil before c text)
            (fun d hd => isMark_of_mem_lowerChar hc hd) (ih (c :: before))

theorem keepsMarks_lower (text : List Char) : KeepsMarks text (lower text) :=
  keepsMarks_lowerFrom [] text

theorem splitWhen_append {separates : Char → Bool} {piece : List Char}
    (hpiece : ∀ d ∈ piece, separates d = false) {rest first : List Char}
    {others : List (List Char)} (hrest : splitWhen separates rest = first :: others) :
    splitWhen separates (piece ++ rest) = (piece ++ first) :: others := by
  induction piece with
  | nil => exact hrest
  | cons d piece ih =>
      have htail := ih fun e he => hpiece e (List.mem_cons_of_mem d he)
      have hd : ¬ separates d = true := by simp [hpiece d List.mem_cons_self]
      rw [List.cons_append, splitWhen, if_neg hd, htail]
      rfl

namespace KeepsMarks

variable {text made : List Char}

/-- Marks alone come only from themselves. -/
theorem eq_iff (h : KeepsMarks text made) {marks : List Char}
    (hmarks : marks.all isMark = true) : made = marks ↔ text = marks := by
  induction h generalizing marks with
  | nil => rfl
  | @mark c text made hc _ ih =>
      cases marks with
      | nil => simp
      | cons d marks =>
          rw [List.all_cons, Bool.and_eq_true] at hmarks
          simp only [List.cons.injEq, ih hmarks.2]
  | @other c piece text made hc hpiece hother _ ih =>
      obtain ⟨first, others, rfl⟩ := List.exists_cons_of_ne_nil hpiece
      cases marks with
      | nil => simp
      | cons d marks =>
          rw [List.all_cons, Bool.and_eq_true] at hmarks
          have hd := hmarks.1
          have hfirst := hother first List.mem_cons_self
          constructor
          · intro heq
            rw [(List.cons.inj heq).1] at hfirst
            exact absurd hd (by rw [hfirst]; decide)
          · intro heq
            rw [(List.cons.inj heq).1] at hc
            exact absurd hd (by rw [hc]; decide)

theorem mem_iff (h : KeepsMarks text made) {c : Char} (hc : isMark c = true) :
    c ∈ made ↔ c ∈ text := by
  induction h with
  | nil => rfl
  | mark _ _ ih => simp only [List.mem_cons, ih]
  | @other first piece text made hfirst _ hother _ ih =>
      have hne : c ≠ first := by
        rintro rfl
        rw [hc] at hfirst
        cases hfirst
      have hpiece : c ∉ piece := by
        intro hmem
        have := hother c hmem
        rw [hc] at this
        cases this
      simp [hne, hpiece, ih]

/-- A mark behind the first character is still behind the first character. -/
theorem mem_tail (h : KeepsMarks text made) {c : Char} (hc : isMark c = true)
    (hmem : c ∈ text.tail) : c ∈ made.tail := by
  cases h with
  | nil => exact hmem
  | mark _ hrest => exact (hrest.mem_iff hc).mpr hmem
  | @other _ piece _ _ _ hpiece _ hrest =>
      obtain ⟨first, others, rfl⟩ := List.exists_cons_of_ne_nil hpiece
      exact List.mem_append_right others ((hrest.mem_iff hc).mpr hmem)

/-- The segments correspond one by one. -/
theorem split (h : KeepsMarks text made) :
    List.Forall₂ KeepsMarks (split '/' text) (Text.split '/' made) := by
  unfold Text.split
  induction h with
  | nil => exact .cons .nil .nil
  | @mark c text made hc hrest ih =>
      by_cases hslash : c = '/'
      · subst hslash
        exact .cons .nil ih
      · obtain ⟨first, others, hsplit⟩ :=
          List.exists_cons_of_ne_nil (splitWhen_ne_nil (· == '/') text)
        obtain ⟨first', others', hsplit'⟩ :=
          List.exists_cons_of_ne_nil (splitWhen_ne_nil (· == '/') made)
        rw [hsplit, hsplit'] at ih
        have hne : (c == '/') = false := by simpa using hslash
        simp only [splitWhen, hne, Bool.false_eq_true, if_false, hsplit, hsplit']
        cases ih with
        | cons hfirst hothers => exact .cons (.mark hc hfirst) hothers
  | @other c piece text made hc hpiece hother hrest ih =>
      obtain ⟨first, others, hsplit⟩ :=
        List.exists_cons_of_ne_nil (splitWhen_ne_nil (· == '/') text)
      obtain ⟨first', others', hsplit'⟩ :=
        List.exists_cons_of_ne_nil (splitWhen_ne_nil (· == '/') made)
      have hslash : ∀ d, isMark d = false → (d == '/') = false := by
        intro d hd
        rw [Bool.eq_false_iff]
        intro heq
        rw [beq_iff_eq.mp heq] at hd
        exact absurd hd (by decide)
      -- None of the characters that `c` becomes ends a segment.
      rw [splitWhen_append (fun d hd => hslash d (hother d hd)) hsplit']
      rw [hsplit, hsplit'] at ih
      simp only [splitWhen, hslash c hc, Bool.false_eq_true, if_false, hsplit]
      cases ih with
      | cons hfirst hothers => exact .cons (.other hc hpiece hother hfirst) hothers

end KeepsMarks

/-- A text as it is looked up: in lower case where case is ignored. -/
def folded (ignoreCase : Bool) (text : List Char) : List Char :=
  if ignoreCase then lower text else text

end LiveExports.Text
