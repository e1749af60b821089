import LiveExports.Source.Statement
import LiveExports.Source.Comments

/-!
# Texts that blanking leaves alone

A text in which every quoted text is closed on its line, and in which no slash stands outside of
quotes, has no comments: blanking gives it back (`blankComments_of_passesTo`).
-/

namespace LiveExports.Source

/-- A text that follows an opening quote and leads to `rest` after the closing one.  The quoted text
is on one line; a backslash in it protects the character that follows. -/
inductive ClosesTo (quote : Char) (rest : List Char) : List Char → Prop
  | quote : ClosesTo quote rest (quote :: rest)
  | escaped {c : Char} {text : List Char} (hend : c ≠ '\n') (h : ClosesTo quote rest text) :
      ClosesTo quote rest ('\\' :: c :: text)
  | char {c : Char} {text : List Char} (hquote : c ≠ quote) (hbackslash : c ≠ '\\')
      (hend : c ≠ '\n') (h : ClosesTo quote rest text) : ClosesTo quote rest (c :: text)

/-- A text that leads to `rest` through characters of a kind and quoted texts. -/
inductive PassesTo (kind : Char → Prop) (rest : List Char) : List Char → Prop
  | refl : PassesTo kind rest rest
  | char {c : Char} {text : List Char} (hc : kind c) (h : PassesTo kind rest text) :
      PassesTo kind rest (c :: text)
  | quoted {quote : Char} {text after : List Char} (hquote : isSpecifierQuote quote = true)
      (hclose : ClosesTo quote after text) (h : PassesTo kind rest after) :
      PassesTo kind rest (quote :: text)

namespace PassesTo

variable {kind : Char → Prop}

theorem trans {first second third : List Char} (h : PassesTo kind second first)
    (hnext : PassesTo kind third second) : PassesTo kind third first := by
  induction h with
  | refl => exact hnext
  | char hc _ ih => exact .char hc ih
  | quoted hquote hclose _ ih => exact .quoted hquote hclose ih

/-- Characters of the kind are passed. -/
theorem append {text : List Char} (h : ∀ c ∈ text, kind c) (rest : List Char) :
    PassesTo kind rest (text ++ rest) := by
  induction text with
  | nil => exact .refl
  | cons c text ih =>
      have hc : kind c := h c List.mem_cons_self
      exact .char hc (ih fun d hd => h d (List.mem_cons_of_mem c hd))

theorem dropWhile {picks : Char → Bool} (h : ∀ c, picks c = true → kind c) (text : List Char) :
    PassesTo kind (text.dropWhile picks) text := by
  have hrun : ∀ c ∈ text.takeWhile picks, kind c := fun c hc =>
    h c (List.all_eq_true.mp List.all_takeWhile c hc)
  have hpasses := append hrun (text.dropWhile picks)
  rwa [List.takeWhile_append_dropWhile] at hpasses

end PassesTo

/-- A quoted text is left alone if what follows it is. -/
theorem blankFrom_of_closesTo {quote : Char} {rest text : List Char} (h : ClosesTo quote rest text)
    (hquote : quote ≠ '\\') (hrest : ∀ line, blankFrom .code line rest = .ok rest) (line : Nat) :
    blankFrom (.quoted quote) line text = .ok text := by
  induction h generalizing line with
  | quote =>
      simp [blankFrom, hquote, hrest, Except.map]
  | escaped hend _ ih =>
      simp [blankFrom, ih, Except.map]
  | char hne hbackslash hend _ ih =>
      simp [blankFrom, hne, hbackslash, hend, ih, Except.map]

/-- So is a text without slashes and quotes, quoted texts apart. -/
theorem blankFrom_of_passesTo {kind : Char → Prop} {rest text : List Char}
    (h : PassesTo kind rest text) (hkind : ∀ c, kind c → c ≠ '/' ∧ isQuote c = false)
    (hrest : ∀ line, blankFrom .code line rest = .ok rest) (line : Nat) :
    blankFrom .code line text = .ok text := by
  induction h generalizing line with
  | refl => exact hrest line
  | @char c text hc _ ih =>
      obtain ⟨hslash, hquote⟩ := hkind c hc
      simp [blankFrom, hslash, hquote, ih, Except.map]
  | @quoted quote text after hquote hclose _ ih =>
      have hslash : quote ≠ '/' := by
        rintro rfl
        cases hquote
      have hbackslash : quote ≠ '\\' := by
        rintro rfl
        cases hquote
      have hopens : isQuote quote = true := by
        unfold isSpecifierQuote at hquote
        simp [isQuote, hquote]
      have hblank := blankFrom_of_closesTo hclose hbackslash ih
      simp [blankFrom, hslash, hopens, hblank, Except.map]

theorem blankComments_of_passesTo {kind : Char → Prop} {text : List Char}
    (h : PassesTo kind [] text) (hkind : ∀ c, kind c → c ≠ '/' ∧ isQuote c = false) :
    blankComments text = .ok text :=
  blankFrom_of_passesTo h hkind (fun _ => rfl) 1

end LiveExports.Source
