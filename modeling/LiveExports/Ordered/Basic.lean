/-!
# Strict orders

Everything that is listed is listed in one order, so that a listing depends only on what it holds.
An order here is a test `less`; any two different elements compare, one way or the other.
-/

namespace LiveExports

/-- A strict order, given by a test, in which two different elements always compare. -/
class StrictOrder (α : Type) where
  less : α → α → Bool
  less_irrefl : ∀ a, less a a = false
  less_trans : ∀ {a b c}, less a b = true → less b c = true → less a c = true
  eq_of_not_less : ∀ {a b}, less a b = false → less b a = false → a = b

namespace StrictOrder

theorem ne_of_less {α : Type} [StrictOrder α] {a b : α} (h : less a b = true) : a ≠ b := by
  intro heq
  subst heq
  rw [less_irrefl] at h
  contradiction

theorem not_less_of_less {α : Type} [StrictOrder α] {a b : α} (h : less a b = true) :
    less b a = false := by
  cases hba : less b a with
  | false => rfl
  | true =>
    have := less_trans h hba
    rw [less_irrefl] at this
    contradiction

/-- Elements are ordered by a key that tells them apart. -/
@[reducible]
def ofKey {α β : Type} [StrictOrder β] (key : α → β) (injective : ∀ a b, key a = key b → a = b) :
    StrictOrder α where
  less a b := less (key a) (key b)
  less_irrefl a := less_irrefl (key a)
  less_trans h h' := less_trans h h'
  eq_of_not_less h h' := injective _ _ (eq_of_not_less h h')

/-- Texts are ordered character by character. -/
instance : StrictOrder String where
  less a b := decide (a < b)
  less_irrefl a := decide_eq_false (String.lt_irrefl a)
  less_trans h h' := by
    simp only [decide_eq_true_eq] at *
    exact String.lt_trans h h'
  eq_of_not_less h h' := by
    simp only [decide_eq_false_iff_not] at *
    grind

instance : StrictOrder Nat where
  less a b := decide (a < b)
  less_irrefl a := by simp
  less_trans h h' := by
    simp only [decide_eq_true_eq] at *
    omega
  eq_of_not_less h h' := by
    simp only [decide_eq_false_iff_not] at *
    omega

/-- Pairs are ordered by the first component, then the second. -/
instance {α β : Type} [StrictOrder α] [StrictOrder β] : StrictOrder (α × β) where
  less a b := less a.1 b.1 || (!less b.1 a.1 && less a.2 b.2)
  less_irrefl a := by simp [less_irrefl]
  less_trans := by
    intro a b c hab hbc
    simp only [Bool.or_eq_true, Bool.and_eq_true, Bool.not_eq_true'] at *
    rcases hab with hab | ⟨hba, hab⟩ <;> rcases hbc with hbc | ⟨hcb, hbc⟩
    · exact Or.inl (less_trans hab hbc)
    · cases h : less b.1 c.1 with
      | true => exact Or.inl (less_trans hab h)
      | false => exact Or.inl (eq_of_not_less h hcb ▸ hab)
    · cases h : less a.1 b.1 with
      | true => exact Or.inl (less_trans h hbc)
      | false => exact Or.inl ((eq_of_not_less h hba).symm ▸ hbc)
    · cases h : less a.1 b.1 with
      | true =>
        cases h' : less b.1 c.1 with
        | true => exact Or.inl (less_trans h h')
        | false => exact Or.inl (eq_of_not_less h' hcb ▸ h)
      | false =>
        have heq := eq_of_not_less h hba
        cases h' : less b.1 c.1 with
        | true => exact Or.inl (heq.symm ▸ h')
        | false =>
          have heq' := eq_of_not_less h' hcb
          refine Or.inr ⟨?_, less_trans hab hbc⟩
          rw [heq, heq']
          exact less_irrefl _
  eq_of_not_less := by
    intro a b hab hba
    simp only [Bool.or_eq_false_iff, Bool.and_eq_false_iff, Bool.not_eq_false'] at *
    have hfirst := eq_of_not_less hab.1 hba.1
    have hab2 : less a.2 b.2 = false := by
      rcases hab.2 with h | h
      · rw [h] at hba; simp at hba
      · exact h
    have hba2 : less b.2 a.2 = false := by
      rcases hba.2 with h | h
      · rw [h] at hab; simp at hab
      · exact h
    exact Prod.ext hfirst (eq_of_not_less hab2 hba2)

/-- Lists are ordered by the first element in which they differ; a list comes before its
extensions. -/
def lessList {α : Type} [StrictOrder α] : List α → List α → Bool
  | _, [] => false
  | [], _ :: _ => true
  | a :: as, b :: bs => less a b || (!less b a && lessList as bs)

instance {α : Type} [StrictOrder α] : StrictOrder (List α) where
  less := lessList
  less_irrefl list := by
    induction list with
    | nil => rfl
    | cons a list ih => simp [lessList, less_irrefl, ih]
  less_trans := by
    intro as bs cs hab hbc
    induction as generalizing bs cs with
    | nil =>
      cases cs with
      | nil => cases bs <;> simp [lessList] at hbc
      | cons c cs => rfl
    | cons a as ih =>
      cases bs with
      | nil => simp [lessList] at hab
      | cons b bs =>
        cases cs with
        | nil => simp [lessList] at hbc
        | cons c cs =>
          simp only [lessList, Bool.or_eq_true, Bool.and_eq_true, Bool.not_eq_true'] at *
          have hstep : ∀ {x y : α}, less y x = false → less x y = true ∨ x = y := by
            intro x y hyx
            cases hxy : less x y with
            | true => exact Or.inl rfl
            | false => exact Or.inr (eq_of_not_less hxy hyx)
          rcases hab with hab | ⟨hba, hab⟩
          · rcases hbc with hbc | ⟨hcb, _⟩
            · exact Or.inl (less_trans hab hbc)
            · rcases hstep hcb with h | rfl
              · exact Or.inl (less_trans hab h)
              · exact Or.inl hab
          · rcases hstep hba with h | rfl
            · rcases hbc with hbc | ⟨hcb, _⟩
              · exact Or.inl (less_trans h hbc)
              · rcases hstep hcb with h' | rfl
                · exact Or.inl (less_trans h h')
                · exact Or.inl h
            · rcases hbc with hbc | ⟨hcb, hbc⟩
              · exact Or.inl hbc
              · exact Or.inr ⟨hcb, ih hab hbc⟩
  eq_of_not_less := by
    intro as bs hab hba
    induction as generalizing bs with
    | nil =>
      cases bs with
      | nil => rfl
      | cons b bs => simp [lessList] at hab
    | cons a as ih =>
      cases bs with
      | nil => simp [lessList] at hba
      | cons b bs =>
        simp only [lessList, Bool.or_eq_false_iff, Bool.and_eq_false_iff, Bool.not_eq_false'] at *
        have heq := eq_of_not_less hab.1 hba.1
        subst heq
        have hab2 := hab.2.resolve_left (by simp [less_irrefl])
        have hba2 := hba.2.resolve_left (by simp [less_irrefl])
        rw [ih hab2 hba2]

end StrictOrder

end LiveExports
