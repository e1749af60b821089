import LiveExports.Files.Tree
import LiveExports.Proofs.Text.Utf8

/-!
# What stands where in a file tree

A name that is a text is that text only.  A tree is seen through the kind of what stands at each of
its places: a file with its content, a folder, or nothing.  Putting something in a folder, or taking
it away, changes what is seen there and below and nothing else.
-/

namespace LiveExports

namespace Name

/-- A name is a text if it consists of the bytes of the text. -/
theorem text?_eq_some_iff {name : Name} {text : String} :
    name.text? = some text ↔ name = .ofText text := by
  rw [text?, Text.decode?_eq_some_iff]
  cases name
  rw [Name.mk.injEq]
  rfl

@[simp] theorem text?_ofText (text : String) : (ofText text).text? = some text :=
  text?_eq_some_iff.mpr rfl

theorem ofText_injective : Function.Injective ofText := by
  intro text other h
  have hsame := congrArg text? h
  rw [text?_ofText, text?_ofText] at hsame
  exact Option.some.inj hsame

@[simp] theorem ofText_inj {text other : String} : ofText text = ofText other ↔ text = other :=
  ofText_injective.eq_iff

end Name

namespace Tree

/-- What stands at a place, without what lies below it. -/
inductive Kind where
  | file (content : List UInt8)
  | folder
deriving DecidableEq

def kind : Tree → Kind
  | file content => .file content
  | folder _ => .folder

/-- What stands at a place, if anything does. -/
def kindAt? (tree : Tree) (place : List Name) : Option Kind :=
  (tree.at? place).map kind

theorem at?_append (tree : Tree) (place rest : List Name) :
    tree.at? (place ++ rest) = (tree.at? place).bind (·.at? rest) := by
  induction place generalizing tree with
  | nil => simp [at?]
  | cons name place ih =>
      cases tree with
      | file content => simp [at?]
      | folder children =>
          cases hchild : children.lookup name with
          | none => simp [at?, hchild]
          | some child => simp [at?, hchild, ih]

theorem at?_eq_folder_of_kindAt? {tree : Tree} {place : List Name}
    (h : tree.kindAt? place = some .folder) :
    ∃ children, tree.at? place = some (folder children) := by
  obtain ⟨found, hfound, hkind⟩ := Option.map_eq_some_iff.mp h
  cases found with
  | file content => simp [kind] at hkind
  | folder children => exact ⟨children, hfound⟩

theorem kindAt?_eq_file_iff {tree : Tree} {place : List Name} {content : List UInt8} :
    tree.kindAt? place = some (.file content) ↔ tree.at? place = some (file content) := by
  unfold kindAt?
  cases tree.at? place with
  | none => simp
  | some found => cases found <;> simp [kind]

/-- Whatever stands somewhere stands in folders. -/
theorem kindAt?_isSome_of_append {tree : Tree} {place rest : List Name}
    (h : (tree.kindAt? (place ++ rest)).isSome = true) : (tree.kindAt? place).isSome = true := by
  unfold kindAt? at h ⊢
  rw [at?_append] at h
  cases hplace : tree.at? place with
  | none => simp [hplace] at h
  | some found => rfl

theorem kindAt?_append_eq_none {tree : Tree} {place : List Name} (h : tree.kindAt? place = none)
    (rest : List Name) : tree.kindAt? (place ++ rest) = none := by
  cases hthere : tree.kindAt? (place ++ rest) with
  | none => rfl
  | some kind =>
      have := kindAt?_isSome_of_append
        (by rw [hthere]; rfl : (tree.kindAt? (place ++ rest)).isSome = true)
      rw [h] at this
      cases this

/-- Only in a folder does anything stand. -/
theorem kindAt?_eq_folder_of_append {tree : Tree} {place rest : List Name} {name : Name}
    (h : (tree.kindAt? (place ++ name :: rest)).isSome = true) :
    tree.kindAt? place = some .folder := by
  unfold kindAt? at h ⊢
  rw [at?_append] at h
  cases hplace : tree.at? place with
  | none => simp [hplace] at h
  | some found =>
      cases found with
      | file content => simp [hplace, at?] at h
      | folder children => rfl

/-! ## Putting -/

theorem at?_put_append {tree : Tree} {place : List Name} (h : tree.kindAt? place = some .folder)
    (name : Name) (new : Tree) (rest : List Name) :
    (tree.put (place ++ [name]) new).at? (place ++ name :: rest) = new.at? rest := by
  induction place generalizing tree with
  | nil =>
      cases tree with
      | file content => simp [kindAt?, at?, kind] at h
      | folder children => simp [put, at?]
  | cons first place ih =>
      cases tree with
      | file content => simp [kindAt?, at?] at h
      | folder children =>
          cases hchild : children.lookup first with
          | none => simp [kindAt?, at?, hchild] at h
          | some child =>
              have hbelow : child.kindAt? place = some .folder := by
                simpa [kindAt?, at?, hchild] using h
              simpa [put, at?, hchild] using ih hbelow

theorem kindAt?_put_of_not_prefix {tree : Tree} {place : List Name}
    (h : tree.kindAt? place = some .folder) {name : Name} (new : Tree) {other : List Name}
    (hother : ¬ place ++ [name] <+: other) :
    (tree.put (place ++ [name]) new).kindAt? other = tree.kindAt? other := by
  induction place generalizing tree other with
  | nil =>
      cases tree with
      | file content => simp [kindAt?, at?, kind] at h
      | folder children =>
          cases other with
          | nil => rfl
          | cons first rest =>
              have hfirst : first ≠ name := by
                rintro rfl
                exact hother ⟨rest, rfl⟩
              simp [put, kindAt?, at?, lookup_setChild_of_ne _ _ hfirst]
  | cons top place ih =>
      cases tree with
      | file content => simp [kindAt?, at?] at h
      | folder children =>
          cases hchild : children.lookup top with
          | none => simp [kindAt?, at?, hchild] at h
          | some child =>
              have hbelow : child.kindAt? place = some .folder := by
                simpa [kindAt?, at?, hchild] using h
              cases other with
              | nil => rfl
              | cons first rest =>
                  by_cases hfirst : first = top
                  · subst hfirst
                    have hrest : ¬ place ++ [name] <+: rest := fun hprefix =>
                      hother (List.cons_prefix_cons.mpr ⟨rfl, hprefix⟩)
                    have := ih hbelow hrest
                    simpa [put, kindAt?, at?, hchild] using this
                  · simp [put, kindAt?, at?, lookup_setChild_of_ne _ _ hfirst]

/-! ## Taking away -/

theorem lookup_filter_self (name : Name) (children : List (Name × Tree)) :
    (children.filter (·.1 != name)).lookup name = none := by
  induction children with
  | nil => rfl
  | cons child rest ih =>
      obtain ⟨other, tree⟩ := child
      by_cases h : other = name
      · simp [h, ih]
      · have hne : (name == other) = false := by simpa using Ne.symm h
        simp [h, List.lookup_cons, hne, ih]

theorem lookup_filter_of_ne {name other : Name} (h : other ≠ name)
    (children : List (Name × Tree)) :
    (children.filter (·.1 != name)).lookup other = children.lookup other := by
  induction children with
  | nil => rfl
  | cons child rest ih =>
      obtain ⟨first, tree⟩ := child
      by_cases hfirst : first = name
      · have hne : (other == first) = false := by simpa [hfirst] using h
        simp only [hfirst] at hne ⊢
        simp [List.lookup_cons, hne, ih]
      · simp [hfirst, List.lookup_cons, ih]

/-- Taking something away from further down changes one child. -/
theorem erase_cons {children : List (Name × Tree)} {name : Name} {child : Tree}
    (h : children.lookup name = some child) {rest : List Name} (hrest : rest ≠ []) :
    (folder children).erase (name :: rest) =
      folder (setChild name (child.erase rest) children) := by
  obtain ⟨second, others, rfl⟩ := List.exists_cons_of_ne_nil hrest
  simp [erase, h]

theorem erase_cons_of_lookup_eq_none {children : List (Name × Tree)} {name : Name}
    (h : children.lookup name = none) {rest : List Name} (hrest : rest ≠ []) :
    (folder children).erase (name :: rest) = folder children := by
  obtain ⟨second, others, rfl⟩ := List.exists_cons_of_ne_nil hrest
  simp [erase, h]

theorem at?_erase_append (tree : Tree) (place : List Name) (name : Name) (rest : List Name) :
    (tree.erase (place ++ [name])).at? (place ++ name :: rest) = none := by
  induction place generalizing tree with
  | nil =>
      cases tree with
      | file content => rfl
      | folder children =>
          simp only [List.nil_append, erase, at?]
          rw [lookup_filter_self, Option.bind_none]
  | cons first place ih =>
      cases tree with
      | file content => rfl
      | folder children =>
          cases hchild : children.lookup first with
          | none =>
              rw [List.cons_append, erase_cons_of_lookup_eq_none hchild (by simp)]
              simp [at?, hchild]
          | some child =>
              rw [List.cons_append, erase_cons hchild (by simp)]
              simpa [at?] using ih child

theorem kindAt?_erase_of_not_prefix (tree : Tree) {place other : List Name}
    (h : ¬ place <+: other) : (tree.erase place).kindAt? other = tree.kindAt? other := by
  induction place generalizing tree other with
  | nil => exact absurd List.nil_prefix h
  | cons name place ih =>
      cases tree with
      | file content => rfl
      | folder children =>
          cases other with
          | nil =>
              by_cases hplace : place = []
              · subst hplace
                rfl
              · cases hchild : children.lookup name with
                | none => rw [erase_cons_of_lookup_eq_none hchild hplace]
                | some child =>
                    rw [erase_cons hchild hplace]
                    rfl
          | cons first rest =>
              by_cases hplace : place = []
              · subst hplace
                have hfirst : first ≠ name := by
                  rintro rfl
                  exact h ⟨rest, rfl⟩
                simp only [erase, kindAt?, at?]
                rw [lookup_filter_of_ne hfirst]
              · cases hchild : children.lookup name with
                | none => rw [erase_cons_of_lookup_eq_none hchild hplace]
                | some child =>
                    rw [erase_cons hchild hplace]
                    by_cases hfirst : first = name
                    · subst hfirst
                      have hrest : ¬ place <+: rest := fun hprefix =>
                        h (List.cons_prefix_cons.mpr ⟨rfl, hprefix⟩)
                      simpa [kindAt?, at?, hchild] using ih child hrest
                    · simp [kindAt?, at?, lookup_setChild_of_ne _ _ hfirst]

end Tree

end LiveExports
