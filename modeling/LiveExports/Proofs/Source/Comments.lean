import LiveExports.Proofs.Source.Lines
import LiveExports.Source.Reading
import Mathlib.Data.List.Forall2
import Mathlib.Data.List.Induction

/-!
# Comments and what blanking makes of them

A source is a sequence of *pieces*: characters of code, quoted texts and comments.  `Whole` says
when a text is made of whole pieces, given what follows it; whether a slash begins a comment, and
whether a line comment is over, depends on the first character that follows, and on no other.  After
the last whole piece there is nothing, a quoted text or a block comment that does not end
(`exists_ending`).

Blanking goes through a text of whole pieces and comes to what follows it in code, on the line that
the text leads to (`exists_blankFrom_of_whole`).  So what a comment says is lost
(`blankComments_of_rewords`), and blanking fails exactly where a source ends in a block comment
(`blankComments_eq_error_iff`).  What is left has the shape of the source
(`keepsShape_of_blankFrom`), and has no comments: after a slash of code there stands what stood
there before or a space (`blankFrom_of_blankFrom`).
-/

namespace LiveExports.Source

/-- What becomes of a character: line ends stay, and any other character stays or is made a
space. -/
def KeepsShape (c made : Char) : Prop :=
  (made = '\n' ↔ c = '\n') ∧ (made = c ∨ made = ' ')

/-- Does a character of code begin a comment, with the text that follows it? -/
def opensComment (c : Char) (after : List Char) : Bool :=
  c == '/' && after.head?.any fun next => next == '/' || next == '*'

/-- The characters that end a text in quotes of the given kind. -/
def EndsQuoted (quote c : Char) : Prop :=
  c = quote ∨ (c = '\n' ∧ quote ≠ templateQuote)
deriving Decidable

/-- The text after an opening quote, up to the end of what is quoted. -/
inductive Quoted (quote : Char) : List Char → Prop
  | last {c : Char} (hbackslash : c ≠ '\\') (hends : EndsQuoted quote c) : Quoted quote [c]
  | escaped {c : Char} {text : List Char} (h : Quoted quote text) : Quoted quote ('\\' :: c :: text)
  | char {c : Char} {text : List Char} (hbackslash : c ≠ '\\') (hends : ¬ EndsQuoted quote c)
      (h : Quoted quote text) : Quoted quote (c :: text)

/-- A comment before the text `after`.  A line comment goes up to the end of the line; a block
comment ends at the first star with a slash behind it. -/
inductive IsComment : (opening body closing after : List Char) → Prop
  | line {body after : List Char} (hbody : '\n' ∉ body) (hafter : EndsLine after) :
      IsComment ['/', '/'] body [] after
  | block {body after : List Char} (hbody : ¬ ['*', '/'] <:+: body ++ ['*']) :
      IsComment ['/', '*'] body ['*', '/'] after

/-- A text before `rest` that is made of whole pieces, so that `rest` begins in code. -/
inductive Whole (rest : List Char) : List Char → Prop
  | nil : Whole rest []
  | char {c : Char} {text : List Char} (hquote : isQuote c = false)
      (hopens : opensComment c (text ++ rest) = false) (h : Whole rest text) :
      Whole rest (c :: text)
  | quoted {quote : Char} {inner text : List Char} (hquote : isQuote quote = true)
      (hinner : Quoted quote inner) (h : Whole rest text) : Whole rest (quote :: (inner ++ text))
  | comment {opening body closing text : List Char}
      (hcomment : IsComment opening body closing (text ++ rest)) (h : Whole rest text) :
      Whole rest (opening ++ body ++ closing ++ text)

/-- A source that ends in a block comment, which begins after the text `before`. -/
def EndsInComment (source before : List Char) : Prop :=
  ∃ body, source = before ++ '/' :: '*' :: body ∧ Whole ('/' :: '*' :: body) before ∧
    ¬ ['*', '/'] <:+: body

/-- Two sources that differ in the text of one comment only.  Its line ends stay where they are, and
a block comment does not end any earlier. -/
inductive Rewords : (source reworded : List Char) → Prop
  | comment {before opening body other closing after : List Char}
      (hbefore : Whole (opening ++ body ++ closing ++ after) before)
      (hcomment : IsComment opening body closing after)
      (hother : List.Forall₂ (fun c d => c = '\n' ↔ d = '\n') body other)
      (hends : opening = ['/', '*'] → ¬ ['*', '/'] <:+: other ++ ['*']) :
      Rewords (before ++ (opening ++ body ++ closing ++ after))
        (before ++ (opening ++ other ++ closing ++ after))

/-! ## One character at a time -/

theorem exists_of_map_eq_ok {α β : Type} {result : Except Nat α} {change : α → β} {b : β}
    (h : result.map change = .ok b) : ∃ a, result = .ok a ∧ change a = b := by
  cases result with
  | error line => cases h
  | ok a => exact ⟨a, rfl, Except.ok.inj h⟩

/-- What is put before the text in two steps is put before it at once. -/
theorem map_append_map (result : Except Nat (List Char)) (first second : List Char) :
    (result.map (second ++ ·)).map (first ++ ·) = result.map (first ++ second ++ ·) := by
  cases result with
  | error line => rfl
  | ok text => exact congrArg Except.ok (List.append_assoc first second text).symm

theorem lineAfter_add_count (line : Nat) (c : Char) (text : List Char) :
    lineAfter line c + text.count '\n' = line + (c :: text).count '\n' := by
  by_cases hc : c = '\n'
  · simp only [lineAfter, hc, if_true, List.count_cons_self]
    omega
  · simp [lineAfter, hc]

theorem opensComment_of_isQuote {c : Char} (h : isQuote c = true) (after : List Char) :
    opensComment c after = false := by
  have hne : c ≠ '/' := by
    rintro rfl
    cases h
  simp [opensComment, hne]

section Characters

variable {quote c : Char} {text : List Char} (line : Nat)

theorem blankFrom_code_cons (h : opensComment c text = false) :
    blankFrom .code line (c :: text) =
      (blankFrom (if isQuote c then .quoted c else .code) (lineAfter line c) text).map
        ([c] ++ ·) := by
  rw [blankFrom]
  · rfl
  · rintro rest rfl rfl
    cases h
  · rintro rest rfl rfl
    cases h

theorem blankFrom_quoted_cons (h : c = '\\' → text = []) :
    blankFrom (.quoted quote) line (c :: text) =
      (blankFrom (if EndsQuoted quote c then .code else .quoted quote) (lineAfter line c) text).map
        ([c] ++ ·) := by
  rw [blankFrom]
  · rfl
  · rintro escaped rest rfl rfl
    cases h rfl

theorem blankFrom_quoted_escaped :
    blankFrom (.quoted quote) line ('\\' :: c :: text) =
      (blankFrom (.quoted quote) (lineAfter line c) text).map (['\\', c] ++ ·) :=
  rfl

theorem blankFrom_code_line :
    blankFrom .code line ('/' :: '/' :: text) =
      (blankFrom .lineComment line text).map ([' ', ' '] ++ ·) :=
  rfl

theorem blankFrom_code_block :
    blankFrom .code line ('/' :: '*' :: text) =
      (blankFrom (.blockComment line) line text).map ([' ', ' '] ++ ·) :=
  rfl

theorem blankFrom_blockComment_cons {start : Nat} (h : ¬ ['*', '/'] <+: c :: text) :
    blankFrom (.blockComment start) line (c :: text) =
      (blankFrom (.blockComment start) (lineAfter line c) text).map ([blanked c] ++ ·) := by
  rw [blankFrom]
  · rfl
  · rintro rest rfl rfl
    exact h (List.prefix_append ['*', '/'] rest)

end Characters

/-! ## Whole pieces -/

theorem IsComment.of_head?_eq {opening body closing after other : List Char}
    (h : IsComment opening body closing after) (hhead : other.head? = after.head?) :
    IsComment opening body closing other := by
  cases h with
  | line hbody hafter =>
      refine .line hbody ?_
      rcases hafter with rfl | ⟨more, rfl⟩
      · exact .inl (List.head?_eq_none_iff.mp hhead)
      · obtain ⟨rest, hrest⟩ := List.head?_eq_some_iff.mp hhead
        exact .inr ⟨rest, hrest⟩
  | block hbody => exact .block hbody

theorem blankFrom_lineComment {body after : List Char} (hbody : '\n' ∉ body)
    (hafter : EndsLine after) (line : Nat) :
    blankFrom .lineComment line (body ++ after) =
      (blankFrom .code line after).map (body.map blanked ++ ·) := by
  induction body with
  | nil =>
      rcases hafter with rfl | ⟨more, rfl⟩
      · rfl
      · have hline := blankFrom_code_cons line (show opensComment '\n' more = false from rfl)
        rw [hline, map_append_map]
        rfl
  | cons c body ih =>
      rw [List.mem_cons, not_or] at hbody
      have hc : c ≠ '\n' := Ne.symm hbody.1
      rw [List.cons_append, blankFrom, if_neg hc, lineAfter, if_neg hc, ih hbody.2]
      exact map_append_map _ [blanked c] _

theorem blankFrom_blockComment {body : List Char} (hbody : ¬ ['*', '/'] <:+: body ++ ['*'])
    (after : List Char) (start line : Nat) :
    blankFrom (.blockComment start) line (body ++ '*' :: '/' :: after) =
      (blankFrom .code (line + body.count '\n') after).map
        ((body ++ ['*', '/']).map blanked ++ ·) := by
  induction body generalizing line with
  | nil => rfl
  | cons c body ih =>
      rw [List.cons_append, List.infix_cons_iff, not_or] at hbody
      -- What follows the body is too far away for a first star and slash.
      have hhead : ¬ ['*', '/'] <+: c :: (body ++ '*' :: '/' :: after) := by
        intro hprefix
        have hshort : c :: (body ++ ['*']) <+: c :: (body ++ '*' :: '/' :: after) :=
          ⟨'/' :: after, by simp⟩
        exact hbody.1 (List.prefix_of_prefix_length_le hprefix hshort (by simp))
      rw [List.cons_append, blankFrom_blockComment_cons line hhead, ih hbody.2, map_append_map,
        lineAfter_add_count]
      rfl

theorem blankFrom_unended {body : List Char} (hbody : ¬ ['*', '/'] <:+: body) (start line : Nat) :
    blankFrom (.blockComment start) line body = .error start := by
  induction body generalizing line with
  | nil => rfl
  | cons c body ih =>
      rw [List.infix_cons_iff, not_or] at hbody
      rw [blankFrom_blockComment_cons line hbody.1, ih hbody.2]
      rfl

/-- Of a comment only the line ends are left, and after it there is code. -/
theorem blankFrom_comment {opening body closing after : List Char}
    (h : IsComment opening body closing after) (line : Nat) :
    blankFrom .code line (opening ++ body ++ closing ++ after) =
      (blankFrom .code (line + body.count '\n') after).map
        ((opening ++ body ++ closing).map blanked ++ ·) := by
  cases h with
  | line hbody hafter =>
      have hlines : body.count '\n' = 0 := List.count_eq_zero.mpr hbody
      have htext : ['/', '/'] ++ body ++ [] ++ after = '/' :: '/' :: (body ++ after) := by simp
      rw [htext, blankFrom_code_line, blankFrom_lineComment hbody hafter, map_append_map, hlines,
        List.append_nil]
      rfl
  | block hbody =>
      have htext : ['/', '*'] ++ body ++ ['*', '/'] ++ after =
          '/' :: '*' :: (body ++ '*' :: '/' :: after) := by simp
      rw [htext, blankFrom_code_block, blankFrom_blockComment hbody, map_append_map]
      rfl

/-- A quoted text is left alone, and after it there is code. -/
theorem blankFrom_quoted {quote : Char} {inner : List Char} (h : Quoted quote inner)
    (after : List Char) (line : Nat) :
    blankFrom (.quoted quote) line (inner ++ after) =
      (blankFrom .code (line + inner.count '\n') after).map (inner ++ ·) := by
  induction h generalizing line with
  | @last c hbackslash hends =>
      have hcount := lineAfter_add_count line c []
      rw [List.singleton_append, blankFrom_quoted_cons line fun hc => absurd hc hbackslash,
        if_pos hends, ← hcount]
      rfl
  | @escaped c text _ ih =>
      have hcount : ('\\' :: c :: text).count '\n' = (c :: text).count '\n' := by simp
      rw [List.cons_append, List.cons_append, blankFrom_quoted_escaped, ih, map_append_map, hcount,
        lineAfter_add_count]
      rfl
  | @char c text hbackslash hends _ ih =>
      rw [List.cons_append, blankFrom_quoted_cons line fun hc => absurd hc hbackslash,
        if_neg hends, ih, map_append_map, lineAfter_add_count]
      rfl

/-- Whole pieces are passed through, in the same way before every text that begins alike. -/
theorem exists_blankFrom_of_whole {rest before : List Char} (h : Whole rest before) :
    ∃ made, ∀ other : List Char, other.head? = rest.head? → ∀ line,
      blankFrom .code line (before ++ other) =
        (blankFrom .code (line + before.count '\n') other).map (made ++ ·) := by
  induction h with
  | nil =>
      refine ⟨[], fun other _ line => ?_⟩
      cases hresult : blankFrom .code line other <;> simp [hresult, Except.map]
  | @char c text hquote hopens _ ih =>
      obtain ⟨made, hmade⟩ := ih
      refine ⟨[c] ++ made, fun other hother line => ?_⟩
      have hcode : opensComment c (text ++ other) = false := by
        rw [← hopens, opensComment, opensComment, List.head?_append, List.head?_append, hother]
      rw [List.cons_append, blankFrom_code_cons line hcode, hquote, if_neg Bool.false_ne_true,
        hmade other hother, map_append_map, lineAfter_add_count]
  | @quoted quote inner text hquote hinner _ ih =>
      obtain ⟨made, hmade⟩ := ih
      refine ⟨[quote] ++ inner ++ made, fun other hother line => ?_⟩
      have hcount : lineAfter line quote + inner.count '\n' + text.count '\n' =
          line + (quote :: (inner ++ text)).count '\n' := by
        rw [← lineAfter_add_count, List.count_append, Nat.add_assoc]
      rw [List.cons_append, blankFrom_code_cons line (opensComment_of_isQuote hquote _), hquote,
        if_pos rfl, List.append_assoc, blankFrom_quoted hinner, hmade other hother, map_append_map,
        map_append_map, hcount]
  | @comment opening body closing text hcomment _ ih =>
      obtain ⟨made, hmade⟩ := ih
      refine ⟨(opening ++ body ++ closing).map blanked ++ made, fun other hother line => ?_⟩
      have hsame : IsComment opening body closing (text ++ other) :=
        hcomment.of_head?_eq (by rw [List.head?_append, List.head?_append, hother])
      have hcount : line + body.count '\n' + text.count '\n' =
          line + (opening ++ body ++ closing ++ text).count '\n' := by
        cases hcomment <;> simp <;> omega
      rw [List.append_assoc _ text, blankFrom_comment hsame, hmade other hother, map_append_map,
        hcount]

/-! ## The end of a source -/

/-- What is left of a source where no whole piece begins: nothing, a quoted text that does not end,
or a block comment that does not end. -/
inductive Ending : List Char → Prop
  | code : Ending []
  | quoted {quote : Char} {text : List Char} (hquote : isQuote quote = true)
      (h : ∀ inner after, text = inner ++ after → ¬ Quoted quote inner) : Ending (quote :: text)
  | comment {body : List Char} (h : ¬ ['*', '/'] <:+: body) : Ending ('/' :: '*' :: body)

theorem opensComment_iff {c : Char} {text : List Char} :
    opensComment c text = true ↔ c = '/' ∧ ∃ rest, text = '/' :: rest ∨ text = '*' :: rest := by
  cases text with
  | nil => simp [opensComment]
  | cons next text => simp [opensComment, exists_or]

/-- The first end of a block comment. -/
theorem exists_first_of_infix {text : List Char} (h : ['*', '/'] <:+: text) :
    ∃ body after, text = body ++ '*' :: '/' :: after ∧ ¬ ['*', '/'] <:+: body ++ ['*'] := by
  induction text with
  | nil => simp at h
  | cons c text ih =>
      by_cases hprefix : ['*', '/'] <+: c :: text
      · obtain ⟨after, hafter⟩ := hprefix
        exact ⟨[], after, hafter.symm, by decide⟩
      · obtain ⟨body, after, rfl, hbody⟩ := ih ((List.infix_cons_iff.mp h).resolve_left hprefix)
        refine ⟨c :: body, after, rfl, ?_⟩
        rw [List.cons_append, List.infix_cons_iff, not_or]
        refine ⟨fun hearly => hprefix (hearly.trans ?_), hbody⟩
        exact ⟨'/' :: after, by simp⟩

/-- The first end of a line. -/
theorem exists_line (text : List Char) :
    ∃ body after, text = body ++ after ∧ '\n' ∉ body ∧ EndsLine after := by
  refine ⟨text.takeWhile (· ≠ '\n'), text.dropWhile (· ≠ '\n'),
    List.takeWhile_append_dropWhile.symm, fun hmem => ?_, ?_⟩
  · simpa using List.all_eq_true.mp List.all_takeWhile _ hmem
  · have hhead := List.head?_dropWhile_not (· ≠ '\n') text
    cases hafter : text.dropWhile (· ≠ '\n') with
    | nil => exact .inl rfl
    | cons c more =>
        rw [hafter] at hhead
        exact .inr ⟨more, by simpa using hhead⟩

/-- A text that does not begin with a whole piece is an ending. -/
theorem ending_or_exists_piece (text : List Char) :
    Ending text ∨ ∃ piece rest, piece ≠ [] ∧ text = piece ++ rest ∧
      ∀ before after, rest = before ++ after → Whole after before →
        Whole after (piece ++ before) := by
  cases text with
  | nil => exact .inl .code
  | cons c text =>
      by_cases hquote : isQuote c = true
      · by_cases hclosed : ∃ inner after, text = inner ++ after ∧ Quoted c inner
        · obtain ⟨inner, after, rfl, hinner⟩ := hclosed
          refine .inr ⟨c :: inner, after, List.cons_ne_nil c inner, rfl, ?_⟩
          intro before rest _ hbefore
          exact .quoted hquote hinner hbefore
        · refine .inl (.quoted hquote fun inner after htext hinner => hclosed ?_)
          exact ⟨inner, after, htext, hinner⟩
      · by_cases hopens : opensComment c text = true
        · obtain ⟨rfl, rest, rfl | rfl⟩ := opensComment_iff.mp hopens
          · obtain ⟨body, after, rfl, hbody, hafter⟩ := exists_line rest
            refine .inr ⟨['/', '/'] ++ body ++ [], after, by simp, by simp, ?_⟩
            rintro before rest rfl hbefore
            exact .comment (.line hbody hafter) hbefore
          · by_cases hends : ['*', '/'] <:+: rest
            · obtain ⟨body, after, rfl, hbody⟩ := exists_first_of_infix hends
              refine .inr ⟨['/', '*'] ++ body ++ ['*', '/'], after, by simp, by simp, ?_⟩
              intro before after _ hbefore
              exact .comment (.block hbody) hbefore
            · exact .inl (.comment hends)
        · refine .inr ⟨[c], text, List.cons_ne_nil c [], rfl, ?_⟩
          rintro before rest rfl hbefore
          exact .char (by simpa using hquote) (by simpa using hopens) hbefore

theorem exists_ending (source : List Char) :
    ∃ before rest, source = before ++ rest ∧ Whole rest before ∧ Ending rest := by
  rcases ending_or_exists_piece source with hending | ⟨piece, rest, hpiece, rfl, hwhole⟩
  · exact ⟨[], source, rfl, .nil, hending⟩
  · have hshorter : rest.length < (piece ++ rest).length := by
      rw [List.length_append]
      have := List.length_pos_iff.mpr hpiece
      omega
    obtain ⟨before, after, hrest, hbefore, hending⟩ := exists_ending rest
    refine ⟨piece ++ before, after, ?_, hwhole before after hrest hbefore, hending⟩
    rw [hrest, List.append_assoc]
termination_by source.length

/-- A quoted text that does not end is left alone. -/
theorem blankFrom_of_unclosed {quote : Char} {text : List Char}
    (h : ∀ inner after, text = inner ++ after → ¬ Quoted quote inner) (line : Nat) :
    blankFrom (.quoted quote) line text = .ok text := by
  induction text using List.twoStepInduction generalizing line with
  | nil => rfl
  | singleton c =>
      rw [blankFrom_quoted_cons line fun _ => rfl]
      split <;> rfl
  | cons_cons c d text ihEscaped ihNext =>
      by_cases hbackslash : c = '\\'
      · subst hbackslash
        rw [blankFrom_quoted_escaped, ihEscaped]
        · rfl
        · rintro inner after rfl hinner
          exact h ('\\' :: d :: inner) after rfl (.escaped hinner)
      · have hends : ¬ EndsQuoted quote c := fun hends =>
          h [c] (d :: text) rfl (.last hbackslash hends)
        rw [blankFrom_quoted_cons line fun hc => absurd hc hbackslash, if_neg hends, ihNext]
        · rfl
        · intro inner after htext hinner
          exact h (c :: inner) after (by rw [htext]; rfl) (.char hbackslash hends hinner)

theorem blankComments_of_endsInComment {source before : List Char}
    (h : EndsInComment source before) :
    blankComments source = .error (1 + before.count '\n') := by
  obtain ⟨body, rfl, hbefore, hbody⟩ := h
  obtain ⟨made, hmade⟩ := exists_blankFrom_of_whole hbefore
  rw [blankComments, hmade _ rfl, blankFrom_code_block, blankFrom_unended hbody]
  rfl

/-- Blanking fails where a source ends in a block comment, and nowhere else. -/
theorem blankComments_eq_error_iff {source : List Char} {line : Nat} :
    blankComments source = .error line ↔
      ∃ before, EndsInComment source before ∧ line = 1 + before.count '\n' := by
  constructor
  · intro h
    -- Of the three endings, only the comment makes blanking fail.
    obtain ⟨before, rest, rfl, hbefore, hending⟩ := exists_ending source
    obtain ⟨made, hmade⟩ := exists_blankFrom_of_whole hbefore
    cases hending with
    | code =>
        rw [blankComments, hmade _ rfl] at h
        cases h
    | @quoted quote text hquote hunclosed =>
        rw [blankComments, hmade _ rfl, blankFrom_code_cons _ (opensComment_of_isQuote hquote text),
          hquote, if_pos rfl, blankFrom_of_unclosed hunclosed] at h
        cases h
    | @comment body hbody =>
        have hends : EndsInComment (before ++ '/' :: '*' :: body) before :=
          ⟨body, rfl, hbefore, hbody⟩
        rw [blankComments_of_endsInComment hends] at h
        exact ⟨before, hends, (Except.error.inj h).symm⟩
  · rintro ⟨before, hends, rfl⟩
    exact blankComments_of_endsInComment hends

/-! ## The text of comments -/

theorem map_blanked_of_forall₂ {body other : List Char}
    (h : List.Forall₂ (fun c d => c = '\n' ↔ d = '\n') body other) :
    body.map blanked = other.map blanked ∧ body.count '\n' = other.count '\n' := by
  induction h with
  | nil => exact ⟨rfl, rfl⟩
  | @cons c d body other hcd _ ih =>
      obtain ⟨hmap, hcount⟩ := ih
      by_cases hc : c = '\n'
      · rw [hc, hcd.mp hc, List.map_cons, List.map_cons, hmap, List.count_cons_self,
          List.count_cons_self, hcount]
        exact ⟨rfl, rfl⟩
      · have hd : d ≠ '\n' := fun hd => hc (hcd.mpr hd)
        simp [blanked, hc, hd, hmap, hcount]

/-- What a comment says makes no difference. -/
theorem blankComments_of_rewords {source reworded : List Char} (h : Rewords source reworded) :
    blankComments reworded = blankComments source := by
  cases h with
  | @comment before opening body other closing after hbefore hcomment hother hends =>
      obtain ⟨hmap, hcount⟩ := map_blanked_of_forall₂ hother
      have hreworded : IsComment opening other closing after := by
        cases hcomment with
        | line hbody hafter =>
            have hlines := List.count_eq_zero.mpr hbody
            rw [hcount] at hlines
            exact .line (List.count_eq_zero.mp hlines) hafter
        | block hbody => exact .block (hends rfl)
      have hhead : (opening ++ other ++ closing ++ after).head? =
          (opening ++ body ++ closing ++ after).head? := by
        cases hcomment <;> rfl
      obtain ⟨made, hmade⟩ := exists_blankFrom_of_whole hbefore
      rw [blankComments, blankComments, hmade _ hhead, hmade _ rfl, blankFrom_comment hreworded,
        blankFrom_comment hcomment, hcount]
      simp only [List.map_append, hmap]

/-! ## What is left -/

theorem keepsShape_self (c : Char) : KeepsShape c c :=
  ⟨Iff.rfl, .inl rfl⟩

theorem keepsShape_blanked (c : Char) : KeepsShape c (blanked c) := by
  by_cases hc : c = '\n' <;> simp [KeepsShape, blanked, hc]

/-- The text that is left has the shape of the source. -/
theorem keepsShape_of_blankFrom {place : Place} {line : Nat} {source text : List Char}
    (h : blankFrom place line source = .ok text) : List.Forall₂ KeepsShape source text := by
  fun_induction blankFrom place line source generalizing text with
  | case1 => cases h
  | case2 | case3 | case4 =>
      cases h
      exact .nil
  | case5 line rest ih | case6 line rest ih | case11 start line rest ih =>
      obtain ⟨made, hmade, rfl⟩ := exists_of_map_eq_ok h
      exact .cons (keepsShape_blanked _) (.cons (keepsShape_blanked _) (ih hmade))
  | case7 line c rest | case9 quote line c rest =>
      rename_i ih
      obtain ⟨made, hmade, rfl⟩ := exists_of_map_eq_ok h
      exact .cons (keepsShape_self c) (ih hmade)
  | case8 quote line escaped rest ih =>
      obtain ⟨made, hmade, rfl⟩ := exists_of_map_eq_ok h
      exact .cons (keepsShape_self _) (.cons (keepsShape_self escaped) (ih hmade))
  | case10 line c rest ih | case12 start line c rest _ ih =>
      obtain ⟨made, hmade, rfl⟩ := exists_of_map_eq_ok h
      exact .cons (keepsShape_blanked c) (ih hmade)

/-- Where a character stands once the comments are blanked. -/
def Place.afterBlanking : Place → Place
  | .quoted quote => .quoted quote
  | _ => .code

/-- A slash that begins no comment begins none when what follows it is blanked. -/
theorem opensComment_of_keepsShape {c : Char} {source text : List Char}
    (hshape : List.Forall₂ KeepsShape source text) (h : opensComment c source = false) :
    opensComment c text = false := by
  cases hshape with
  | nil => exact h
  | @cons d made _ _ hmade _ =>
      rcases hmade.2 with rfl | rfl
      · exact h
      · simp [opensComment]

/-- What is put in place of a comment is code like any other. -/
theorem blankFrom_code_blanked {text : List Char} (h : ∀ line, blankFrom .code line text = .ok text)
    (c : Char) (line : Nat) :
    blankFrom .code line (blanked c :: text) = .ok (blanked c :: text) := by
  have hblanked : opensComment (blanked c) text = false ∧ isQuote (blanked c) = false := by
    by_cases hc : c = '\n' <;> simp [opensComment, blanked, isQuote, templateQuote, hc]
  rw [blankFrom_code_cons line hblanked.1, hblanked.2, if_neg Bool.false_ne_true, h]
  rfl

/-- Blanking what is left changes nothing. -/
theorem blankFrom_of_blankFrom {place : Place} {line : Nat} {source text : List Char}
    (h : blankFrom place line source = .ok text) (other : Nat) :
    blankFrom place.afterBlanking other text = .ok text := by
  fun_induction blankFrom place line source generalizing text other with
  | case1 => cases h
  | case2 | case3 | case4 =>
      cases h
      rfl
  | case5 line rest ih | case6 line rest ih | case11 start line rest ih =>
      obtain ⟨made, hmade, rfl⟩ := exists_of_map_eq_ok h
      exact blankFrom_code_blanked (blankFrom_code_blanked (ih hmade) ' ') ' ' other
  | case7 line c rest hslash hstar ih =>
      obtain ⟨made, hmade, rfl⟩ := exists_of_map_eq_ok h
      have hopens : opensComment c rest = false := by
        rw [Bool.eq_false_iff]
        intro hopens
        obtain ⟨rfl, more, rfl | rfl⟩ := opensComment_iff.mp hopens
        · exact hslash more rfl rfl
        · exact hstar more rfl rfl
      -- The character after a slash may have become a space, but never a second slash or a star.
      have hkept := opensComment_of_keepsShape (keepsShape_of_blankFrom hmade) hopens
      have hplace : (if isQuote c = true then Place.quoted c else .code).afterBlanking =
          if isQuote c = true then Place.quoted c else .code := by
        split <;> rfl
      rw [hplace] at ih
      change blankFrom .code other (c :: made) = .ok (c :: made)
      rw [blankFrom_code_cons other hkept, ih hmade]
      rfl
  | case8 quote line escaped rest ih =>
      obtain ⟨made, hmade, rfl⟩ := exists_of_map_eq_ok h
      have hrest : blankFrom (.quoted quote) (lineAfter other escaped) made = .ok made := ih hmade _
      change blankFrom (.quoted quote) other ('\\' :: escaped :: made) = _
      rw [blankFrom_quoted_escaped, hrest]
      rfl
  | case9 quote line c rest hescape =>
      rename_i ih
      obtain ⟨made, hmade, rfl⟩ := exists_of_map_eq_ok h
      have hlength := (keepsShape_of_blankFrom hmade).length_eq
      have hlone : c = '\\' → made = [] := by
        intro hc
        cases rest with
        | nil => exact List.length_eq_zero_iff.mp hlength.symm
        | cons escaped more => exact (hescape escaped more hc rfl).elim
      have hplace : (if EndsQuoted quote c then Place.code else .quoted quote).afterBlanking =
          if EndsQuoted quote c then Place.code else .quoted quote := by
        split <;> rfl
      have hrest := ih hmade (lineAfter other c)
      change blankFrom
        (if EndsQuoted quote c then Place.code else .quoted quote).afterBlanking _ _ = _
        at hrest
      change blankFrom (.quoted quote) other (c :: made) = .ok (c :: made)
      rw [blankFrom_quoted_cons other hlone, ← hplace, hrest]
      rfl
  | case10 line c rest ih =>
      obtain ⟨made, hmade, rfl⟩ := exists_of_map_eq_ok h
      have hplace : (if c = '\n' then Place.code else .lineComment).afterBlanking = .code := by
        split <;> rfl
      rw [hplace] at ih
      exact blankFrom_code_blanked (ih hmade) c other
  | case12 start line c rest _ ih =>
      obtain ⟨made, hmade, rfl⟩ := exists_of_map_eq_ok h
      exact blankFrom_code_blanked (ih hmade) c other

theorem read_of_blankComments {source text : List Char} (h : blankComments source = .ok text) :
    read text = read source := by
  have hagain : blankComments text = .ok text := blankFrom_of_blankFrom h 1
  rw [read, read, h, hagain]

/-- Blanking keeps the shape of a source character by character, has nothing left to do the second
time, and does not see what a comment says.  It fails where a source ends in a block comment, with
the line that the comment begins on, and nowhere else. -/
theorem blankComments_faithful (source : List Char) :
    (∀ text, blankComments source = .ok text →
      List.Forall₂ KeepsShape source text ∧
      blankComments text = .ok text ∧
      (∀ module, Declarations.ofSource module (String.ofList text) =
        Declarations.ofSource module (String.ofList source)) ∧
      ∀ reworded, Rewords source reworded → blankComments reworded = .ok text) ∧
    ∀ line, blankComments source = .error line ↔
      ∃ before, EndsInComment source before ∧ line = 1 + before.count '\n' := by
  refine ⟨fun text htext => ⟨?_, ?_, ?_, ?_⟩, fun line => blankComments_eq_error_iff⟩
  · exact keepsShape_of_blankFrom htext
  · exact blankFrom_of_blankFrom htext 1
  · intro module
    rw [Declarations.ofSource, Declarations.ofSource, String.toList_ofList, String.toList_ofList,
      read_of_blankComments htext]
  · intro reworded hreworded
    rw [blankComments_of_rewords hreworded, htext]

/-- Slashes in quotes begin no comment; the block comment behind them may say anything. -/
theorem blankComments_faithful_after_quoted_slashes :
    Rewords ['"', '/', '/', '"', '/', '*', 'a', '\n', '*', '/', 'b']
        ['"', '/', '/', '"', '/', '*', '*', '\n', '*', '/', 'b'] ∧
      blankComments ['"', '/', '/', '"', '/', '*', '*', '\n', '*', '/', 'b'] =
        .ok ['"', '/', '/', '"', ' ', ' ', ' ', '\n', ' ', ' ', 'b'] ∧
      blankComments ['\n', '/', '*', '*'] = .error 2 := by
  have hquoted : Quoted '"' ['/', '/', '"'] :=
    .char (by decide) (by decide) (.char (by decide) (by decide) (.last (by decide) (.inl rfl)))
  have hrewords : Rewords ['"', '/', '/', '"', '/', '*', 'a', '\n', '*', '/', 'b']
      ['"', '/', '/', '"', '/', '*', '*', '\n', '*', '/', 'b'] :=
    @Rewords.comment ['"', '/', '/', '"'] ['/', '*'] ['a', '\n'] ['*', '\n'] ['*', '/'] ['b']
      (.quoted rfl hquoted .nil) (.block (by decide)) (.cons (by decide) (.cons (by decide) .nil))
      (fun _ => by decide)
  refine ⟨hrewords, ?_, ?_⟩
  · exact ((blankComments_faithful _).1 _ rfl).2.2.2 _ hrewords
  · exact ((blankComments_faithful _).2 2).mpr
      ⟨['\n'], ⟨['*'], rfl, .char rfl rfl .nil, by decide⟩, rfl⟩

end LiveExports.Source
