import LiveExports.Proofs.Resolution.Closure
import Mathlib.Logic.Relation

/-!
# Spellings of a specifier

A specifier may be written with segments that lead nowhere: an empty one, a full stop, or a name and
the way back.  Following them ends where it began, whatever the position is
(`foldl_follow_of_isIdle`), so that a path with such segments is cleaned to the same path
(`clean_of_isIdle`).  All that resolution takes from a specifier besides its clean path is whether
it ends in a slash, and segments put in after a slash leave its end as it is.
-/

namespace LiveExports

namespace Path

/-- Segments that lead nowhere: none, the same folder, or a name and the way back from it. -/
inductive IsIdle : List Char → Prop
  | empty : IsIdle []
  | here : IsIdle ['.']
  | back {name : List Char} (hnamed : IsNamed name) (hslash : '/' ∉ name) :
      IsIdle (name ++ ['/', '.', '.'])

/-- Segments that lead nowhere are put in after a slash, with a slash of their own behind them. -/
inductive Inserts : List Char → List Char → Prop
  | after {before inserted rest : List Char} (h : IsIdle inserted) :
      Inserts (before ++ '/' :: rest) (before ++ '/' :: (inserted ++ '/' :: rest))

/-- Following idle segments leads back to the position they start from. -/
theorem foldl_follow_of_isIdle {inserted : List Char} (h : IsIdle inserted) (absolute : Bool)
    (position : List (List Char)) :
    (segments inserted).foldl (follow absolute) position = position := by
  cases h with
  | empty => rfl
  | here => rfl
  | @back name hnamed hslash =>
      have hsegments : segments (name ++ ['/', '.', '.']) = [name, ['.', '.']] := by
        rw [segments, Text.split_append_separator, Text.split_of_not_mem hslash]
        rfl
      have hname : follow absolute position name = name :: position :=
        foldl_follow_of_isNamed (List.forall_mem_singleton.mpr hnamed) position
      have hback : follow absolute (name :: position) ['.', '.'] = position := by
        simp [follow, hnamed.2.2]
      rw [hsegments, List.foldl_cons, hname, List.foldl_cons, hback, List.foldl_nil]

theorem isAbsolute_append_slash (before rest other : List Char) :
    isAbsolute (before ++ '/' :: rest) = isAbsolute (before ++ '/' :: other) := by
  cases before <;> rfl

theorem clean_of_isIdle {inserted : List Char} (h : IsIdle inserted) (before rest : List Char) :
    clean (before ++ '/' :: (inserted ++ '/' :: rest)) = clean (before ++ '/' :: rest) := by
  have hreduce :
      ∀ absolute, reduce absolute (segments (before ++ '/' :: (inserted ++ '/' :: rest))) =
      reduce absolute (segments (before ++ '/' :: rest)) := by
    intro absolute
    have hinserted := foldl_follow_of_isIdle h absolute
    unfold segments at hinserted
    simp only [reduce, segments, Text.split_append_separator, List.foldl_append, hinserted]
  unfold clean
  rw [isAbsolute_append_slash before _ rest, hreduce]

/-- The folder that a specifier starts from makes no difference. -/
theorem clean_join_of_inserts {specifier other : List Char} (h : Inserts specifier other)
    (folder : List Char) : clean (join folder specifier) = clean (join folder other) := by
  cases h with
  | @after before inserted rest hidle =>
      unfold join
      rw [isAbsolute_append_slash before (inserted ++ '/' :: rest) rest]
      split
      · exact (clean_of_isIdle hidle before rest).symm
      · split
        · rw [← List.append_assoc, ← List.append_assoc]
          exact (clean_of_isIdle hidle (folder ++ before) rest).symm
        · have hassoc :
              ∀ tail, folder ++ '/' :: (before ++ tail) = (folder ++ '/' :: before) ++ tail := by
            simp
          rw [hassoc, hassoc]
          exact (clean_of_isIdle hidle (folder ++ '/' :: before) rest).symm

end Path

namespace Resolver

/-- Two specifiers that differ in segments that lead nowhere. -/
def Respells (specifier other : String) : Prop :=
  Relation.ReflTransGen Path.Inserts specifier.toList other.toList

/-- What resolution takes from a specifier is the same for both. -/
structure Alike (specifier other : List Char) : Prop where
  isEmpty_trim : (Text.trim specifier).isEmpty = (Text.trim other).isEmpty
  clean_join : ∀ folder, Path.clean (Path.join folder specifier) =
    Path.clean (Path.join folder other)
  getLast? : specifier.getLast? = other.getLast?

theorem alike_of_inserts {specifier other : List Char} (h : Path.Inserts specifier other) :
    Alike specifier other where
  isEmpty_trim := by
    obtain ⟨-⟩ := h
    rw [Text.isEmpty_trim_of_mem (c := '/') (by decide) (by simp),
      Text.isEmpty_trim_of_mem (c := '/') (by decide) (by simp)]
  clean_join := Path.clean_join_of_inserts h
  getLast? := by
    obtain ⟨-⟩ := h
    simp [List.getLast?_append, List.getLast?_cons]

theorem alike_of_reflTransGen {specifier other : List Char}
    (h : Relation.ReflTransGen Path.Inserts specifier other) : Alike specifier other := by
  induction h with
  | refl => exact ⟨rfl, fun _ => rfl, rfl⟩
  | tail _ hinserts ih =>
      have hnext := alike_of_inserts hinserts
      exact ⟨ih.isEmpty_trim.trans hnext.isEmpty_trim,
        fun folder => (ih.clean_join folder).trans (hnext.clean_join folder),
        ih.getLast?.trans hnext.getLast?⟩

theorem candidatesFor_of_alike {specifier other : String}
    (h : Alike specifier.toList other.toList) (resolver : Resolver) (source : ModuleId) :
    resolver.candidatesFor source specifier = resolver.candidatesFor source other := by
  have hbase : basePath source.folder specifier = basePath source.folder other := by
    unfold basePath
    dsimp only
    rw [h.clean_join]
  unfold candidatesFor
  rw [h.isEmpty_trim, hbase, h.getLast?]

/-- Segments that lead nowhere, however many and wherever they are put in, change neither what a
specifier is resolved to nor what is tried for it. -/
theorem resolve_of_respells (resolver : Resolver) (source : ModuleId) {specifier other : String}
    (h : Respells specifier other) :
    (∃ id, resolver.resolve source specifier = .ok id ∧ resolver.resolve source other = .ok id) ∨
      ∃ tried,
        resolver.resolve source specifier = .error (.unresolvedPath source specifier tried) ∧
        resolver.resolve source other = .error (.unresolvedPath source other tried) := by
  have htried := candidatesFor_of_alike (alike_of_reflTransGen h) resolver source
  unfold resolve
  dsimp only
  rw [htried]
  cases (resolver.candidatesFor source other).find? resolver.isFile with
  | some path => exact .inl ⟨_, rfl, rfl⟩
  | none => exact .inr ⟨_, rfl, rfl⟩

/-- A way into a folder and out of it again, and a doubled slash after it. -/
theorem resolve_of_respells_detour :
    Respells "./lib/a" "./x/..//lib/a" ∧
      (ofFiles ["/p/lib/a.js"] [".js"] false).resolve ⟨"/p/main.js"⟩ "./x/..//lib/a" =
        .ok ⟨"/p/lib/a.js"⟩ := by
  have hdetour : Path.Inserts ['.', '/', 'l', 'i', 'b', '/', 'a']
      ['.', '/', 'x', '/', '.', '.', '/', 'l', 'i', 'b', '/', 'a'] :=
    @Path.Inserts.after ['.'] ['x', '/', '.', '.'] ['l', 'i', 'b', '/', 'a']
      (@Path.IsIdle.back ['x'] ⟨by decide, by decide, by decide⟩ (by decide))
  have hdoubled : Path.Inserts ['.', '/', 'x', '/', '.', '.', '/', 'l', 'i', 'b', '/', 'a']
      ['.', '/', 'x', '/', '.', '.', '/', '/', 'l', 'i', 'b', '/', 'a'] :=
    @Path.Inserts.after ['.', '/', 'x', '/', '.', '.'] [] ['l', 'i', 'b', '/', 'a'] .empty
  have hrespells : Respells "./lib/a" "./x/..//lib/a" :=
    (Relation.ReflTransGen.single hdetour).tail hdoubled
  refine ⟨hrespells, ?_⟩
  have hplain : (ofFiles ["/p/lib/a.js"] [".js"] false).resolve ⟨"/p/main.js"⟩ "./lib/a" =
      .ok ⟨"/p/lib/a.js"⟩ := by
    decide +kernel
  rcases resolve_of_respells (ofFiles ["/p/lib/a.js"] [".js"] false) ⟨"/p/main.js"⟩ hrespells with
    ⟨id, hid, hother⟩ | ⟨tried, hfault, -⟩
  · rw [hother, ← hid, hplain]
  · rw [hplain] at hfault
    cases hfault

end Resolver

end LiveExports
