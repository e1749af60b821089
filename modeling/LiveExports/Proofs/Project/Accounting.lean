import LiveExports.Proofs.Project.KnownTargets

/-!
# Every export is accounted for

An analysis has one record of each export of its graph, and each record is counted once: as used, as
dead and reported, or as dead and left out because of a pattern.  Patterns are looked at only when
everything else is found out, so that more of them leave out dead exports and do nothing else
(`Settings.analyze_accounts`).
-/

namespace LiveExports

open StrictOrder

/-! ## Patterns -/

/-- A name matches a pattern.  A star at the end stands for any ending, otherwise a star at the head
for any beginning, and a pattern without either occurs in the name. -/
inductive Pattern.Matches (name pattern : List Char) : Prop
  | beginning (text : List Char) (hpattern : pattern = text ++ ['*']) (h : text <+: name)
  | ending (text : List Char) (hpattern : pattern = '*' :: text) (hlast : text.getLast? ≠ some '*')
      (h : text <:+ name)
  | inside (hne : pattern ≠ []) (hhead : pattern.head? ≠ some '*')
      (hlast : pattern.getLast? ≠ some '*') (h : pattern <:+: name)

namespace Pattern

variable {name text : List Char}

theorem not_matches_nil : ¬Matches name [] := by
  rintro (⟨text, hpattern, -⟩ | ⟨text, hpattern, -, -⟩ | ⟨hne, -, -, -⟩)
  · simp at hpattern
  · cases hpattern
  · exact hne rfl

theorem matches_beginning_iff : Matches name (text ++ ['*']) ↔ text <+: name := by
  constructor
  · rintro (⟨other, hpattern, h⟩ | ⟨other, hpattern, hlast, -⟩ | ⟨-, -, hlast, -⟩)
    · rw [List.append_cancel_right hpattern]
      exact h
    · cases text with
      | nil => exact List.nil_prefix
      | cons c text =>
          rw [List.cons_append] at hpattern
          rw [← (List.cons.inj hpattern).2, List.getLast?_concat] at hlast
          exact absurd rfl hlast
    · rw [List.getLast?_concat] at hlast
      exact absurd rfl hlast
  · exact Matches.beginning text rfl

theorem matches_ending_iff (hlast : ('*' :: text).getLast? ≠ some '*') :
    Matches name ('*' :: text) ↔ text <:+ name := by
  constructor
  · rintro (⟨other, hpattern, -⟩ | ⟨other, hpattern, -, h⟩ | ⟨-, hhead, -, -⟩)
    · rw [hpattern, List.getLast?_concat] at hlast
      exact absurd rfl hlast
    · rw [(List.cons.inj hpattern).2]
      exact h
    · exact absurd rfl hhead
  · refine Matches.ending text rfl fun htext => hlast ?_
    rw [List.getLast?_cons, htext]
    rfl

theorem matches_inside_iff (hne : text ≠ []) (hhead : text.head? ≠ some '*')
    (hlast : text.getLast? ≠ some '*') : Matches name text ↔ text <:+: name := by
  constructor
  · rintro (⟨other, rfl, -⟩ | ⟨other, rfl, -, -⟩ | ⟨-, -, -, h⟩)
    · rw [List.getLast?_concat] at hlast
      exact absurd rfl hlast
    · exact absurd rfl hhead
    · exact h
  · exact Matches.inside hne hhead hlast

end Pattern

theorem matchesPattern_iff {pattern name : String} :
    matchesPattern pattern name = true ↔ Pattern.Matches name.toList pattern.toList := by
  unfold matchesPattern
  generalize pattern.toList = chars
  split
  · next hlast =>
    rw [List.getLast?_eq_none_iff.mp hlast]
    exact iff_of_false Bool.false_ne_true Pattern.not_matches_nil
  · next hlast =>
    obtain ⟨text, rfl⟩ := List.getLast?_eq_some_iff.mp hlast
    rw [List.dropLast_concat, List.isPrefixOf_iff_prefix, Pattern.matches_beginning_iff]
  · next hlast => rw [List.isSuffixOf_iff_suffix, Pattern.matches_ending_iff hlast]
  · next hhead hne hlast =>
    rw [Text.occursIn_iff, Pattern.matches_inside_iff _ _ hlast]
    · exact fun hnil => hne (List.getLast?_eq_none_iff.mpr hnil)
    · intro hstar
      obtain ⟨ending, hending⟩ := List.head?_eq_some_iff.mp hstar
      exact hhead ending hending

namespace Settings

variable {settings : Settings}

theorem ignores_eq_false_iff {name : String} :
    settings.ignores name = false ↔
      ∀ pattern ∈ settings.ignore, ¬Pattern.Matches name.toList pattern.toList := by
  simp only [ignores, List.any_eq_false, matchesPattern_iff]

theorem ignoresRecord_eq_false_iff {root : String} {record : ExportRecord} :
    settings.ignoresRecord root record = false ↔
      ∀ pattern ∈ settings.ignore, ¬Pattern.Matches record.name.toList pattern.toList ∧
        ¬Pattern.Matches (record.module.relativeTo root).toList pattern.toList := by
  rw [ignoresRecord, Bool.or_eq_false_iff, ignores_eq_false_iff, ignores_eq_false_iff]
  exact forall₂_and.symm

/-- What is left out because of some patterns is left out because of more. -/
theorem ignoresRecord_of_subset {more : List String} (hmore : settings.ignore ⊆ more)
    {root : String} {record : ExportRecord}
    (h : ignoresRecord { settings with ignore := more } root record = false) :
    settings.ignoresRecord root record = false := by
  rw [ignoresRecord_eq_false_iff] at h ⊢
  exact fun pattern hpattern => h pattern (hmore hpattern)

end Settings

/-! ## Records -/

namespace StrictOrder

variable {α β : Type} [StrictOrder α] [StrictOrder β]

theorem less_pair_of_first {a b : α} (h : less a b = true) (c d : β) :
    less (a, c) (b, d) = true :=
  Bool.or_eq_true_iff.mpr (Or.inl h)

theorem less_pair_of_second (a : α) {c d : β} (h : less c d = true) :
    less (a, c) (a, d) = true := by
  show (less a a || (!less a a && less c d)) = true
  rw [less_irrefl, h]
  rfl

end StrictOrder

theorem Graph.sorted_exports (graph : Graph) :
    graph.exports.Pairwise fun item other =>
      less (item.1, item.2.1) (other.1, other.2.1) = true := by
  refine List.pairwise_flatMap.mpr ⟨fun node hnode => ?_, graph.nodes.sorted.imp ?_⟩
  · exact List.pairwise_map.mpr
      (node.2.exports.sorted.imp fun hless => less_pair_of_second node.1 hless)
  · intro node other hless item hitem next hnext
    obtain ⟨_, -, rfl⟩ := List.mem_map.mp hitem
    obtain ⟨_, -, rfl⟩ := List.mem_map.mp hnext
    exact less_pair_of_first hless _ _

/-- A liveness analysis that succeeds gives the result of its final stage. -/
theorem Graph.eq_result_of_liveness {graph : Graph} {entries : List ModuleId}
    {entryExportsUsed : Bool} {liveness : Liveness}
    (h : graph.liveness entries entryExportsUsed = .ok liveness) :
    liveness = (graph.finalStage entries entryExportsUsed).result graph := by
  obtain ⟨_, -, h⟩ := exists_of_bind_eq_ok h
  exact (Except.ok.inj h).symm

namespace Stage

variable (stage : Stage) (graph : Graph)

theorem sorted_records_result (hvalid : graph.Valid) (hkeyed : graph.KeyedByName) :
    (stage.result graph).records.Pairwise fun record other =>
      less (record.module, record.name) (other.module, other.name) = true := by
  refine List.pairwise_map.mpr (graph.sorted_exports.imp_of_mem ?_)
  rintro ⟨id, key, entry⟩ ⟨other, otherKey, otherEntry⟩ hitem hother hless
  have howner := hvalid.owner (Graph.mem_exports_iff.mp hitem)
  have hotherOwner := hvalid.owner (Graph.mem_exports_iff.mp hother)
  have hname : entry.name = key := hkeyed _ hitem
  have hotherName : otherEntry.name = otherKey := hkeyed _ hother
  show less (entry.owner, entry.name) (otherEntry.owner, otherEntry.name) = true
  rw [howner, hotherOwner, hname, hotherName]
  exact hless

/-- A verdict says the same as the record. -/
theorem find?_verdicts_iff_exists_record (module : ModuleId) (name : String) (verdict : Verdict) :
    (stage.result graph).verdicts.find? (module, name) = some verdict ↔
      ∃ record ∈ (stage.result graph).records, record.module = module ∧ record.name = name ∧
        record.used = verdict.used ∧ record.triggers = verdict.triggers := by
  rw [find?_verdicts_result_eq_some_iff, lists_iff_exists_record stage]
  constructor
  · rintro ⟨⟨record, hrecord, rfl, rfl⟩, rfl⟩
    obtain ⟨_, _, entry, -, rfl⟩ := mem_records_result_iff.mp hrecord
    exact ⟨_, hrecord, rfl, rfl, rfl, rfl⟩
  · obtain ⟨used, triggers⟩ := verdict
    rintro ⟨record, hrecord, rfl, rfl, rfl, rfl⟩
    refine ⟨⟨record, hrecord, rfl, rfl⟩, ?_⟩
    obtain ⟨_, _, entry, -, rfl⟩ := mem_records_result_iff.mp hrecord
    rfl

end Stage

/-! ## Runs -/

/-- An analysis accounts for the exports of its graph, given the settings of the run. -/
structure Analysis.Accounts (analysis : Analysis) (settings : Settings) : Prop where
  /-- There is a record of each export of the graph, and of nothing else. -/
  recorded : ∀ module name, analysis.graph.declares module name = true ↔
    ∃ record ∈ analysis.records, record.module = module ∧ record.name = name
  /-- Records ascend by module and then by name, so that no export has two. -/
  ascending : analysis.records.Pairwise fun record other =>
    less (record.module, record.name) (other.module, other.name) = true
  /-- The records are those of a liveness analysis, and its verdicts say the same. -/
  verdicts : ∃ liveness,
    analysis.graph.liveness analysis.entries settings.entryExportsUsed = .ok liveness ∧
      liveness.records = analysis.records ∧
      ∀ module name verdict, liveness.verdicts.find? (module, name) = some verdict ↔
        ∃ record ∈ analysis.records, record.module = module ∧ record.name = name ∧
          record.used = verdict.used ∧ record.triggers = verdict.triggers
  /-- Dead exports are reported in the order of the records. -/
  inOrder : analysis.dead.Sublist analysis.records
  /-- An export is reported if it is unused and neither its name nor its module matches a
  pattern. -/
  reported : ∀ record, record ∈ analysis.dead ↔
    record ∈ analysis.records ∧ record.used = false ∧
      ∀ pattern ∈ settings.ignore, ¬Pattern.Matches record.name.toList pattern.toList ∧
        ¬Pattern.Matches (record.module.relativeTo analysis.root).toList pattern.toList
  exportCount : analysis.statistics.exports = analysis.records.length
  usedCount : analysis.statistics.used = (analysis.records.filter (·.used)).length
  deadCount : analysis.statistics.dead = analysis.dead.length
  /-- What is left out is unused, and its name or its module matches a pattern. -/
  ignoredCount : analysis.statistics.ignored =
    (analysis.records.filter fun record =>
      !record.used && settings.ignoresRecord analysis.root record).length
  total : analysis.statistics.exports =
    analysis.statistics.used + analysis.statistics.dead + analysis.statistics.ignored

/-- The analysis with other dead exports reported.  Those that are not reported any more are counted
as left out. -/
def Analysis.withDead (analysis : Analysis) (dead : List ExportRecord) : Analysis :=
  { analysis with
    dead
    statistics :=
      { analysis.statistics with
        dead := dead.length
        ignored := analysis.statistics.ignored + (analysis.dead.length - dead.length) } }

/-- The analysis without the dead exports that settings leave out. -/
def Settings.leaveOut (settings : Settings) (analysis : Analysis) : Analysis :=
  analysis.withDead (analysis.dead.filter (!settings.ignoresRecord analysis.root ·))

theorem mapError_eq_ok_iff {ε ε' α : Type} {result : Except ε α} {wrap : ε → ε'} {a : α} :
    result.mapError wrap = .ok a ↔ result = .ok a := by
  cases result <;> simp [Except.mapError]

/-- Going through records keeps those that are not to be left out, and counts the others. -/
theorem sift_eq (leftOut : ExportRecord → Bool) (count : Nat) (records : List ExportRecord) :
    sift leftOut count records =
      (records.filter (!leftOut ·), count + (records.filter leftOut).length) := by
  induction records generalizing count with
  | nil => rfl
  | cons record rest ih =>
      cases hleft : leftOut record with
      | true => simp [sift, hleft, ih, Nat.add_assoc, Nat.add_comm 1]
      | false => simp [sift, hleft, ih]

/-- Every record is kept or counted. -/
theorem length_sift (leftOut : ExportRecord → Bool) (records : List ExportRecord) :
    (sift leftOut 0 records).1.length + (sift leftOut 0 records).2 = records.length := by
  rw [sift_eq, Nat.zero_add, Nat.add_comm]
  exact (List.length_eq_length_filter_add leftOut).symm

theorem Liveness.length_records (liveness : Liveness) :
    liveness.records.length = liveness.usedCount + liveness.dead.length := by
  rw [List.length_eq_length_filter_add (·.used), usedCount, List.countP_eq_length_filter, dead]

namespace Settings

variable {settings : Settings} {root : String} {files : List FilePath} {extraction : Extraction}
  {fs : FileSystem}

/-- What the result takes from the liveness analysis of a built graph, and what it counts. -/
theorem exists_liveness_of_conclude {analysis : Analysis}
    (h : settings.conclude root files extraction fs = .ok analysis) :
    ∃ liveness, analysis.graph.Valid ∧ analysis.graph.KeyedByName ∧
      analysis.graph.liveness analysis.entries settings.entryExportsUsed = .ok liveness ∧
      analysis.records = liveness.records ∧
      (analysis.dead, analysis.statistics.ignored) =
        sift (settings.ignoresRecord analysis.root) 0 liveness.dead ∧
      analysis.statistics.exports = liveness.records.length ∧
      analysis.statistics.used = liveness.usedCount ∧
      analysis.statistics.dead = analysis.dead.length := by
  obtain ⟨entries, -, h⟩ := exists_of_bind_eq_ok h
  obtain ⟨liveness, hliveness, h⟩ := exists_of_bind_eq_ok h
  rw [← Except.ok.inj h]
  exact ⟨liveness, Graph.valid_build _ _, Graph.keyedByName_build _ _,
    mapError_eq_ok_iff.mp hliveness, rfl, rfl, rfl, rfl, rfl⟩

theorem accounts_of_conclude {analysis : Analysis}
    (h : settings.conclude root files extraction fs = .ok analysis) :
    analysis.Accounts settings := by
  obtain ⟨liveness, hvalid, hkeyed, hliveness, hrecords, hsift, hexports, hused, hcount⟩ :=
    exists_liveness_of_conclude h
  have hresult := Graph.eq_result_of_liveness hliveness
  have htotal := liveness.length_records
  have hparts : analysis.dead.length + analysis.statistics.ignored = liveness.dead.length := by
    have hsifted := length_sift (settings.ignoresRecord analysis.root) liveness.dead
    rwa [← hsift] at hsifted
  rw [sift_eq, Nat.zero_add] at hsift
  obtain ⟨hdead, hignored⟩ := Prod.mk.inj hsift
  refine
    { recorded := fun module name => ?_
      ascending := ?_
      verdicts := ⟨liveness, hliveness, hrecords.symm, fun module name verdict => ?_⟩
      inOrder := ?_
      reported := fun record => ?_
      exportCount := by rw [hexports, hrecords]
      usedCount := by rw [hused, hrecords, Liveness.usedCount, List.countP_eq_length_filter]
      deadCount := hcount
      ignoredCount := ?_
      total := by omega }
  · rw [hrecords, hresult, ← hvalid.lists_iff hkeyed]
    exact Stage.lists_iff_exists_record _
  · rw [hrecords, hresult]
    exact Stage.sorted_records_result _ _ hvalid hkeyed
  · rw [hrecords, hresult]
    exact Stage.find?_verdicts_iff_exists_record _ _ module name verdict
  · rw [hdead, hrecords]
    exact List.filter_sublist.trans List.filter_sublist
  · rw [hdead, hrecords, List.mem_filter, Liveness.dead, List.mem_filter, Bool.not_eq_true',
      Bool.not_eq_true', ignoresRecord_eq_false_iff, and_assoc]
  · rw [hignored, hrecords, Liveness.dead, List.filter_filter]
    simp only [Bool.and_comm]

/-! ## More patterns -/

variable {more : List String} (hmore : settings.ignore ⊆ more)

include hmore

/-- Records that are left out because of some patterns are left out because of more. -/
theorem filter_ignoresRecord (root : String) (records : List ExportRecord) :
    (records.filter (!settings.ignoresRecord root ·)).filter
        (!ignoresRecord { settings with ignore := more } root ·) =
      records.filter (!ignoresRecord { settings with ignore := more } root ·) := by
  rw [List.filter_filter]
  refine List.filter_congr fun record _ => ?_
  cases hignored : ignoresRecord { settings with ignore := more } root record with
  | true => rfl
  | false => rw [ignoresRecord_of_subset hmore hignored]; rfl

/-- Patterns are looked at last: with more of them the result differs in the dead exports that are
reported, and in their counts. -/
theorem conclude_ignore :
    conclude { settings with ignore := more } root files extraction fs =
      (settings.conclude root files extraction fs).map
        (leaveOut { settings with ignore := more }) := by
  have hextensions : sourceExtensions { settings with ignore := more } =
      settings.sourceExtensions := rfl
  have hentries : ∀ resolver, entryModules { settings with ignore := more } resolver root fs =
      settings.entryModules resolver root fs := fun _ => rfl
  unfold conclude
  dsimp only
  rw [hextensions, hentries]
  generalize Graph.build _ (submissions extraction) = construction
  cases settings.entryModules _ root fs with
  | error failure => rfl
  | ok entries =>
      dsimp only [bind, Except.bind]
      cases (construction.graph.liveness entries settings.entryExportsUsed).mapError _ with
      | error failure => rfl
      | ok liveness =>
          have hfilter := filter_ignoresRecord hmore root liveness.dead
          have hfewer :=
            List.length_filter_le (!ignoresRecord { settings with ignore := more } root ·)
            (liveness.dead.filter (!settings.ignoresRecord root ·))
          have hparts := length_sift (settings.ignoresRecord root) liveness.dead
          have hparts' :=
            length_sift (ignoresRecord { settings with ignore := more } root) liveness.dead
          dsimp only [Except.map, pure, Except.pure, leaveOut, Analysis.withDead]
          simp only [sift_eq, Nat.zero_add] at hparts hparts' ⊢
          rw [hfilter] at hfewer ⊢
          congr 3
          omega

theorem analyze_ignore (root : String) (moment : Moment) (fs : FileSystem) :
    analyze { settings with ignore := more } root moment fs =
      ((settings.analyze root moment fs).1.map (leaveOut { settings with ignore := more }),
        (settings.analyze root moment fs).2) := by
  cases hcanonical : fs.canonical root with
  | error error =>
      rw [settings.analyze_of_error hcanonical,
        analyze_of_error { settings with ignore := more } hcanonical]
      rfl
  | ok full =>
      rw [settings.analyze_of_canonical hcanonical,
        analyze_of_canonical { settings with ignore := more } hcanonical]
      cases hfiles : settings.scan.files fs (fs.fullName root) with
      | error failure =>
          rw [settings.analyzeAt_of_error hfiles,
            analyzeAt_of_error { settings with ignore := more } hfiles]
          rfl
      | ok files =>
          have hextensions : sourceExtensions { settings with ignore := more } =
              settings.sourceExtensions := rfl
          have hrefusal : ∀ extraction, refusal? { settings with ignore := more } extraction =
              settings.refusal? extraction := fun _ => rfl
          unfold scan at hfiles
          unfold analyzeAt
          dsimp only
          rw [hextensions, hfiles]
          dsimp only
          rw [hrefusal]
          generalize Extraction.ofFiles _ _ settings.ignoreCase files = extraction
          cases settings.refusal? extraction with
          | some failure => rfl
          | none => exact congrArg (·, _) (conclude_ignore hmore)

end Settings

/-- An analysis that succeeds accounts for every export of its graph.  With more patterns, an
analysis succeeds or fails as it did, and gives the same but that it may leave out more dead
exports; whether the cache is used makes no difference to that. -/
theorem Settings.analyze_accounts (settings : Settings) (root : String) (moment : Moment)
    (fs : FileSystem) :
    (∀ analysis, (settings.analyze root moment fs).1 = .ok analysis → analysis.Accounts settings) ∧
    ∀ more, settings.ignore ⊆ more →
      (analyze { settings with ignore := more } root moment fs).2 =
        (settings.analyze root moment fs).2 ∧
      (∀ failure, (settings.analyze root moment fs).1 = .error failure →
        (analyze { settings with ignore := more } root moment fs).1 = .error failure) ∧
      ∀ analysis, (settings.analyze root moment fs).1 = .ok analysis →
        ∃ dead, dead.Sublist analysis.dead ∧
          (analyze { settings with ignore := more } root moment fs).1 =
            .ok (analysis.withDead dead) := by
  refine ⟨fun analysis h => ?_, fun more hmore => ?_⟩
  · obtain ⟨_, _, _, hconclude⟩ := settings.exists_conclude_of_analyze h
    exact accounts_of_conclude hconclude
  · rw [analyze_ignore hmore]
    refine ⟨rfl, fun failure h => ?_, fun analysis h => ?_⟩
    · rw [h]
      rfl
    · rw [h]
      exact ⟨_, List.filter_sublist, rfl⟩

/-- A project with one used export and three dead ones. -/
def remnants : FileSystem where
  tree := .folder [("p", .folder
    [("index.js", .file (Text.encode "import \x7b a \x7d from './lib';")),
      ("lib.js", .file (Text.encode "export \x7b a, b, oldC, dTest \x7d;"))])]

/-- The names of the dead exports that a result reports, and how many it leaves out. -/
def deadNames? (result : Except Failure Analysis) : Option (List String × Nat) :=
  result.toOption.map fun analysis =>
    (analysis.dead.map (·.name), analysis.statistics.ignored)

theorem Settings.analyze_accounts_remnants :
    ∃ analysis,
      (analyze { useCache := false, ignore := ["", "*Test"] } "/p" {} remnants).1 = .ok analysis ∧
      (analysis.dead.map (·.name), analysis.statistics.ignored) = (["b", "oldC"], 1) ∧
      analysis.Accounts { useCache := false, ignore := ["", "*Test"] } ∧
      ∃ dead, dead.Sublist analysis.dead ∧
        (analyze { useCache := false, ignore := ["old*", "", "*Test"] } "/p" {} remnants).1 =
          .ok (analysis.withDead dead) := by
  have hdead : deadNames? (analyze { useCache := false, ignore := ["", "*Test"] } "/p" {}
      remnants).1 = some (["b", "oldC"], 1) := by
    decide +kernel
  obtain ⟨analysis, hanalysis, hnames⟩ := Option.map_eq_some_iff.mp hdead
  have hanalyze := eq_ok_of_toOption hanalysis
  have haccounts := analyze_accounts { useCache := false, ignore := ["", "*Test"] } "/p" {} remnants
  exact ⟨analysis, hanalyze, hnames, haccounts.1 analysis hanalyze,
    (haccounts.2 ["old*", "", "*Test"] (List.subset_cons_self _ _)).2.2 analysis hanalyze⟩

-- One more is left out.
example :
    deadNames? (Settings.analyze { useCache := false, ignore := ["old*", "", "*Test"] } "/p" {}
      remnants).1 = some (["b"], 2) := by
  decide +kernel

end LiveExports
