import ImportAudit.Proofs.Analysis.Accounts

/-!
# What other files change in a report

A report lists its files one by one, but its columns are those of the deepest file. So
another order of the files only reorders the report, and more files can only add absent
cells to the rows that are there.
-/

namespace ImportAudit

variable {fs : FileSystem} {options : RunOptions} {duration : Path → Nat} {paths ps qs : List Path}
  {root path : Path} {limit : Option Nat} {timeout : String} {os more : List Outcome}

/-! ## Entries of a report -/

abbrev ReportEntry := Path × Except ErrorRecord Row

namespace ReportEntry

def row? (e : ReportEntry) : Option Row :=
  e.2.toOption

def record? (e : ReportEntry) : Option ErrorRecord :=
  match e.2 with
  | .error r => some r
  | .ok _ => none

end ReportEntry

/-- Whether a report is made of one entry for each of some files, rows and
records in the order of the files. -/
structure Report.Lists (report : Report) (files : List Path)
    (entries : List ReportEntry) : Prop where
  files : entries.map (·.1) = files
  rows : report.rows = entries.filterMap ReportEntry.row?
  errors : report.errors = entries.filterMap ReportEntry.record?

def Outcome.entry (columns : List String) (o : Outcome) : ReportEntry :=
  (o.path, o.result.map fun findings => findings.row.fit columns)

theorem Outcome.row?_entry (columns : List String) (o : Outcome) :
    (o.entry columns).row? = o.findings?.map fun findings => findings.row.fit columns := by
  obtain ⟨path, result⟩ := o
  cases result <;> rfl

theorem Outcome.record?_entry (columns : List String) (o : Outcome) :
    (o.entry columns).record? = o.record? := by
  obtain ⟨path, result⟩ := o
  cases result <;> rfl

theorem reportOf_rows (root : Path) (os : List Outcome) :
    (reportOf root os).rows = (analysedFiles os).map fun file =>
      file.2.row.fit (reportOf root os).columns := by
  obtain ⟨hcolumns, hrows⟩ := @reportOf_table root os _ rfl
  rw [hrows, hcolumns]

theorem AreOutcomes.lists (h : AreOutcomes fs root timeout paths os) :
    (reportOf root os).Lists paths (os.map (Outcome.entry (reportOf root os).columns)) := by
  refine ⟨?_, ?_, ?_⟩
  · rw [List.map_map, ← h.paths_eq]
    rfl
  · rw [reportOf_rows, analysedFiles, List.map_filterMap, List.filterMap_map]
    refine congrArg (os.filterMap ·) (funext fun o => ?_)
    rw [Option.map_map, Function.comp_apply, Outcome.row?_entry]
    rfl
  · have herrors : (reportOf root os).errors = os.filterMap Outcome.record? := rfl
    rw [herrors, List.filterMap_map]
    exact congrArg (os.filterMap ·) (funext fun o => (Outcome.record?_entry _ o).symm)

/-! ## The columns of a report -/

def analysedDepths (root : Path) (os : List Outcome) : List Nat :=
  (analysedFiles os).map fun file => root.depthBelow file.1

theorem AreOutcomes.columns_eq (h : AreOutcomes fs root timeout paths os) :
    (reportOf root os).columns =
      ((analysedDepths root os).max?.map Table.reportColumns).getD [] := by
  by_cases hne : analysedFiles os = []
  · have hcolumns := (@reportOf_table root os _ rfl).1
    rw [hcolumns, analysedDepths, hne]
    rfl
  · obtain ⟨deepest, hdeepest, hcolumns⟩ :=
      Table.columns_widest (fun file hfile => h.isFileRow hfile) hne
    rw [(reportOf_table hcolumns).1, analysedDepths, hdeepest]
    rfl

theorem max?_eq_of_mem_iff {xs ys : List Nat} (h : ∀ n, n ∈ xs ↔ n ∈ ys) : xs.max? = ys.max? := by
  cases hmax : ys.max? with
  | none =>
      have hys : ys = [] := List.max?_eq_none_iff.mp hmax
      rw [List.max?_eq_none_iff, List.eq_nil_iff_forall_not_mem]
      intro n hn
      have hmem := (h n).mp hn
      rw [hys] at hmem
      exact List.not_mem_nil hmem
  | some d =>
      obtain ⟨hmem, hle⟩ := List.max?_eq_some_iff.mp hmax
      exact List.max?_eq_some_iff.mpr ⟨(h d).mpr hmem, fun n hn => hle n ((h n).mp hn)⟩

/-! ## Another order -/

theorem reportOf_stats_perm (h : os.Perm more) :
    (reportOf root os).stats = (reportOf root more).stats := by
  have hfindings := h.filterMap Outcome.findings?
  have hcount : ∀ count : Verdict → Nat,
      (os.filterMap Outcome.findings?).foldl (fun n f => n + count f.verdict) 0 =
        (more.filterMap Outcome.findings?).foldl (fun n f => n + count f.verdict) 0 := by
    intro count
    rw [← List.foldl_map, ← List.sum_eq_foldl, ← List.foldl_map, ← List.sum_eq_foldl,
      (hfindings.map _).sum_eq]
  have hrows : ∀ os : List Outcome,
      (reportOf root os).rows.length = (os.filterMap Outcome.findings?).length := by
    intro os
    show (((os.filterMap Outcome.findings?).map (·.row)).map _).length = _
    rw [List.length_map, List.length_map]
  have hanalyzed : (reportOf root os).rows.length = (reportOf root more).rows.length := by
    rw [hrows, hrows, hfindings.length_eq]
  show Stats.mk os.length (reportOf root os).rows.length
      (os.filterMap Outcome.record?).length _ _ _ =
    Stats.mk more.length (reportOf root more).rows.length
      (more.filterMap Outcome.record?).length _ _ _
  rw [h.length_eq, hanalyzed, (h.filterMap Outcome.record?).length_eq, hcount (·.used.length),
    hcount (·.unused.length)]

/-- Whether two reports on the same files in a different order differ in the
order of what they list only. -/
structure Report.Reorders (ps qs : List Path) (report other : Report) : Prop where
  columns : report.columns = other.columns
  stats : report.stats = other.stats
  entries : ∃ entries others, report.Lists ps entries ∧ other.Lists qs others ∧ entries.Perm others

theorem AreOutcomes.reorders (h : AreOutcomes fs root timeout ps os)
    (h' : AreOutcomes fs root timeout qs more) (hperm : os.Perm more) :
    (reportOf root os).Reorders ps qs (reportOf root more) := by
  have hdepths : (analysedDepths root os).max? = (analysedDepths root more).max? :=
    max?_eq_of_mem_iff fun n => ((hperm.filterMap _).map _).mem_iff
  have hcolumns : (reportOf root os).columns = (reportOf root more).columns := by
    rw [h.columns_eq, h'.columns_eq, hdepths]
  refine ⟨hcolumns, reportOf_stats_perm hperm, _, _, h.lists, h'.lists, ?_⟩
  rw [hcolumns]
  exact hperm.map _

/-! ## More files -/

/-- Whether a row is another one with absent cells in some further columns
before the import columns. -/
def Row.WidenedBy (extra : List String) (r wide : Row) : Prop :=
  ∃ depths imports : Row, r = depths ++ imports ∧ imports.columns = Table.importColumns ∧
    wide = depths ++ extra.map (fun name => (name, Value.null)) ++ imports

theorem Row.WidenedBy.filter_eq {extra : List String} {r wide : Row} (h : r.WidenedBy extra wide) :
    wide.filter (fun cell => !cell.2.isNull) = r.filter (fun cell => !cell.2.isNull) := by
  obtain ⟨depths, imports, rfl, -, rfl⟩ := h
  have habsent :
      (extra.map fun name => (name, Value.null)).filter (fun cell => !cell.2.isNull) = [] := by
    rw [List.filter_eq_nil_iff]
    intro cell hcell
    obtain ⟨name, -, rfl⟩ := List.mem_map.mp hcell
    simp [Value.isNull]
  rw [List.filter_append, List.filter_append, List.filter_append, habsent, List.append_nil]

theorem Row.IsFileRow.widenedBy {depth d : Nat} {r : Row} (h : r.IsFileRow depth)
    (hle : depth ≤ d) (k : Nat) :
    (r.fit (Table.reportColumns d)).WidenedBy (depthColumnsFrom (1 + d) k)
      (r.fit (Table.reportColumns (d + k))) := by
  have habsent : ∀ name ∈ depthColumnsFrom (1 + d) k, name ∉ r.columns := by
    intro name hname hmem
    obtain ⟨n, -, rfl⟩ := List.mem_map.mp hname
    have hdeep := mem_depthColumnsFrom.mp hname
    rw [h.columns] at hmem
    have hshallow := Table.depthColumn_mem_reportColumns.mp hmem
    omega
  refine ⟨r.fit (depthColumnsFrom 1 d), r.fit Table.importColumns, ?_, Row.columns_fit _ _, ?_⟩
  · rw [← Row.fit_append]
    rfl
  · rw [← Row.fit_of_absent habsent, ← Row.fit_append, ← Row.fit_append, ← depthColumnsFrom_append]
    rfl

/-- Whether a report is extended by another. Every row is there in its place, and only has absent
cells in the further depth columns, which there are if something lies deeper than the table was. -/
structure Report.ExtendedBy (deeper : Nat → Prop) (report wide : Report) : Prop where
  errors : ∃ further, wide.errors = report.errors ++ further
  rows : ∃ before further, wide.rows = before ++ further ∧ before.length = report.rows.length ∧
    (report.rows ≠ [] → ∃ d k, report.columns = Table.reportColumns d ∧
      wide.columns = Table.reportColumns (d + k) ∧
      (0 < k ↔ deeper d) ∧
      List.Forall₂ (fun r wide => r.WidenedBy (depthColumnsFrom (1 + d) k) wide ∧
        wide.filter (fun cell => !cell.2.isNull) = r.filter
          (fun cell => !cell.2.isNull)) report.rows before)

theorem Report.ExtendedBy.congr {deeper deeper' : Nat → Prop} {report wide : Report}
    (h : report.ExtendedBy deeper wide) (hiff : ∀ d, deeper d ↔ deeper' d) :
    report.ExtendedBy deeper' wide := by
  have heq : deeper = deeper' := funext fun d => propext (hiff d)
  exact heq ▸ h

theorem analysedFiles_append (os more : List Outcome) :
    analysedFiles (os ++ more) = analysedFiles os ++ analysedFiles more :=
  List.filterMap_append

theorem AreOutcomes.append (h : AreOutcomes fs root timeout ps os)
    (h' : AreOutcomes fs root timeout qs more) :
    AreOutcomes fs root timeout (ps ++ qs) (os ++ more) :=
  List.rel_append h h'

theorem exists_analysedDepths {d : Nat} :
    (∃ n ∈ analysedDepths root more, d < n) ↔ ∃ o ∈ more, o.findings?.isSome ∧
      d < root.depthBelow o.path := by
  constructor
  · rintro ⟨n, hn, hdeep⟩
    obtain ⟨file, hfile, rfl⟩ := List.mem_map.mp hn
    obtain ⟨o, ho, hsome⟩ := List.mem_filterMap.mp hfile
    obtain ⟨findings, hfindings, rfl⟩ := Option.map_eq_some_iff.mp hsome
    exact ⟨o, ho, by rw [hfindings]; rfl, hdeep⟩
  · rintro ⟨o, ho, hsome, hdeep⟩
    obtain ⟨findings, hfindings⟩ := Option.isSome_iff_exists.mp hsome
    refine ⟨_,
      List.mem_map.mpr ⟨(o.path, findings), List.mem_filterMap.mpr ⟨o, ho, ?_⟩, rfl⟩, hdeep⟩
    rw [hfindings]
    rfl

theorem exists_max?_append {xs : List Nat} {d : Nat} (hd : xs.max? = some d) (ys : List Nat) :
    ∃ k, (xs ++ ys).max? = some (d + k) ∧ (0 < k ↔ ∃ n ∈ ys, d < n) := by
  obtain ⟨hmem, hle⟩ := List.max?_eq_some_iff.mp hd
  cases hwide : (xs ++ ys).max? with
  | none =>
      have hnil := List.append_eq_nil_iff.mp (List.max?_eq_none_iff.mp hwide)
      rw [hnil.1] at hmem
      exact absurd hmem List.not_mem_nil
  | some wide =>
      obtain ⟨hwidemem, hwidele⟩ := List.max?_eq_some_iff.mp hwide
      have hdwide : d ≤ wide := hwidele d (List.mem_append_left ys hmem)
      refine ⟨wide - d, by rw [Nat.add_sub_cancel' hdwide], fun hpos => ?_, ?_⟩
      · rcases List.mem_append.mp hwidemem with hold | hnew
        · have := hle wide hold
          omega
        · exact ⟨wide, hnew, by omega⟩
      · rintro ⟨n, hn, hdeep⟩
        have := hwidele n (List.mem_append_right xs hn)
        omega

theorem AreOutcomes.extendedBy (h : AreOutcomes fs root timeout ps os)
    (h' : AreOutcomes fs root timeout qs more) :
    (reportOf root os).ExtendedBy
      (fun d => ∃ o ∈ more, o.findings?.isSome ∧ d < root.depthBelow o.path)
      (reportOf root (os ++ more)) := by
  have hwideRows := reportOf_rows root (os ++ more)
  rw [analysedFiles_append, List.map_append] at hwideRows
  refine ⟨⟨_, List.filterMap_append⟩, _, _, hwideRows, ?_, fun hne => ?_⟩
  · rw [reportOf_rows, List.length_map, List.length_map]
  cases hd : (analysedDepths root os).max? with
  | none =>
      have hnil : analysedFiles os = [] := by
        simpa [analysedDepths] using List.max?_eq_none_iff.mp hd
      rw [reportOf_rows, hnil] at hne
      exact absurd rfl hne
  | some d =>
      obtain ⟨k, hwide, hdeeper⟩ := exists_max?_append hd (analysedDepths root more)
      have hcolumns : (reportOf root os).columns = Table.reportColumns d := by
        rw [h.columns_eq, hd]
        rfl
      have hwideColumns : (reportOf root (os ++ more)).columns = Table.reportColumns (d + k) := by
        rw [(h.append h').columns_eq, analysedDepths, analysedFiles_append, List.map_append]
        rw [analysedDepths, analysedDepths] at hwide
        rw [hwide]
        rfl
      refine ⟨d, k, hcolumns, hwideColumns, ?_, ?_⟩
      · rw [hdeeper]
        exact exists_analysedDepths
      · rw [reportOf_rows, hcolumns, hwideColumns, List.forall₂_map_left_iff,
          List.forall₂_map_right_iff, List.forall₂_same]
        intro file hfile
        have hdepth : root.depthBelow file.1 ≤ d :=
          (List.max?_eq_some_iff.mp hd).2 _ (List.mem_map.mpr ⟨file, hfile, rfl⟩)
        have hwidened := (h.isFileRow hfile).widenedBy hdepth k
        exact ⟨hwidened, hwidened.filter_eq⟩

/-! ## Files that are dropped -/

/-- Whether a file is dropped: it cannot be read, or not be parsed, or takes too long. -/
def IsLost (fs : FileSystem) (limit : Option Nat) (duration : Path → Nat) (path : Path) : Prop :=
  (∃ f, readSource fs .utf8 path = .error f) ∨
  (∃ source f, readSource fs .utf8 path = .ok source ∧ parseSource path.text source = .error f) ∨
  Pool.exceeds limit (fileTime fs duration path) = true

theorem findings?_of_outcomeAfter {o : Outcome}
    (ho : outcomeAfter fs limit timeout duration root path = .ok o) :
    o.path = path ∧ (o.findings? = none ↔ IsLost fs limit duration path) := by
  unfold outcomeAfter at ho
  split at ho
  next hlate =>
    cases ho
    exact ⟨rfl, iff_of_true rfl (.inr (.inr hlate))⟩
  next hintime =>
    refine ⟨analyzeFile_path ho, ?_⟩
    rcases analyzeFile_cases ho with ⟨f, hf, rfl⟩ | ⟨source, f, hsource, hf, rfl⟩ |
      ⟨source, tree, depths, hsource, htree, -, rfl⟩
    · exact iff_of_true rfl (.inl ⟨f, hf⟩)
    · exact iff_of_true rfl (.inr (.inl ⟨source, f, hsource, hf⟩))
    · refine iff_of_false nofun ?_
      rintro (⟨f, hf⟩ | ⟨source', f, hsource', hf⟩ | hlate)
      · rw [hsource] at hf
        cases hf
      · rw [hsource] at hsource'
        cases hsource'
        rw [htree] at hf
        cases hf
      · exact hintime hlate

theorem reportOf_without {o : Outcome} (ho : o.findings? = none) :
    (reportOf root (os ++ o :: more)).columns = (reportOf root (os ++ more)).columns ∧
      (reportOf root (os ++ o :: more)).rows = (reportOf root (os ++ more)).rows := by
  have hsame : analysedFiles (os ++ o :: more) = analysedFiles (os ++ more) := by
    rw [analysedFiles_append, analysedFiles_append]
    simp [analysedFiles, ho]
  obtain ⟨hcolumns, hrows⟩ := @reportOf_table root (os ++ o :: more) _ rfl
  obtain ⟨hcolumns', hrows'⟩ := @reportOf_table root (os ++ more) _ rfl
  rw [hcolumns, hrows, hcolumns', hrows', hsame]
  exact ⟨rfl, rfl⟩

/-! ## Runs on different lists of files -/

theorem outcomes_eq_ok_iff (hlimit : options.limit = .ok limit) :
    outcomes fs options duration paths root = .ok os ↔
      paths.map (outcomeAfter fs limit options.timeout.text duration root) = os.map .ok := by
  by_cases hne : paths = []
  · subst hne
    have hnone : outcomes fs options duration [] root = .ok [] := rfl
    rw [hnone]
    cases os <;> simp
  · rw [outcomes_eq hne hlimit, mapM_eq_ok_iff]

theorem outcomes_perm (hlimit : options.limit = .ok limit) (hperm : ps.Perm qs)
    (hos : outcomes fs options duration ps root = .ok os)
    (hmore : outcomes fs options duration qs root = .ok more) :
    os.Perm more := by
  rw [outcomes_eq_ok_iff hlimit] at hos hmore
  have hoks := hperm.map (outcomeAfter fs limit options.timeout.text duration root)
  rw [hos, hmore] at hoks
  have hresults := hoks.filterMap Except.toOption
  simpa [List.filterMap_map, Function.comp_def, Except.toOption] using hresults

theorem outcomes_append (hlimit : options.limit = .ok limit)
    (hos : outcomes fs options duration ps root = .ok os)
    (hmore : outcomes fs options duration qs root = .ok more) :
    outcomes fs options duration (ps ++ qs) root = .ok (os ++ more) := by
  rw [outcomes_eq_ok_iff hlimit] at hos hmore ⊢
  rw [List.map_append, List.map_append, hos, hmore]

/-- Whether files have a place below the directory of the root, and no null
character in their names. -/
def HavePlaces (root : Path) (paths : List Path) : Prop :=
  ∀ path ∈ paths, (path.relativeTo? root.parent).isSome ∧ path.hasNull = false

theorem havePlaces_append : HavePlaces root (ps ++ qs) ↔ HavePlaces root ps ∧ HavePlaces root qs :=
  List.forall_mem_append

theorem HavePlaces.exists_outcomes (h : HavePlaces root paths)
    (hlimit : options.limit = .ok limit) :
    ∃ os, outcomes fs options duration paths root = .ok os :=
  ImportAudit.exists_outcomes hlimit (fun path hpath => (h path hpath).1) fun path hpath =>
    (h path hpath).2

theorem IsLost.exists_outcome (h : IsLost fs limit duration path)
    (hplace : (path.relativeTo? root.parent).isSome ∧ path.hasNull = false)
    (hlimit : options.limit = .ok limit) :
    ∃ o, outcomes fs options duration [path] root = .ok [o] ∧ o.findings? = none := by
  obtain ⟨os, hos⟩ := HavePlaces.exists_outcomes (List.forall_mem_singleton.mpr hplace) hlimit
  have hafter := (outcomes_eq_ok_iff hlimit).mp hos
  cases os with
  | nil => cases hafter
  | cons o os =>
      obtain ⟨ho, hnil⟩ := List.cons.inj hafter
      have hos' : os = [] := List.map_eq_nil_iff.mp hnil.symm
      rw [hos'] at hos
      exact ⟨o, hos, (findings?_of_outcomeAfter ho).2.mpr h⟩

/-- Whether some run of the workers on files comes to its end with these outcomes. -/
def RunEnds (fs : FileSystem) (options : RunOptions) (limit : Option Nat) (root : Path)
    (paths : List Path) (os : List Outcome) : Prop :=
  ∃ events, let jobs := fileJobs fs limit options.workerCount options.timeout.text paths root
    (Pool.run jobs events).conclusion? jobs = some (.ok os)

theorem RunEnds.areOutcomes (h : RunEnds fs options limit root paths os) :
    AreOutcomes fs root options.timeout.text paths os := by
  obtain ⟨events, hos⟩ := h
  dsimp only at hos
  have hcomplete :
      (Pool.run (fileJobs fs limit options.workerCount options.timeout.text paths root)
        events).phase =
      .complete := by
    unfold Pool.conclusion? at hos
    split at hos
    next hphase => exact hphase
    next => cases hos
    next => cases hos
  obtain ⟨ends, hends, hare⟩ := areOutcomes_of_complete (Pool.run_sound _ events) hcomplete
  rw [hends] at hos
  cases hos
  exact hare

theorem RunEnds.areOutcomes_right (h : RunEnds fs options limit root (ps ++ qs) (os ++ more))
    (hos : AreOutcomes fs root options.timeout.text ps os) :
    AreOutcomes fs root options.timeout.text qs more := by
  have hrest := List.forall₂_drop_append (ps ++ qs) os more h.areOutcomes
  rwa [← hos.length_eq, List.drop_left] at hrest

theorem exists_analysed_iff {d : Nat} (hlimit : options.limit = .ok limit)
    (hmore : outcomes fs options duration qs root = .ok more) :
    (∃ o ∈ more, o.findings?.isSome ∧ d < root.depthBelow o.path) ↔
      ∃ path ∈ qs, ¬IsLost fs limit duration path ∧ d < root.depthBelow path := by
  rw [outcomes_eq_ok_iff hlimit] at hmore
  constructor
  · rintro ⟨o, ho, hsome, hdeep⟩
    have hmem : Except.ok o ∈ more.map (Except.ok : Outcome → Except Failure Outcome) :=
      List.mem_map.mpr ⟨o, ho, rfl⟩
    rw [← hmore] at hmem
    obtain ⟨path, hpath, hafter⟩ := List.mem_map.mp hmem
    obtain ⟨rfl, hlost⟩ := findings?_of_outcomeAfter hafter
    refine ⟨o.path, hpath, fun h => ?_, hdeep⟩
    rw [hlost.mpr h] at hsome
    cases hsome
  · rintro ⟨path, hpath, hfound, hdeep⟩
    have hmem : outcomeAfter fs limit options.timeout.text duration root path ∈ qs.map _ :=
      List.mem_map_of_mem hpath
    rw [hmore] at hmem
    obtain ⟨o, ho, hafter⟩ := List.mem_map.mp hmem
    obtain ⟨rfl, hlost⟩ := findings?_of_outcomeAfter hafter.symm
    exact ⟨o, ho, Option.isSome_iff_ne_none.mpr fun hnone => hfound (hlost.mp hnone), hdeep⟩

/-- A report follows its files, as long as each has a place below the directory of the root and no
null character in its name. Files in another order have the same columns and counts, and rows and
records in that order. With more files every row is still there, and has absent cells in further
depth columns if one of the new files is analysed and lies deeper; it is as it was if none does. A
file that cannot be read, parsed or finished changes no row and no column, wherever it stands. The
same holds of the reports on any runs of the workers in which the files have the same outcomes. -/
theorem report_follows_its_files (options : RunOptions) (duration : Path → Nat)
    (root : Path) (w : World) (limit : Option Nat) (hlimit : options.limit = .ok limit) :
    (∀ ps qs, HavePlaces root ps → ps.Perm qs →
      ∃ report other logs logs',
        aggregate options duration ps root w = (.ok report, { w with logs }) ∧
        aggregate options duration qs root w = (.ok other, { w with logs := logs' }) ∧
          report.Reorders ps qs other) ∧
    (∀ ps qs, HavePlaces root (ps ++ qs) →
      ∃ report wide logs logs',
        aggregate options duration ps root w = (.ok report, { w with logs }) ∧
        aggregate options duration (ps ++ qs) root w = (.ok wide, { w with logs := logs' }) ∧
        report.ExtendedBy (fun d => ∃ path ∈ qs, ¬IsLost w.files limit duration path ∧
          d < root.depthBelow path) wide) ∧
    (∀ ps path qs, HavePlaces root (ps ++ path :: qs) → IsLost w.files limit duration path →
      ∃ report other logs logs', aggregate options duration (ps ++ qs) root w =
        (.ok report, { w with logs }) ∧
        aggregate options duration (ps ++ path :: qs) root w =
          (.ok other, { w with logs := logs' }) ∧
        other.columns = report.columns ∧ other.rows = report.rows) ∧
    ∀ ps qs os more, RunEnds w.files options limit root ps os →
      (RunEnds w.files options limit root qs more → os.Perm more →
        (reportOf root os).Reorders ps qs (reportOf root more)) ∧
      (RunEnds w.files options limit root (ps ++ qs) (os ++ more) →
        (reportOf root os).ExtendedBy
          (fun d => ∃ o ∈ more, o.findings?.isSome ∧ d < root.depthBelow o.path)
          (reportOf root (os ++ more))) ∧
      ∀ o, o.findings? = none →
        (reportOf root (os ++ o :: more)).columns = (reportOf root (os ++ more)).columns ∧
        (reportOf root (os ++ o :: more)).rows = (reportOf root (os ++ more)).rows := by
  refine ⟨fun ps qs hps hperm => ?_, fun ps qs hboth => ?_, fun ps path qs hall hlost => ?_,
    fun ps qs os more hos =>
      ⟨fun hmore hperm => ?_, fun hmore => ?_, fun o ho => reportOf_without ho⟩⟩
  · have hqs : HavePlaces root qs := fun path hpath => hps path (hperm.mem_iff.mpr hpath)
    obtain ⟨os, hos⟩ := hps.exists_outcomes hlimit
    obtain ⟨more, hmore⟩ := hqs.exists_outcomes hlimit
    obtain ⟨logs, hreport⟩ := aggregate_eq hos
    obtain ⟨logs', hother⟩ := aggregate_eq hmore
    exact ⟨_, _, logs, logs', hreport, hother,
      (areOutcomes_of_outcomes hos).reorders (areOutcomes_of_outcomes hmore)
      (outcomes_perm hlimit hperm hos hmore)⟩
  · obtain ⟨hps, hqs⟩ := havePlaces_append.mp hboth
    obtain ⟨os, hos⟩ := hps.exists_outcomes hlimit
    obtain ⟨more, hmore⟩ := hqs.exists_outcomes hlimit
    obtain ⟨logs, hreport⟩ := aggregate_eq hos
    obtain ⟨logs', hwide⟩ := aggregate_eq (outcomes_append hlimit hos hmore)
    have hextended := (areOutcomes_of_outcomes hos).extendedBy (areOutcomes_of_outcomes hmore)
    exact ⟨_, _, logs, logs', hreport, hwide, hextended.congr fun d =>
      exists_analysed_iff hlimit hmore⟩
  · obtain ⟨hps, hrest⟩ := havePlaces_append.mp hall
    obtain ⟨hpath, hqs⟩ := List.forall_mem_cons.mp hrest
    obtain ⟨os, hos⟩ := hps.exists_outcomes hlimit
    obtain ⟨more, hmore⟩ := HavePlaces.exists_outcomes hqs hlimit
    obtain ⟨o, ho, hnone⟩ := hlost.exists_outcome hpath hlimit
    obtain ⟨logs, hreport⟩ := aggregate_eq (outcomes_append hlimit hos hmore)
    obtain ⟨logs', hother⟩ :=
      aggregate_eq (outcomes_append hlimit hos (outcomes_append hlimit ho hmore))
    obtain ⟨hcolumns, hrows⟩ := reportOf_without hnone
    exact ⟨_, _, logs, logs', hreport, hother, hcolumns, hrows⟩
  · exact hos.areOutcomes.reorders hmore.areOutcomes hperm
  · exact hos.areOutcomes.extendedBy (hmore.areOutcomes_right hos.areOutcomes)

/-- Two files of different depth in both orders, and beside one that is not there. -/
theorem report_follows_two_files :
    let files : FileSystem :=
      { entries := [(["p"], .directory), (["p", "A.java"], .file (.bytes [])),
        (["p", "q"], .directory),
          (["p", "q", "B.java"], .file (.bytes []))] }
    let w : World := { files }
    let root : Path := { root := "/", parts := ["p"] }
    let shallow := root.child "A.java"
    let deep := (root.child "q").child "B.java"
    let missing := root.child "C.java"
    ({} : RunOptions).limit = .ok none ∧ IsLost files none (fun _ => 0) missing ∧
      (∃ report other logs logs', aggregate {} (fun _ => 0) [shallow, deep] root w =
        (.ok report, { w with logs }) ∧
        aggregate {} (fun _ => 0) [deep, shallow] root w = (.ok other, { w with logs := logs' }) ∧
        report.columns = other.columns ∧ report.stats = other.stats ∧ report.rows.Perm other.rows) ∧
      ∃ report other logs logs', aggregate {} (fun _ => 0) [shallow, deep] root w =
        (.ok report, { w with logs }) ∧
        aggregate {} (fun _ => 0) [shallow, missing, deep] root w =
          (.ok other, { w with logs := logs' }) ∧
        other.columns = report.columns ∧ other.rows = report.rows := by
  intro files w root shallow deep missing
  have hlimit : ({} : RunOptions).limit = .ok none := rfl
  have hlost : IsLost files none (fun _ => 0) missing := by
    refine .inl ⟨.file .notFound missing.text, ?_⟩
    dsimp only [files, missing, root]
    rfl
  have hplaces : HavePlaces root [shallow, missing, deep] := by
    unfold HavePlaces
    decide +kernel
  have htwo : HavePlaces root [shallow, deep] := fun path hpath => hplaces path (by
    rcases List.mem_cons.mp hpath with rfl | hpath
    · exact List.mem_cons_self
    · exact List.mem_cons_of_mem _ (List.mem_cons_of_mem _ hpath))
  obtain ⟨hreorder, -, hdropped, -⟩ := report_follows_its_files {} (fun _ => 0) root w none hlimit
  refine ⟨hlimit, hlost, ?_, hdropped [shallow] missing [deep] hplaces hlost⟩
  obtain ⟨report, other, logs, logs', hreport, hother, hsame⟩ :=
    hreorder [shallow, deep] [deep, shallow] htwo (List.Perm.swap deep shallow [])
  obtain ⟨entries, others, hentries, hothers, hperm⟩ := hsame.entries
  refine ⟨report, other, logs, logs', hreport, hother, hsame.columns, hsame.stats, ?_⟩
  rw [hentries.rows, hothers.rows]
  exact hperm.filterMap _

set_option maxRecDepth 10000 in
/-- With a further file that has a null character in its name, and so cannot be read, the
row that was there is lost. -/
theorem null_character_loses_rows :
    let files : FileSystem :=
      { entries := [(["p"], .directory), (["p", "A.java"], .file (.bytes []))] }
    let w : World := { files }
    let root : Path := { root := "/", parts := ["p"] }
    let path := root.child "A.java"
    let unreadable := root.child "a\x00.java"
    (∀ file ∈ [path, unreadable], (file.relativeTo? root.parent).isSome) ∧
      ({} : RunOptions).limit = .ok none ∧
      IsLost files none (fun _ => 0) unreadable ∧
      (∃ report logs, aggregate {} (fun _ => 0) [path] root w = (.ok report, { w with logs }) ∧
        report.rows.length = 1) ∧
      aggregate {} (fun _ => 0) [path, unreadable] root w =
        (.error (.file .nullCharacter unreadable.text), w) := by
  intro files w root path unreadable
  let cells : Row := [("used", .str ""), ("unused", .str ""), ("all", .str "")]
  let findings : Findings := ⟨[("depth 1", .str "p"), ("depth 2", .str "A.java")] ++ cells, {}, {}⟩
  have hfirst : analyzeFile files path root = .ok ⟨path, .ok findings⟩ := by
    dsimp only [files, root, path, findings, cells]
    rfl
  have hread :
      readSource files .utf8 unreadable = .error (.file .nullCharacter unreadable.text) := by
    rw [readSource, FileSystem.read_null (by decide +kernel)]
  have hsecond :
      analyzeFile files unreadable root = .error (.file .nullCharacter unreadable.text) := by
    rw [analyzeFile, hread]
    rfl
  have hos : outcomes files {} (fun _ => 0) [path] root = .ok [⟨path, .ok findings⟩] := by
    rw [outcomes_eq (List.cons_ne_nil _ _) rfl, List.mapM_cons, outcomeAfter, hfirst]
    rfl
  obtain ⟨logs, hreport⟩ := @aggregate_eq _ _ _ _ _ w hos
  refine ⟨by decide, rfl, .inl ⟨_, hread⟩, ⟨_, logs, hreport, rfl⟩, aggregate_error ?_⟩
  rw [outcomes_eq (List.cons_ne_nil _ _) rfl, List.mapM_cons, List.mapM_cons,
    outcomeAfter, outcomeAfter, hfirst, hsecond]
  rfl

end ImportAudit
