import ImportAudit.Proofs.Action
import ImportAudit.Proofs.Analysis.Columns
import ImportAudit.Proofs.Analysis.InTurn
import ImportAudit.Proofs.Analysis.Interleaving

/-!
# Reports on analysed files
-/

namespace ImportAudit

variable {fs : FileSystem} {options : RunOptions} {duration : Path → Nat} {paths : List Path}
  {root : Path} {limit workers : Option Nat} {timeout : String} {os : List Outcome}

/-! ## The outcomes of a run -/

theorem RunOptions.workerCount_ne_zero (options : RunOptions) : options.workerCount ≠ some 0 := by
  unfold workerCount
  split
  next n _ =>
    intro h
    have hzero : max 1 n.toNat = 0 := Option.some.inj h
    omega
  next m e _ =>
    intro h
    have hzero := Option.some.inj h
    dsimp only at hzero
    omega
  next => exact Option.some_ne_none 0 ∘ Eq.symm

theorem map_getD_range (paths : List Path) :
    (List.range paths.length).map (paths.getD · {}) = paths := by
  apply List.ext_getElem
  · simp
  · intro i hi hi'
    simp [List.getD_eq_getElem?_getD, hi']

def outcomeAfter (fs : FileSystem) (limit : Option Nat) (timeout : String) (duration : Path → Nat)
    (root path : Path) :
    Except Failure Outcome :=
  if Pool.exceeds limit (fileTime fs duration path) then .ok (lateOutcome timeout path)
  else analyzeFile fs path root

theorem outcomes_eq (hne : paths ≠ []) (hlimit : options.limit = .ok limit) :
    outcomes fs options duration paths root =
      paths.mapM (outcomeAfter fs limit options.timeout.text duration root) := by
  have hempty : paths.isEmpty = false := by simpa using hne
  have hresults : (List.range paths.length).mapM (fun i =>
      Pool.resultAfter (fileJobs fs limit options.workerCount options.timeout.text paths root) i
        (fileTime fs duration (paths.getD i {}))) =
      paths.mapM (outcomeAfter fs limit options.timeout.text duration root) := by
    conv_rhs => rw [← map_getD_range paths, List.mapM_map]
    rfl
  let jobs := fileJobs fs limit options.workerCount options.timeout.text paths root
  have hrun :
      (Pool.run jobs (Pool.inTurn jobs fun i => fileTime fs duration (paths.getD i {}))).conclusion?
        jobs =
      some (paths.mapM (outcomeAfter fs limit options.timeout.text duration root)) := by
    rw [← hresults]
    exact Pool.conclusion?_inTurn options.workerCount_ne_zero _
  unfold outcomes
  rw [hempty, hlimit]
  show ((Pool.run jobs (Pool.inTurn jobs _)).conclusion? jobs).getD (.ok []) = _
  rw [hrun]
  rfl

theorem exists_limit (hne : paths ≠ []) (hos : outcomes fs options duration paths root = .ok os) :
    ∃ limit, options.limit = .ok limit := by
  unfold outcomes at hos
  rw [show paths.isEmpty = false by simpa using hne] at hos
  obtain ⟨limit, hlimit, -⟩ := bind_eq_ok_iff.mp hos
  exact ⟨limit, hlimit⟩

/-- Whether outcomes are those of files one by one, some of which may have taken too long. -/
def AreOutcomes (fs : FileSystem) (root : Path) (timeout : String) (paths : List Path)
    (os : List Outcome) : Prop :=
  List.Forall₂
    (fun path o => analyzeFile fs path root = .ok o ∨ o = lateOutcome timeout path) paths os

theorem areOutcomes_of_outcomes (hos : outcomes fs options duration paths root = .ok os) :
    AreOutcomes fs root options.timeout.text paths os := by
  by_cases hne : paths = []
  · subst hne
    cases hos
    exact .nil
  · obtain ⟨limit, hlimit⟩ := exists_limit hne hos
    rw [outcomes_eq hne hlimit, mapM_eq_ok_iff, ← List.forall₂_eq_eq_eq, List.forall₂_map_left_iff,
      List.forall₂_map_right_iff] at hos
    refine hos.imp fun path o ho => ?_
    unfold outcomeAfter at ho
    split at ho
    · exact .inr (Except.ok.inj ho).symm
    · exact .inl ho

theorem areOutcomes_of_complete {p : Pool Failure Outcome}
    (hs : p.Sound (fileJobs fs limit workers timeout paths root))
    (hcomplete : p.phase = .complete) :
    ∃ os, p.conclusion? (fileJobs fs limit workers timeout paths root) = some (.ok os) ∧
      AreOutcomes fs root timeout paths os := by
  obtain ⟨os, hos, hlength, hget⟩ := fileJobs_conclusion hs hcomplete
  refine ⟨os, hos, List.forall₂_iff_get.mpr ⟨hlength.symm, fun i hi hi' => ?_⟩⟩
  have ho : p.outcome? i = some os[i] := by
    rw [← hget i hi, List.getElem?_eq_getElem hi']
  exact (fileJobs_outcome hs (List.getElem?_eq_getElem hi) ho).imp id And.right

namespace AreOutcomes

theorem paths_eq (h : AreOutcomes fs root timeout paths os) : os.map (·.path) = paths := by
  rw [← List.forall₂_eq_eq_eq, List.forall₂_map_left_iff]
  refine h.flip.imp fun o path ho => ?_
  rcases ho with hown | rfl
  · exact analyzeFile_path hown
  · rfl

theorem mem {o : Outcome} (h : AreOutcomes fs root timeout paths os) (ho : o ∈ os) :
    analyzeFile fs o.path root = .ok o ∨ o = lateOutcome timeout o.path := by
  obtain ⟨i, hi, rfl⟩ := List.mem_iff_getElem.mp ho
  have hi' : i < paths.length := h.length_eq ▸ hi
  rcases (List.forall₂_iff_get.mp h).2 i hi' hi with hown | hlate
  · left
    rw [List.get_eq_getElem, List.get_eq_getElem] at hown
    rwa [analyzeFile_path hown]
  · right
    rw [List.get_eq_getElem, List.get_eq_getElem] at hlate
    rw [hlate]
    rfl

end AreOutcomes

/-! ## The report -/

def analysedFiles (os : List Outcome) : List (Path × Findings) :=
  os.filterMap fun o => o.findings?.map (o.path, ·)

theorem analysedFiles_findings (os : List Outcome) :
    (analysedFiles os).map (·.2) = os.filterMap Outcome.findings? := by
  simp [analysedFiles, List.map_filterMap, Option.map_map, Function.comp_def]

namespace AreOutcomes

theorem mem_analysed {file : Path × Findings} (h : AreOutcomes fs root timeout paths os)
    (hfile : file ∈ analysedFiles os) : analyzeFile fs file.1 root = .ok ⟨file.1, .ok file.2⟩ := by
  obtain ⟨o, ho, hfindings⟩ := List.mem_filterMap.mp hfile
  obtain ⟨findings, hsome, rfl⟩ := Option.map_eq_some_iff.mp hfindings
  have hresult : o.result = .ok findings := by
    unfold Outcome.findings? at hsome
    split at hsome
    next => cases hsome
    next f hf => rw [hf, Option.some.inj hsome]
  rcases h.mem ho with hown | hlate
  · rw [hown, ← hresult]
  · rw [hlate] at hresult
    cases hresult

theorem isFileRow {file : Path × Findings} (h : AreOutcomes fs root timeout paths os)
    (hfile : file ∈ analysedFiles os) : file.2.row.IsFileRow (root.depthBelow file.1) := by
  obtain ⟨depths, hdepths, hrow⟩ := analyzeFile_row (h.mem_analysed hfile) rfl
  rw [hrow]
  exact isFileRow_fileRow hdepths _

end AreOutcomes

theorem mem_analysedFiles {file : Path × Findings}
    (hos : outcomes fs options duration paths root = .ok os) (hfile : file ∈ analysedFiles os) :
    analyzeFile fs file.1 root = .ok ⟨file.1, .ok file.2⟩ :=
  (areOutcomes_of_outcomes hos).mem_analysed hfile

theorem isFileRow_of_mem_analysedFiles {file : Path × Findings}
    (hos : outcomes fs options duration paths root = .ok os) (hfile : file ∈ analysedFiles os) :
    file.2.row.IsFileRow (root.depthBelow file.1) :=
  (areOutcomes_of_outcomes hos).isFileRow hfile

/-- The table of a report has the columns of the widest row, and the rows fitted to them. -/
theorem reportOf_table {columns : List String}
    (hcolumns : (Table.widest ((analysedFiles os).map fun file => file.2.row)).columns = columns) :
    (reportOf root os).columns = columns ∧
      (reportOf root os).rows = (analysedFiles os).map fun file => file.2.row.fit columns := by
  have hrows : (os.filterMap Outcome.findings?).map (·.row) = (analysedFiles os).map fun file =>
      file.2.row := by
    rw [← analysedFiles_findings, List.map_map]
    rfl
  have htable : Table.align ((os.filterMap Outcome.findings?).map (·.row)) =
      (columns, (analysedFiles os).map fun file => file.2.row.fit columns) := by
    rw [hrows, Table.align, hcolumns, List.map_map]
    rfl
  exact ⟨congrArg Prod.fst htable, congrArg Prod.snd htable⟩

/-- The rows of a report are those of the analysed files, up to cells that are absent. -/
theorem AreOutcomes.rows (h : AreOutcomes fs root timeout paths os) :
    List.Forall₂ (fun file row => row.filter (fun cell => !cell.2.isNull) = file.2.row ∧
      ∀ column value, file.2.row.cell? column = some value →
        row.cell? column = some value) (analysedFiles os)
      (reportOf root os).rows := by
  by_cases hne : analysedFiles os = []
  · rw [(reportOf_table rfl).2, hne]
    exact .nil
  · obtain ⟨deepest, hdeepest, hcolumns⟩ :=
      Table.columns_widest (fun file hfile => h.isFileRow hfile) hne
    rw [(reportOf_table hcolumns).2, List.forall₂_map_right_iff, List.forall₂_same]
    intro file hfile
    have hle : root.depthBelow file.1 ≤ deepest :=
      (List.max?_eq_some_iff.mp hdeepest).2 _ (List.mem_map.mpr ⟨file, hfile, rfl⟩)
    exact ⟨(h.isFileRow hfile).filter_fit hle, fun column value =>
      (h.isFileRow hfile).cell?_fit_of_some hle⟩

theorem AreOutcomes.columns_of_mem (h : AreOutcomes fs root timeout paths os) {row : Row}
    (hrow : row ∈ (reportOf root os).rows) : row.columns = (reportOf root os).columns ∧
      row.columns.Nodup := by
  have hfiles : analysedFiles os ≠ [] := by
    intro hnone
    rw [(reportOf_table rfl).2, hnone] at hrow
    cases hrow
  obtain ⟨deepest, -, hcolumns⟩ := Table.columns_widest (fun file hfile => h.isFileRow hfile) hfiles
  obtain ⟨hreport, hrows⟩ : (reportOf root os).columns = _ ∧ (reportOf root os).rows = _ :=
    reportOf_table hcolumns
  rw [hrows] at hrow
  obtain ⟨file, -, rfl⟩ := List.mem_map.mp hrow
  rw [hreport, Row.columns_fit]
  exact ⟨rfl, Table.nodup_reportColumns deepest⟩

/-- A run without a failure is reported on; beyond that it only writes to the log. -/
theorem aggregate_eq {w : World} (hos : outcomes w.files options duration paths root = .ok os) :
    ∃ logs,
      aggregate options duration paths root w = (.ok (reportOf root os), { w with logs }) := by
  have hlogs : Action.Logs (do
      for o in os do
        for e in o.logEntries do
          Action.write e
      for r in (reportOf root os).errors do
        Action.write r.kept
      return reportOf root os) (reportOf root os) := by
    refine .bind (.forIn os fun o _ => .bind (.forIn o.logEntries fun e _ => ?_) (.pure _)) ?_
    · exact .bind (.write e) (.pure _)
    · exact .bind (.forIn _ fun r _ => .bind (.write r.kept) (.pure _)) (.pure _)
  obtain ⟨logs, hlogs⟩ := hlogs w
  refine ⟨logs, ?_⟩
  unfold aggregate
  rw [Action.bind_of_ok (Action.files_apply w), hos, Action.bind_of_ok (Action.ofExcept_ok os w)]
  exact hlogs

theorem aggregate_error {w : World} {e : Failure}
    (hos : outcomes w.files options duration paths root = .error e) :
    aggregate options duration paths root w = (.error e, w) := by
  unfold aggregate
  rw [Action.bind_of_ok (Action.files_apply w), hos,
    Action.bind_of_error (Action.ofExcept_error e w)]

theorem exists_outcomes_of_aggregate {w w' : World} {report : Report}
    (h : aggregate options duration paths root w = (.ok report, w')) :
    ∃ os, outcomes w.files options duration paths root = .ok os ∧ report = reportOf root os := by
  cases hos : outcomes w.files options duration paths root with
  | error e =>
      rw [aggregate_error hos] at h
      cases h
  | ok os =>
      obtain ⟨logs, hreport⟩ := aggregate_eq hos
      rw [hreport] at h
      cases h
      exact ⟨os, rfl, rfl⟩

/-- The table of a report has the depth columns of the deepest file and then the import columns.
Every row has exactly these columns; the depths beyond its own file are absent, nothing else is, and
without them it is the row that the analysis of the file gave. Aligning the rows once more changes
nothing, and the columns that a writer gathers from them are those of the table. -/
theorem report_table_of_analysed_files (options : RunOptions) (duration : Path → Nat)
    (paths : List Path) (root : Path) (w : World) (os : List Outcome)
    (hos : outcomes w.files options duration paths root = .ok os) (hne : analysedFiles os ≠ []) :
    ∃ report logs deepest, aggregate options duration paths root w = (.ok report, { w with logs }) ∧
      ((analysedFiles os).map fun file => root.depthBelow file.1).max? = some deepest ∧
      report.columns = (List.range' 1 deepest).map depthColumn ++ ["used", "unused", "all"] ∧
      List.Forall₂ (fun file row =>
        analyzeFile w.files file.1 root = .ok ⟨file.1, .ok file.2⟩ ∧
        row.columns = report.columns ∧
        (∀ column ∈ report.columns, row.cell? column = some .null ↔
          ∃ n, root.depthBelow file.1 < n ∧ column = depthColumn n) ∧
        (∀ column value, file.2.row.cell? column = some value → row.cell? column = some value) ∧
        row.filter (fun cell => !cell.2.isNull) = file.2.row) (analysedFiles os) report.rows ∧
      Table.align report.rows = (report.columns, report.rows) ∧
      Table.unionColumns report.rows = report.columns := by
  obtain ⟨logs, hreport⟩ := aggregate_eq hos
  have hrow : ∀ file ∈ analysedFiles os, file.2.row.IsFileRow (root.depthBelow file.1) :=
    fun file hfile => isFileRow_of_mem_analysedFiles hos hfile
  obtain ⟨deepest, hdeepest, hcolumns⟩ := Table.columns_widest hrow hne
  obtain ⟨hreportColumns, hreportRows⟩ := reportOf_table hcolumns
  have hle : ∀ file ∈ analysedFiles os, root.depthBelow file.1 ≤ deepest := fun file hfile =>
    (List.max?_eq_some_iff.mp hdeepest).2 _ (List.mem_map.mpr ⟨file, hfile, rfl⟩)
  have hsame : ∀ r ∈ (reportOf root os).rows, r.columns = Table.reportColumns deepest := by
    intro r hr
    rw [hreportRows] at hr
    obtain ⟨file, -, rfl⟩ := List.mem_map.mp hr
    exact Row.columns_fit _ _
  have hnonempty : (reportOf root os).rows ≠ [] := by
    rw [hreportRows]
    simpa using hne
  refine ⟨reportOf root os, logs, deepest, hreport, hdeepest, hreportColumns, ?_, ?_, ?_⟩
  · rw [hreportColumns, hreportRows, List.forall₂_map_right_iff, List.forall₂_same]
    intro file hfile
    refine ⟨mem_analysedFiles hos hfile, Row.columns_fit _ _, fun column hcolumn => ?_,
      fun column value hvalue => ?_, (hrow file hfile).filter_fit (hle file hfile)⟩
    · exact (hrow file hfile).cell?_fit_eq_null_iff hcolumn
    · exact (hrow file hfile).cell?_fit_of_some (hle file hfile) hvalue
  · rw [hreportColumns]
    exact Table.align_of_same_columns hnonempty (Table.nodup_reportColumns deepest) hsame
  · rw [hreportColumns]
    exact Table.unionColumns_of_same_columns hnonempty (Table.nodup_reportColumns deepest) hsame

set_option maxRecDepth 10000 in
/-- Two files of different depth: the columns are those of the deeper one, though it comes last. -/
theorem report_table_of_two_depths :
    let files : FileSystem :=
      { entries := [(["p"], .directory), (["p", "A.java"], .file (.bytes [])),
        (["p", "q"], .directory),
          (["p", "q", "B.java"], .file (.bytes []))] }
    let w : World := { files }
    let shallow : Path := { root := "/", parts := ["p", "A.java"] }
    let deep : Path := { root := "/", parts := ["p", "q", "B.java"] }
    ∃ report logs, aggregate {} (fun _ => 0) [shallow, deep] { root := "/", parts := ["p"] } w =
        (.ok report, { w with logs }) ∧
      report.columns = ["depth 1", "depth 2", "depth 3", "used", "unused", "all"] := by
  intro files w shallow deep
  let cells : Row := [("used", .str ""), ("unused", .str ""), ("all", .str "")]
  let ofShallow : Findings := ⟨[("depth 1", .str "p"), ("depth 2", .str "A.java")] ++ cells, {}, {}⟩
  let ofDeep : Findings :=
    ⟨[("depth 1", .str "p"), ("depth 2", .str "q"), ("depth 3", .str "B.java")] ++ cells, {}, {}⟩
  have hos : outcomes w.files {} (fun _ => 0) [shallow, deep] { root := "/", parts := ["p"] } =
      .ok [⟨shallow, .ok ofShallow⟩, ⟨deep, .ok ofDeep⟩] := by
    dsimp only [w, files, shallow, deep, ofShallow, ofDeep, cells]
    rfl
  obtain ⟨report, logs, deepest, hreport, hdeepest, hcolumns, -⟩ :=
    report_table_of_analysed_files {}
      (fun _ => 0) [shallow, deep] { root := "/", parts := ["p"] } w _ hos
      (List.cons_ne_nil _ _)
  have hthree : 3 = deepest := Option.some.inj hdeepest
  subst hthree
  exact ⟨report, logs, hreport, hcolumns⟩

end ImportAudit
