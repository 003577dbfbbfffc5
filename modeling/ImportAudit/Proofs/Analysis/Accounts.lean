import ImportAudit.Proofs.Analysis.Failures
import ImportAudit.Proofs.Import.Cells
import Mathlib.Algebra.BigOperators.Group.List.Basic
import Mathlib.Algebra.GroupWithZero.Nat

/-!
# Reports account for every file

A report shares out the files of a run between its rows and its records, in their order, and its
counts are those of what it lists.
-/

namespace ImportAudit

variable {fs : FileSystem} {options : RunOptions} {duration : Path → Nat} {paths : List Path}
  {root path : Path} {timeout : String} {os : List Outcome}

/-! ## Cells and their lines -/

def lineCount (s : String) : Nat :=
  if s = "" then 0 else (Text.splitAt '\n' s).length

/-- How many names there are in a cell that has one a line. -/
def Row.entryCount (r : Row) (column : String) : Nat :=
  match r.cell? column with
  | some (.str s) => lineCount s
  | _ => 0

theorem lineCount_cell {ds : List ImportDeclaration}
    (h : ∀ d ∈ ds, Verdict.IsUnbroken d.qualifiedName) :
    lineCount (Verdict.cell ds) = ds.length := by
  have hlines :
      lineCount (Verdict.cell ds) = (Verdict.entries (· == '\n') (Verdict.cell ds)).length := by
    unfold lineCount Verdict.entries
    split
    · rfl
    · rw [Text.splitAt]
  rw [hlines, Verdict.entries_cell Verdict.endsLines_lineFeed h, Verdict.names, List.length_map]

/-! ## Files that are dropped and files that are analysed -/

/-- Whether a record says why a file was dropped: it could not be read, or not
be parsed, or took too long. -/
def IsDropped (fs : FileSystem) (timeout : String) (path : Path) (r : ErrorRecord) : Prop :=
  r.path = path ∧
    ((∃ f, readSource fs .utf8 path = .error f ∧ r = .ofFailure .read path f) ∨
      (∃ source f, readSource fs .utf8 path = .ok source ∧ parseSource path.text source = .error f ∧
        r = .ofFailure .parse path f) ∨
      r = .ofFailure .parse path (.timeout ("analysis exceeded " ++ timeout ++ "s")))

def IsParsed (fs : FileSystem) (path : Path) (tree : Java.Tree) : Prop :=
  ∃ source, readSource fs .utf8 path = .ok source ∧ parseSource path.text source = .ok tree

/-- Files shared out, in their order, between records of dropped files and trees of parsed ones. -/
inductive SharedOut (fs : FileSystem) (timeout : String) :
    List Path → List ErrorRecord → List (Path × Java.Tree) → Prop
  | nil : SharedOut fs timeout [] [] []
  | dropped {path paths r records files} (hr : IsDropped fs timeout path r)
      (hrest : SharedOut fs timeout paths records files) :
      SharedOut fs timeout (path :: paths) (r :: records) files
  | parsed {path paths tree records files} (htree : IsParsed fs path tree)
      (hrest : SharedOut fs timeout paths records files) :
      SharedOut fs timeout (path :: paths) records ((path, tree) :: files)

theorem SharedOut.length_eq {records : List ErrorRecord} {files : List (Path × Java.Tree)}
    (h : SharedOut fs timeout paths records files) :
    files.length + records.length = paths.length := by
  induction h with
  | nil => rfl
  | dropped _ _ ih => simp only [List.length_cons]; omega
  | parsed _ _ ih => simp only [List.length_cons]; omega

theorem SharedOut.mem_paths {records : List ErrorRecord} {files : List (Path × Java.Tree)}
    (h : SharedOut fs timeout paths records files) {file : Path × Java.Tree}
    (hfile : file ∈ files) : file.1 ∈ paths := by
  induction h with
  | nil => cases hfile
  | dropped _ _ ih => exact List.mem_cons_of_mem _ (ih hfile)
  | parsed _ _ ih =>
      rcases List.mem_cons.mp hfile with rfl | hfile
      · exact List.mem_cons_self
      · exact List.mem_cons_of_mem _ (ih hfile)

theorem AreOutcomes.sharedOut (h : AreOutcomes fs root timeout paths os) :
    ∃ files : List (Path × Java.Tree),
      SharedOut fs timeout paths (os.filterMap Outcome.record?) files ∧
      List.Forall₂ (fun file analysed => IsParsed fs file.1 file.2 ∧
        ∃ depths, pathDepths file.1 root = .ok depths ∧
          analysed = (file.1, Findings.ofTree depths file.2))
        files (analysedFiles os) := by
  induction h with
  | nil => exact ⟨[], .nil, .nil⟩
  | @cons path o paths os ho _ ih =>
      obtain ⟨files, hshared, hfiles⟩ := ih
      rcases ho with hown | rfl
      · rcases analyzeFile_cases hown with ⟨f, hf, rfl⟩ | ⟨source, f, hsource, hf, rfl⟩ |
          ⟨source, tree, depths, hsource, htree, hdepths, rfl⟩
        · exact ⟨files, .dropped ⟨rfl, .inl ⟨f, hf, rfl⟩⟩ hshared, hfiles⟩
        · exact ⟨files, .dropped ⟨rfl, .inr (.inl ⟨source, f, hsource, hf, rfl⟩)⟩ hshared, hfiles⟩
        · exact ⟨(path, tree) :: files, .parsed ⟨source, hsource, htree⟩ hshared,
            .cons ⟨⟨source, hsource, htree⟩, depths, hdepths, rfl⟩ hfiles⟩
      · exact ⟨files, .dropped ⟨rfl, .inr (.inr rfl)⟩ hshared, hfiles⟩

/-! ## Counts -/

section Counting

variable {α β γ : Type} {R : α → β → Prop} {S : β → γ → Prop} {xs : List α} {ys : List β}
  {zs : List γ}

theorem map_of_forall₂ {a : α → γ} {b : β → γ} (h : List.Forall₂ R xs ys)
    (hR : ∀ x y, R x y → a x = b y) : xs.map a = ys.map b := by
  induction h with
  | nil => rfl
  | cons hxy _ ih => rw [List.map_cons, List.map_cons, hR _ _ hxy, ih]

theorem forall₂_comp (h : List.Forall₂ R xs ys) (h' : List.Forall₂ S ys zs) :
    List.Forall₂ (fun x z => ∃ y, R x y ∧ S y z) xs zs := by
  induction h generalizing zs with
  | nil =>
      cases h'
      exact .nil
  | cons hR _ ih =>
      cases h' with
      | cons hS hrest => exact .cons ⟨_, hR, hS⟩ (ih hrest)

theorem forall₂_mem (h : List.Forall₂ R xs ys) :
    List.Forall₂ (fun x y => x ∈ xs ∧ y ∈ ys ∧ R x y) xs ys := by
  induction h with
  | nil => exact .nil
  | cons hxy _ ih =>
      refine .cons ⟨List.mem_cons_self, List.mem_cons_self, hxy⟩ (ih.imp fun x y hrest => ?_)
      exact ⟨List.mem_cons_of_mem _ hrest.1, List.mem_cons_of_mem _ hrest.2.1, hrest.2.2⟩

end Counting

def Java.Tree.verdict (t : Java.Tree) : Verdict :=
  .classify t.imports (.ofReferences t.references)

theorem Verdict.length_classify (imports : List ImportDeclaration) (u : UsageIndex) :
    (classify imports u).used.length + (classify imports u).unused.length = imports.length :=
  (List.length_eq_length_filter_add _).symm

/-- Whether a report accounts for each of some files once. Every file is dropped and has a record,
or is analysed and has a row; records and rows come in the order of the files, and the counts are
those of what they list. -/
structure Report.Accounts (fs : FileSystem) (root : Path) (timeout : String) (paths : List Path)
    (report : Report) :
    Prop where
  scanned : report.stats.scanned = paths.length
  complete : report.stats.analyzed + report.stats.errors = paths.length
  analyzed : report.stats.analyzed = report.rows.length
  errors : report.stats.errors = report.errors.length
  used : report.stats.used = (report.rows.map (·.entryCount "used")).sum
  unused : report.stats.unused = (report.rows.map (·.entryCount "unused")).sum
  files : ∃ files : List (Path × Java.Tree), SharedOut fs timeout paths report.errors files ∧
    List.Forall₂ (fun file row => ∃ depths, pathDepths file.1 root = .ok depths ∧
      row.filter (fun cell => !cell.2.isNull) = fileRow depths file.2.verdict) files report.rows ∧
    report.stats.used + report.stats.unused = (files.map (·.2.imports.length)).sum

theorem entryCount_of_parsed {tree : Java.Tree} (htree : IsParsed fs path tree) {row : Row}
    {column : String} {ds : List ImportDeclaration} (hds : ∀ d ∈ ds, d ∈ tree.imports)
    (hcell : row.cell? column = some (.str (Verdict.cell ds))) :
    row.entryCount column = ds.length := by
  obtain ⟨source, -, hparse⟩ := htree
  have hsource : tree = Java.parse source := (parseSource_eq_ok_iff.mp hparse).1
  have hnames : ∀ d ∈ ds, Verdict.IsUnbroken d.qualifiedName := fun d hd =>
    Java.qualifiedName_of_parse (hsource ▸ hds d hd)
  simp only [Row.entryCount, hcell]
  exact lineCount_cell hnames

/-- What each row says of its file. -/
theorem AreOutcomes.file_rows (h : AreOutcomes fs root timeout paths os) :
    ∃ files : List (Path × Java.Tree), SharedOut fs timeout paths (reportOf root os).errors files ∧
      List.Forall₂ (fun file analysed => file.2.verdict = analysed.2.verdict) files
        (analysedFiles os) ∧
      List.Forall₂ (fun file row => (∃ depths, pathDepths file.1 root = .ok depths ∧
        row.filter (fun cell => !cell.2.isNull) = fileRow depths file.2.verdict) ∧
        row.entryCount "used" = file.2.verdict.used.length ∧
        row.entryCount "unused" = file.2.verdict.unused.length) files (reportOf root os).rows := by
  obtain ⟨files, hshared, hfiles⟩ := h.sharedOut
  refine ⟨files, hshared, ?_, ?_⟩
  · refine hfiles.imp ?_
    rintro file analysed ⟨-, depths, -, rfl⟩
    rfl
  · refine (forall₂_comp hfiles h.rows).imp ?_
    rintro file row ⟨analysed, ⟨htree, depths, hdepths, rfl⟩, hfilter, hcells⟩
    refine ⟨⟨depths, hdepths, hfilter⟩, ?_, ?_⟩
    · refine entryCount_of_parsed htree (fun d hd => List.mem_of_mem_filter hd) (hcells _ _ ?_)
      exact cell?_fileRow hdepths (List.mem_cons_self)
    · refine entryCount_of_parsed htree (fun d hd => List.mem_of_mem_filter hd) (hcells _ _ ?_)
      exact cell?_fileRow hdepths (List.mem_cons_of_mem _ List.mem_cons_self)

theorem AreOutcomes.accounts (h : AreOutcomes fs root timeout paths os) :
    (reportOf root os).Accounts fs root timeout paths := by
  obtain ⟨files, hshared, hverdicts, hrows⟩ := h.file_rows
  have htotal (count : Verdict → Nat) :
      (os.filterMap Outcome.findings?).foldl (fun n f => n + count f.verdict) 0 =
        (files.map fun file => count file.2.verdict).sum := by
    rw [← List.foldl_map, ← List.sum_eq_foldl, ← analysedFiles_findings, List.map_map,
      map_of_forall₂ hverdicts fun file analysed heq => congrArg count heq]
    rfl
  have hused : (reportOf root os).stats.used = (files.map (·.2.verdict.used.length)).sum :=
    htotal (·.used.length)
  have hunused : (reportOf root os).stats.unused = (files.map (·.2.verdict.unused.length)).sum :=
    htotal (·.unused.length)
  refine
    { scanned := h.length_eq.symm
      complete := ?_
      analyzed := rfl
      errors := rfl
      used := ?_
      unused := ?_
      files := ⟨files, hshared, hrows.imp fun file row hrow => hrow.1, ?_⟩ }
  · have hlength := hshared.length_eq
    rw [hrows.length_eq] at hlength
    exact hlength
  · rw [hused, map_of_forall₂ hrows fun file row hrow => hrow.2.1.symm]
  · rw [hunused, map_of_forall₂ hrows fun file row hrow => hrow.2.2.symm]
  · rw [hused, hunused, ← List.sum_map_add]
    simp only [Java.Tree.verdict, Verdict.length_classify]

/-! ## Runs that come to an end -/

theorem readSource_recoverable (hnull : path.hasNull = false) :
    FailsOnly (fun f : Failure => f.kind.isRecoverable = true) (readSource fs .utf8 path) := by
  unfold readSource
  split
  next fault hfault =>
    have hne := FileSystem.read_neverNull hnull fault hfault
    refine .error ?_
    cases fault with
    | nullCharacter => exact absurd rfl hne
    | _ => rfl
  next => exact .error rfl
  next bs _ =>
    cases Text.decode .utf8 bs with
    | ok source => exact .ok source
    | error fault => exact .error rfl

/-- The analysis of files with a place below the directory of the root ends with outcomes. -/
theorem exists_outcomes {limit : Option Nat} (hlimit : options.limit = .ok limit)
    (hplaces : ∀ path ∈ paths, (path.relativeTo? root.parent).isSome)
    (hnull : ∀ path ∈ paths, path.hasNull = false) :
    ∃ os, outcomes fs options duration paths root = .ok os := by
  refine (outcomes_failsOnly (hlimit ▸ .ok limit) fun path hpath => ?_).exists_ok
  obtain ⟨segments, hsegments⟩ := Option.isSome_iff_exists.mp (hplaces path hpath)
  obtain ⟨depths, hdepths, -⟩ := pathDepths_eq hsegments
  exact analyzeFile_failsOnly hdepths ((readSource_recoverable (hnull path hpath)).imp
    fun _ => .inl)

/-- A report accounts for every file exactly once, whatever the files hold, as long as each has a
place below the directory of the root and no null character in its name: how many there are, which
of them were dropped and why, which were analysed, and how many imports those have, used and unused.
So does the report on every run of the workers that comes to its end. -/
theorem report_accounts_for_every_file (options : RunOptions) (duration : Path → Nat)
    (paths : List Path) (root : Path) (w : World) (limit : Option Nat)
    (hlimit : options.limit = .ok limit)
    (hplaces : ∀ path ∈ paths, (path.relativeTo? root.parent).isSome)
    (hnull : ∀ path ∈ paths, path.hasNull = false) :
    (∃ report logs, aggregate options duration paths root w = (.ok report, { w with logs }) ∧
      report.Accounts w.files root options.timeout.text paths) ∧
    ∀ events, let jobs := fileJobs w.files limit options.workerCount options.timeout.text paths root
      (Pool.run jobs events).phase = .complete →
      ∃ os, (Pool.run jobs events).conclusion? jobs = some (.ok os) ∧
        (reportOf root os).Accounts w.files root options.timeout.text paths := by
  constructor
  · obtain ⟨os, hos⟩ := exists_outcomes hlimit hplaces hnull
    obtain ⟨logs, hreport⟩ := aggregate_eq hos
    exact ⟨_, logs, hreport, (areOutcomes_of_outcomes hos).accounts⟩
  · intro events jobs hcomplete
    obtain ⟨os, hos, hare⟩ := areOutcomes_of_complete (Pool.run_sound jobs events) hcomplete
    exact ⟨os, hos, hare.accounts⟩

/-- A file that is there and one that is missing are both accounted for. -/
theorem report_accounts_for_missing_file :
    let w : World :=
      { files := { entries := [(["p"], .directory), (["p", "A.java"], .file (.bytes []))] } }
    let root : Path := { root := "/", parts := ["p"] }
    let paths := [root.child "A.java", root.child "B.java"]
    (∀ path ∈ paths, (path.relativeTo? root.parent).isSome) ∧
      (∀ path ∈ paths, path.hasNull = false) ∧
      ∃ report logs, aggregate {} (fun _ => 0) paths root w = (.ok report, { w with logs }) ∧
        report.stats.scanned = 2 ∧ report.rows.length + report.errors.length = 2 := by
  intro w root paths
  have hplaces : ∀ path ∈ paths, (path.relativeTo? root.parent).isSome := by decide
  have hnull : ∀ path ∈ paths, path.hasNull = false := by decide +kernel
  obtain ⟨⟨report, logs, hreport, haccounts⟩, -⟩ :=
    report_accounts_for_every_file {} (fun _ => 0) paths root w none rfl hplaces hnull
  refine ⟨hplaces, hnull, report, logs, hreport, haccounts.scanned, ?_⟩
  rw [← haccounts.analyzed, ← haccounts.errors]
  exact haccounts.complete

/-- A null character in a name is no failure of one file: there is no report at all. -/
theorem null_character_leaves_no_report :
    let root : Path := { root := "/", parts := ["p"] }
    let path := root.child "a\x00.java"
    (path.relativeTo? root.parent).isSome ∧ ({} : RunOptions).limit = .ok none ∧
      aggregate {} (fun _ => 0) [path] root {} = (.error (.file .nullCharacter path.text), {}) := by
  intro root path
  have hread : readSource {} .utf8 path = .error (.file .nullCharacter path.text) := by
    rw [readSource, FileSystem.read_null (by decide +kernel)]
  have hfile : analyzeFile {} path root = .error (.file .nullCharacter path.text) := by
    rw [analyzeFile, hread]
    rfl
  refine ⟨by decide, rfl, aggregate_error ?_⟩
  rw [outcomes_eq (List.cons_ne_nil _ _) rfl, List.mapM_cons, outcomeAfter, hfile]
  rfl

end ImportAudit
