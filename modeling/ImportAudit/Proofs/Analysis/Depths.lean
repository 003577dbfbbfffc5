import ImportAudit.Proofs.Analysis.Failures

/-!
# The depths of discovered files

A discovered file lies at or below the root, so that it has a place below the directory
that holds the root. Its depth columns give that place back, and the rows of a report
come in the order of the places.
-/

namespace ImportAudit

variable {fs : FileSystem} {root f : Path} {files : List Path} {extensions : Option Value}
  {excluded : Option (List String)} {context : Option String}

/-! ## Path depths -/

/-- The name of a path and then what is below it, which is where that is below
the parent of the path. -/
def Path.placeBelow (root : Path) (below : List String) : List String :=
  (if root.parts = [] then [] else [root.name]) ++ below

theorem Path.parent_join_placeBelow (root : Path) (below : List String) :
    root.parent.join { parts := root.placeBelow below } = root.join { parts := below } := by
  rw [placeBelow, ← join_join, parent_join_name]

theorem pathDepths_join (root : Path) (below : List String) :
    ∃ depths, pathDepths (root.join { parts := below }) root = .ok depths ∧
      depths.map (·.2) = root.placeBelow below ∧
        depths.map (·.1) = (List.range' 1 depths.length).map depthColumn := by
  apply pathDepths_eq
  rw [← Path.parent_join_placeBelow, Path.relativeTo?_join]

/-! ## Rows -/

def Row.depthCells (r : Row) : List Value :=
  ((r.filter fun cell => !cell.2.isNull).filter fun cell =>
    !Table.importColumns.contains cell.1).map (·.2)

theorem depthCells_of_filter {r s : Row} (h : r.filter (fun cell => !cell.2.isNull) = s) :
    r.depthCells = s.depthCells := by
  subst h
  simp [Row.depthCells]

theorem depthCells_fileRow {depths : List (String × String)} (h : pathDepths f root = .ok depths)
    (v : Verdict) :
    (fileRow depths v).depthCells = (depths.map (·.2)).map .str := by
  have hpresent : (fileRow depths v).filter (fun cell => !cell.2.isNull) = fileRow depths v := by
    rw [List.filter_eq_self]
    intro cell hcell
    rw [(isFileRow_fileRow h v).present cell hcell]
    rfl
  have hdepths : ∀ cell ∈ depths, cell.1 ∉ Table.importColumns := by
    intro cell hcell
    have hcolumn : cell.1 ∈ depths.map (·.1) := List.mem_map_of_mem hcell
    rw [pathDepths_columns h, depthColumnsFrom] at hcolumn
    obtain ⟨n, -, heq⟩ := List.mem_map.mp hcolumn
    rw [← heq]
    exact depthColumn_not_mem_importColumns n
  have hkept : (depths.map fun cell => (cell.1, Value.str cell.2)).filter
      (fun cell => !Table.importColumns.contains cell.1) = depths.map fun cell =>
        (cell.1, Value.str cell.2) := by
    rw [List.filter_eq_self]
    intro cell hcell
    obtain ⟨own, hown, rfl⟩ := List.mem_map.mp hcell
    simpa using hdepths own hown
  have hdropped : (v.cells.map fun cell => (cell.1, Value.str cell.2)).filter
      (fun cell => !Table.importColumns.contains cell.1) = [] := rfl
  rw [Row.depthCells, hpresent, fileRow_eq h, List.map_append, List.filter_append, hkept, hdropped,
    List.append_nil, List.map_map, List.map_map]
  rfl

theorem depthCells_analysed {timeout : String} {os : List Outcome}
    (h : AreOutcomes fs root timeout files os) {file : Path × Findings}
    (hfile : file ∈ analysedFiles os) {below : List String}
    (hbelow : file.1 = root.join { parts := below }) :
    file.2.row.depthCells = (root.placeBelow below).map .str := by
  obtain ⟨depths, hdepths, hrow⟩ := analyzeFile_row (h.mem_analysed hfile) rfl
  obtain ⟨depths', hdepths', hvalues, -⟩ := pathDepths_join root below
  rw [hbelow, hdepths'] at hdepths
  cases hdepths
  rw [hrow, depthCells_fileRow hdepths', hvalues]

theorem analysedFiles_sorted {timeout : String} {os : List Outcome}
    (h : AreOutcomes fs root timeout files os)
    (hfiles : files.Pairwise fun p q => p.segments < q.segments) :
    (analysedFiles os).Pairwise fun x y => x.1.segments < y.1.segments := by
  rw [← h.paths_eq, List.pairwise_map] at hfiles
  rw [analysedFiles, List.pairwise_filterMap]
  refine hfiles.imp fun {o o'} hlt x hx y hy => ?_
  obtain ⟨findings, -, rfl⟩ := Option.map_eq_some_iff.mp hx
  obtain ⟨findings', -, rfl⟩ := Option.map_eq_some_iff.mp hy
  exact hlt

theorem mem_files_of_analysed {timeout : String} {os : List Outcome}
    (h : AreOutcomes fs root timeout files os) {file : Path × Findings}
    (hfile : file ∈ analysedFiles os) : file.1 ∈ files := by
  obtain ⟨o, ho, hfindings⟩ := List.mem_filterMap.mp hfile
  obtain ⟨findings, -, rfl⟩ := Option.map_eq_some_iff.mp hfindings
  rw [← h.paths_eq]
  exact List.mem_map_of_mem ho

/-- Rows of files in the order of their paths are in the order of their depth cells. -/
theorem rows_sorted {timeout : String} {os : List Outcome}
    (h : AreOutcomes fs root timeout files os)
    (hfiles : files.Pairwise fun p q => p.segments < q.segments)
    (hbelow : ∀ f ∈ files, ∃ below, f = root.join { parts := below }) :
    (reportOf root os).rows.Pairwise fun r s =>
      ∃ a b : List String, r.depthCells = a.map .str ∧ s.depthCells = b.map .str ∧ a < b := by
  have hfit := h.rows
  rw [(reportOf_table rfl).2, List.forall₂_map_right_iff, List.forall₂_same] at hfit
  rw [(reportOf_table rfl).2, List.pairwise_map]
  refine (analysedFiles_sorted h hfiles).imp_of_mem fun {x y} hx hy hlt => ?_
  obtain ⟨a, ha⟩ := hbelow x.1 (mem_files_of_analysed h hx)
  obtain ⟨b, hb⟩ := hbelow y.1 (mem_files_of_analysed h hy)
  refine ⟨root.placeBelow a, root.placeBelow b, ?_, ?_, ?_⟩
  · rw [depthCells_of_filter (hfit x hx).1, depthCells_analysed h hx ha]
  · rw [depthCells_of_filter (hfit y hy).1, depthCells_analysed h hy hb]
  · rw [ha, hb, ← Path.parent_join_placeBelow root a, ← Path.parent_join_placeBelow root b] at hlt
    exact Path.lt_of_join_lt_join hlt

/-! ## The analysis of a root -/

/-- What an analysis returns, apart from what it writes to the log. -/
theorem analyzeRoot_result (settings : AnalysisSettings) (duration : Path → Nat) (source : Path)
    (w : World) :
    (analyzeRoot settings duration source w).1 =
      discoverFiles w.files settings source >>= fun files =>
      resolvePath w.files source >>= fun resolved =>
      outcomes w.files ⟨settings.workers, settings.timeout⟩ duration files resolved >>= fun os =>
      pure (reportOf resolved os) := by
  unfold analyzeRoot
  rw [Action.bind_of_ok (Action.files_apply w)]
  cases hfiles : discoverFiles w.files settings source with
  | error e =>
      rw [Action.bind_of_error (Action.ofExcept_error e w)]
      rfl
  | ok files =>
      rw [Action.bind_of_ok (Action.ofExcept_ok files w)]
      obtain ⟨logs, hlogs⟩ := Action.Logs.log .info "importlens.analysis.aggregator"
        ("Found " ++ toString files.length ++ " source file(s) under " ++ source.text) w
      rw [Action.bind_of_ok hlogs]
      cases hresolved : resolvePath w.files source with
      | error e =>
          rw [Action.bind_of_error (Action.ofExcept_error e _)]
          rfl
      | ok resolved =>
          rw [Action.bind_of_ok (Action.ofExcept_ok resolved _)]
          show _ = outcomes w.files ⟨settings.workers, settings.timeout⟩ duration files resolved >>=
            fun os => pure (reportOf resolved os)
          cases hos :
              outcomes w.files ⟨settings.workers, settings.timeout⟩ duration files resolved with
          | error e =>
              rw [Action.bind_of_error (aggregate_error (w := { w with logs }) hos)]
              rfl
          | ok os =>
              obtain ⟨more, hreport⟩ := aggregate_eq (w := { w with logs }) hos
              rw [Action.bind_of_ok hreport]
              obtain ⟨last, hlast⟩ := Action.Logs.log .info "importlens.analysis.aggregator"
                ("Analysis complete: " ++ toString (reportOf resolved os).stats.analyzed
                  ++ " file(s) analysed, " ++ toString (reportOf resolved os).stats.errors
                  ++ " skipped") { w with logs := more }
              rw [Action.bind_of_ok hlast]
              rfl

theorem discover_of_discoverFiles {settings : AnalysisSettings} {source resolved : Path}
    (hresolved : resolvePath fs source = .ok resolved)
    (h : discoverFiles fs settings source = .ok files) :
    ∃ extensions excluded context,
      Discovery.discover fs resolved extensions excluded context = .ok files := by
  obtain ⟨own, hown, h⟩ := bind_eq_ok_iff.mp h
  obtain rfl : own = resolved := Except.ok.inj (hown.symm.trans hresolved)
  obtain ⟨excluded, -, h⟩ := bind_eq_ok_iff.mp h
  exact ⟨_, _, _, h⟩

theorem exists_depths (h : Discovery.discover fs root extensions excluded context = .ok files)
    (hf : f ∈ files) :
    ∃ below depths, f = root.join { parts := below } ∧
      (∀ l c, fs.entry root = .ok (l, .file c) → below = []) ∧
      (∀ l, fs.entry root = .ok (l, .directory) → below ≠ []) ∧
      pathDepths f root = .ok depths ∧
      depths.map (·.1) = (List.range' 1 depths.length).map depthColumn ∧
      depths.map (·.2) = (if root.parts = [] then [] else [root.name]) ++ below ∧
      root.parent.join { parts := depths.map (·.2) } = f := by
  obtain ⟨below, rfl, hfile, hdirectory⟩ := Discovery.exists_below h hf
  obtain ⟨depths, hdepths, hvalues, hcolumns⟩ := pathDepths_join root below
  refine ⟨below, depths, rfl, hfile, hdirectory, hdepths, hcolumns, hvalues, ?_⟩
  rw [hvalues, Path.parent_join_placeBelow]

/-- A root that is there gives files, unless something below it cannot be looked at.  Every
discovered file has depths, in the columns from the first on: the name of the root, unless the root
is the top directory, and the segments below it, of which there are none if the root is the file
itself.  Joined to the parent of the root they give the file back, so no two files share them.
An analysis never fails because a file lies outside the root, and the rows of its report increase
strictly in the depth cells that are not absent. -/
theorem depths_give_discovered_files (fs : FileSystem) (hfs : fs.Unambiguous) :
    (∀ root place, fs.entry root = .ok place →
      ∀ (extensions excluded : Option (List String)) (context : Option String),
      let found :=
        Discovery.discover fs root (extensions.map fun es => .list (es.map .str)) excluded context
      (∃ files, found = .ok files) ∨ ∃ l f, fs.entry root = .ok (l, .directory) ∧
        Discovery.IsHindered fs root l f ∧ found = .error f) ∧
    (∀ root extensions excluded context files,
      Discovery.discover fs root extensions excluded context = .ok files →
      (∀ f ∈ files, ∃ below depths, f = root.join { parts := below } ∧
        (∀ l c, fs.entry root = .ok (l, .file c) → below = []) ∧
        (∀ l, fs.entry root = .ok (l, .directory) → below ≠ []) ∧
        pathDepths f root = .ok depths ∧
        depths.map (·.1) = (List.range' 1 depths.length).map depthColumn ∧
        depths.map (·.2) = (if root.parts = [] then [] else [root.name]) ++ below ∧
        root.parent.join { parts := depths.map (·.2) } = f) ∧
      ∀ f ∈ files, ∀ g ∈ files, pathDepths f root = pathDepths g root → f = g) ∧
    (∀ settings duration source (w : World), w.files = fs →
      (∀ path base, (analyzeRoot settings duration source w).1 ≠ .error (.outside path base)) ∧
      ∀ report, (analyzeRoot settings duration source w).1 = .ok report →
        report.rows.Pairwise fun r s =>
          ∃ a b : List String, r.depthCells = a.map .str ∧ s.depthCells = b.map .str ∧ a < b) := by
  refine ⟨fun root place hroot extensions excluded context => Discovery.discover_cases hroot,
    fun root extensions excluded context files h => ?_, fun settings duration source w hw => ?_⟩
  · refine ⟨fun f hf => exists_depths h hf, fun f hf g hg hsame => ?_⟩
    obtain ⟨_, depths, _, _, _, hdepths, _, _, hjoin⟩ := exists_depths h hf
    obtain ⟨_, depths', _, _, _, hdepths', _, _, hjoin'⟩ := exists_depths h hg
    rw [hdepths, hdepths'] at hsame
    rw [← hjoin, ← hjoin', Except.ok.inj hsame]
  · subst hw
    rw [analyzeRoot_result]
    have hplaces : ∀ files resolved, discoverFiles w.files settings source = .ok files →
        resolvePath w.files source = .ok resolved → ∀ f ∈ files,
        ∃ below, f = resolved.join { parts := below } := by
      intro files resolved hfiles hresolved f hf
      obtain ⟨_, _, _, h⟩ := discover_of_discoverFiles hresolved hfiles
      obtain ⟨below, hbelow, -⟩ := Discovery.exists_below h hf
      exact ⟨below, hbelow⟩
    constructor
    · intro path base hfails
      refine FailsOnly.bind ((discoverFiles_failsOnly settings source).imp fun _ => And.left)
        (fun files hfiles => ?_) _ hfails path base rfl
      refine .bind ((resolvePath_failsOnly source).imp fun _ => And.left)
        fun resolved hresolved => ?_
      refine .bind (outcomes_failsOnly (limit_failsOnly _) fun f hf => ?_) fun os _ => .ok _
      obtain ⟨below, rfl⟩ := hplaces files resolved hfiles hresolved f hf
      obtain ⟨depths, hdepths, -⟩ := pathDepths_join resolved below
      exact analyzeFile_failsOnly hdepths (readSource_failsOnly.imp fun _ => .inr)
    · intro report hreport
      obtain ⟨files, hfiles, hreport⟩ := bind_eq_ok_iff.mp hreport
      obtain ⟨resolved, hresolved, hreport⟩ := bind_eq_ok_iff.mp hreport
      obtain ⟨os, hos, hreport⟩ := bind_eq_ok_iff.mp hreport
      cases hreport
      obtain ⟨_, _, _, h⟩ := discover_of_discoverFiles hresolved hfiles
      exact rows_sorted (areOutcomes_of_outcomes hos) (Discovery.discover_sorted hfs h)
        (hplaces files resolved hfiles hresolved)

/-- A file two segments below its root has three depths. -/
theorem depths_of_nested_file :
    let fs : FileSystem :=
      { entries := [(["w"], .directory), (["w", "a"], .directory),
          (["w", "a", "X.java"], .file (.bytes []))] }
    let root : Path := { root := "/", parts := ["w"] }
    let f := root.join { parts := ["a", "X.java"] }
    fs.Unambiguous ∧ (∃ place, fs.entry root = .ok place) ∧
      (∃ files, Discovery.discover fs root none none none = .ok files ∧ f ∈ files ∧
        ∃ depths, pathDepths f root = .ok depths ∧ depths.map (·.2) = ["w", "a", "X.java"]) ∧
      ∀ path base,
        (analyzeRoot {} (fun _ => 0) root { files := fs }).1 ≠ .error (.outside path base) := by
  intro fs root f
  have hfs : fs.Unambiguous := by decide
  obtain ⟨-, hdepths, hanalysis⟩ := depths_give_discovered_files fs hfs
  have hfiles : Discovery.discover fs root none none none = .ok [f] := by decide +kernel
  have hf : f ∈ [f] := List.mem_singleton_self f
  obtain ⟨below, depths, hbelow, -, -, hok, -, hvalues, -⟩ := (hdepths root _ _ _ _ hfiles).1 f hf
  refine ⟨hfs, ⟨(["w"], .directory), by decide +kernel⟩, ⟨_, hfiles, hf, depths, hok, ?_⟩,
    (hanalysis {} (fun _ => 0) root { files := fs } rfl).1⟩
  rw [hvalues, ← Path.join_inj hbelow]
  rfl

end ImportAudit
