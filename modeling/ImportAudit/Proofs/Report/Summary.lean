import ImportAudit.Proofs.Analysis.Accounts
import ImportAudit.Proofs.Analysis.Depths
import ImportAudit.Proofs.Console.Markup
import ImportAudit.Report.Summary

/-!
# The summary lists the unused imports

A summary ends with a table of the files that have unused imports, or says that there are none. A
file is shown by its place below the directory of the root, which the depth cells of its row give
back, whatever columns the row was fitted to.
-/

namespace ImportAudit

/-! ## Places as texts -/

namespace Path

variable {root p q : Path} {s t : List String}

/-- Whether every segment has something in it, and no slash. -/
def HasNames (p : Path) : Prop :=
  ∀ segment ∈ p.parts, segment ≠ "" ∧ '/' ∉ segment.toList

theorem hasNames_ofString (text : String) : (ofString text).HasNames := by
  intro segment hsegment
  obtain ⟨hcut, hkept⟩ := List.mem_filter.mp hsegment
  obtain ⟨piece, hpiece, rfl⟩ := List.mem_map.mp hcut
  refine ⟨fun hempty => by simp [hempty] at hkept, fun hslash => ?_⟩
  rw [String.toList_ofList] at hslash
  exact absurd (Text.not_of_mem_splitList hpiece hslash) (by decide)

def textBelow (root path : Path) : String :=
  text { parts := (path.relativeTo? root.parent).getD [] }

theorem textBelow_eq (h : p.relativeTo? root.parent = some s) (hne : s ≠ []) :
    root.textBelow p = "/".intercalate s := by
  rw [textBelow, h, Option.getD_some, text, if_neg (by simpa using hne), plainText,
    String.empty_append]

theorem eq_of_textBelow_eq (hp : p.relativeTo? root.parent = some s)
    (hq : q.relativeTo? root.parent = some t) (hs : s ≠ []) (ht : t ≠ []) (hpnames : p.HasNames)
    (hqnames : q.HasNames) (h : root.textBelow p = root.textBelow q) : p = q := by
  obtain ⟨hproot, hpparts⟩ := parts_of_relativeTo? hp
  obtain ⟨hqroot, hqparts⟩ := parts_of_relativeTo? hq
  have hcut {p : Path} {s : List String} (hparts : p.parts = root.parent.parts ++ s) (hne : s ≠ [])
      (hnames : p.HasNames) :
      Text.splitAt '/' ("/".intercalate s) = s := by
    refine Text.splitAt_intercalate rfl hne fun segment hsegment => (hnames segment ?_).2
    rw [hparts]
    exact List.mem_append_right _ hsegment
  have hsame : s = t := by
    rw [← hcut hpparts hs hpnames, ← hcut hqparts ht hqnames, ← textBelow_eq hp hs,
      ← textBelow_eq hq ht, h]
  obtain ⟨proot, pparts⟩ := p
  obtain ⟨qroot, qparts⟩ := q
  simp_all

end Path

/-! ## Labels -/

def Value.shownText (v : Value) : Option String :=
  if v.isTruthy then some v.text else none

theorem Value.shownText_of_isNull {v : Value} (h : v.isNull = true) : v.shownText = none := by
  cases v with
  | null => rfl
  | _ => cases h

theorem Value.shownText_str {s : String} (h : s ≠ "") : (Value.str s).shownText = some s :=
  if_pos (bne_iff_ne.mpr h)

namespace Report

variable {r : Report} {row : Row}

theorem label_eq (hcolumns : row.columns = r.columns) (hnodup : row.columns.Nodup) :
    r.label row = "/".intercalate (row.depthCells.filterMap Value.shownText) := by
  have hcells : (Table.depthColumns r.columns).filterMap (cellText row) =
      (row.filter fun cell => !Table.importColumns.contains cell.1).filterMap fun cell =>
        cell.2.shownText := by
    rw [← hcolumns, Table.depthColumns, Row.columns, List.filter_map, List.filterMap_map]
    refine List.filterMap_congr fun cell hcell => ?_
    have hown := Row.cell?_of_mem hnodup (List.mem_of_mem_filter hcell)
    exact congrArg (·.bind Value.shownText) hown
  -- An absent cell has no text, so that it does not matter that the depth cells leave it out.
  rw [label, hcells, Row.depthCells, List.filterMap_map, List.filterMap_filter,
    List.filterMap_filter, List.filterMap_filter]
  refine congrArg _ (List.filterMap_congr fun cell _ => ?_)
  cases hnull : cell.2.isNull with
  | false => rfl
  | true => simp [Value.shownText_of_isNull hnull]

end Report

/-! ## Rows -/

section Rows

variable {fs : FileSystem} {paths : List Path} {root : Path} {timeout : String} {os : List Outcome}

/-- What a summary finds in a row: the place of the file, and the names of its unused imports. -/
structure Report.ShowsFile (report : Report) (root : Path) (file : Path × Java.Tree)
    (row : Row) : Prop where
  label : report.label row = root.textBelow file.1
  unused : row.cell? "unused" = some (.str (Verdict.cell file.2.verdict.unused))

theorem label_of_depths {report : Report} {row : Row} {path : Path} {below : List String}
    {depths : List (String × String)} {v : Verdict}
    (hcolumns : row.columns = report.columns ∧ row.columns.Nodup)
    (hfilter : row.filter (fun cell => !cell.2.isNull) = fileRow depths v)
    (hdepths : pathDepths path root = .ok depths)
    (hplace : path.relativeTo? root.parent = some below) (hne : below ≠ [])
    (hnames : path.HasNames) :
    report.label row = root.textBelow path := by
  obtain ⟨depths', hdepths', hsegments, -⟩ := pathDepths_eq hplace
  cases hdepths.symm.trans hdepths'
  have hshown : (below.map Value.str).filterMap Value.shownText = below := by
    rw [List.filterMap_map]
    refine (List.filterMap_congr fun segment hsegment => ?_).trans List.filterMap_some
    refine Value.shownText_str (hnames segment ?_).1
    rw [(Path.parts_of_relativeTo? hplace).2]
    exact List.mem_append_right _ hsegment
  rw [Report.label_eq hcolumns.1 hcolumns.2, depthCells_of_filter hfilter,
    depthCells_fileRow hdepths, hsegments, hshown, Path.textBelow_eq hplace hne]

theorem AreOutcomes.shown_files (h : AreOutcomes fs root timeout paths os)
    (hinside : ∀ p ∈ paths, ∃ below ≠ [], p.relativeTo? root.parent = some below)
    (hnames : ∀ p ∈ paths, p.HasNames) :
    ∃ files : List (Path × Java.Tree), SharedOut fs timeout paths (reportOf root os).errors files ∧
      List.Forall₂
        (fun file row => IsParsed fs file.1 file.2 ∧
          (reportOf root os).ShowsFile root file row) files
        (reportOf root os).rows := by
  obtain ⟨files, hshared, hfiles⟩ := h.sharedOut
  refine ⟨files, hshared, (forall₂_mem (forall₂_comp hfiles h.rows)).imp ?_⟩
  rintro file row ⟨hfile, hrow, analysed, ⟨htree, depths, hdepths, rfl⟩, hfilter, hcells⟩
  have hpath := hshared.mem_paths hfile
  obtain ⟨below, hne, hplace⟩ := hinside file.1 hpath
  refine ⟨htree, label_of_depths (h.columns_of_mem hrow) hfilter hdepths hplace hne
    (hnames file.1 hpath), ?_⟩
  exact hcells _ _ (cell?_fileRow hdepths (List.mem_cons_of_mem _ List.mem_cons_self))

end Rows

/-! ## Files with unused imports -/

section Flagged

variable {fs : FileSystem} {root : Path} {report : Report} {rows : List Row}
  {files : List (Path × Java.Tree)}

def unusedFiles (files : List (Path × Java.Tree)) : List (Path × Java.Tree) :=
  files.filter fun file => !file.2.verdict.unused.isEmpty

theorem unusedFiles_eq_nil_iff :
    unusedFiles files = [] ↔ (files.map (·.2.verdict.unused.length)).sum = 0 := by
  rw [List.sum_eq_zero_iff_forall_eq_nat, unusedFiles, List.filter_eq_nil_iff, List.forall_mem_map]
  simp

theorem IsParsed.cell_eq_empty_iff {path : Path} {tree : Java.Tree}
    (htree : IsParsed fs path tree) :
    Verdict.cell tree.verdict.unused = "" ↔ tree.verdict.unused = [] := by
  obtain ⟨source, -, hparse⟩ := htree
  have hsource : tree = Java.parse source := (parseSource_eq_ok_iff.mp hparse).1
  have hlines : lineCount (Verdict.cell tree.verdict.unused) = tree.verdict.unused.length :=
    lineCount_cell fun d hd => Java.qualifiedName_of_parse (hsource ▸ List.mem_of_mem_filter hd)
  constructor
  · intro hempty
    rw [hempty] at hlines
    exact List.length_eq_zero_iff.mp hlines.symm
  · intro hnone
    rw [hnone]
    rfl

/-- What is shown in the table: the files with unused imports, in the order of the rows. -/
theorem flagged_of_shown
    (h : List.Forall₂
      (fun file row => IsParsed fs file.1 file.2 ∧ report.ShowsFile root file row) files rows) :
    (rows.filterMap fun row => (Report.cellText row "unused").map fun unused =>
      (report.label row, unused)) =
      (unusedFiles files).map fun file =>
        (root.textBelow file.1, Verdict.cell file.2.verdict.unused) := by
  induction h with
  | nil => rfl
  | @cons file row files rows hfile _ ih =>
      obtain ⟨htree, hlabel, hunused⟩ := hfile
      have hcell :
          Report.cellText row "unused" =
            (Value.str (Verdict.cell file.2.verdict.unused)).shownText :=
        congrArg (·.bind Value.shownText) hunused
      rw [List.filterMap_cons, hcell, ih, unusedFiles, unusedFiles, List.filter_cons]
      by_cases hnone : file.2.verdict.unused = []
      · rw [htree.cell_eq_empty_iff.mpr hnone, hnone]
        rfl
      · rw [Value.shownText_str (hnone ∘ htree.cell_eq_empty_iff.mp), hlabel,
          if_pos (by simpa using hnone)]
        rfl

end Flagged

/-! ## What is printed -/

namespace Report

def opening (c : Console) (r : Report) : List (Except Failure String) :=
  [c.header "Import Analysis" (some r.root.text),
    c.notice .info ("Files scanned: " ++ toString r.stats.scanned),
    c.notice .info ("Files analysed: " ++ toString r.stats.analyzed),
    c.notice .info ("Imports: " ++ toString r.stats.used ++ " used, "
      ++ toString r.stats.unused ++ " unused (" ++ r.stats.duration.fixedText 2 ++ "s)")] ++
  if r.errors.isEmpty then []
  else c.heading "Skipped files" ::
    r.errors.map fun e =>
      c.notice .warning (e.path.text ++ " (" ++ e.stage.name ++ "): " ++ e.message)

theorem prints_show {piece : Except Failure String} {text : String} (h : piece = .ok text) :
    Action.Prints (show_ piece) () text := by
  intro w
  rw [show_, h, Action.bind_of_ok (Action.ofExcept_ok text w)]
  exact Action.Prints.print text w

def ending (c : Console) (lines : List (String × String)) : Except Failure String :=
  if lines = [] then c.notice .success "No unused imports found"
  else c.table "Unused imports" ["File", "Unused imports"] (lines.map fun line => [line.1, line.2])

theorem ending_succeeds (c : Console) (lines : List (String × String)) :
    ∃ text, ending c lines = .ok text := by
  unfold ending
  split
  · exact c.notice_succeeds _ _
  · exact c.table_succeeds _ (by decide)

theorem printSummary_prints (c : Console) (r : Report) {last : String}
    (hending : ending c r.flagged = .ok last) :
    ∃ texts : List String, r.opening c = texts.map .ok ∧
      Action.Prints (r.printSummary c) () (String.join texts ++ last) := by
  have hnone (h : r.flagged = []) : c.notice .success "No unused imports found" = .ok last := by
    rwa [ending, if_pos h] at hending
  have hsome (h : r.flagged ≠ []) : c.table "Unused imports" ["File", "Unused imports"]
      (r.flagged.map fun line => [line.1, line.2]) = .ok last := by
    rwa [ending, if_neg h] at hending
  obtain ⟨title, htitle⟩ := c.header_succeeds "Import Analysis" (some r.root.text)
  obtain ⟨scanned, hscanned⟩ :=
    c.notice_succeeds .info ("Files scanned: " ++ toString r.stats.scanned)
  obtain ⟨analysed, hanalysed⟩ :=
    c.notice_succeeds .info ("Files analysed: " ++ toString r.stats.analyzed)
  obtain ⟨imports, himports⟩ :=
    c.notice_succeeds .info ("Imports: " ++ toString r.stats.used ++ " used, " ++
    toString r.stats.unused ++ " unused (" ++ r.stats.duration.fixedText 2 ++ "s)")
  obtain ⟨skipped, hskipped⟩ := c.heading_succeeds "Skipped files"
  choose warning hwarning using fun e : ErrorRecord =>
    c.notice_succeeds .warning (e.path.text ++ " (" ++ e.stage.name ++ "): " ++ e.message)
  refine ⟨[title, scanned, analysed, imports] ++ if r.errors.isEmpty then [] else skipped ::
    r.errors.map warning, ?_, ?_⟩
  · rw [opening, htitle, hscanned, hanalysed, himports, hskipped, funext hwarning]
    split <;> simp [Function.comp_def]
  · simp only [String.join_append, String.join_cons, String.join_nil, String.append_empty,
      String.append_assoc]
    refine (prints_show htitle).bind ((prints_show hscanned).bind ((prints_show hanalysed).bind
      ((prints_show himports).bind ?_)))
    dsimp only
    rcases Bool.eq_false_or_eq_true r.errors.isEmpty with hempty | hempty
    on_goal 1 => rw [hempty, if_neg (by decide), if_pos rfl, String.join_nil, String.empty_append]
    on_goal 2 =>
      rw [hempty, if_pos (by decide), if_neg (by decide), String.join_cons, String.append_assoc]
      refine (prints_show hskipped).bind ((Action.Prints.forIn r.errors fun e _ => ?_).bind ?_)
      · rw [← String.append_empty (s := warning e)]
        exact (prints_show (hwarning e)).bind (.pure _)
    all_goals
      split
      next hflagged => exact prints_show (hnone hflagged)
      next hflagged => exact prints_show (hsome hflagged)

theorem printSummary_succeeds (c : Console) (r : Report) : Action.Says (r.printSummary c) := by
  obtain ⟨last, hlast⟩ := ending_succeeds c r.flagged
  obtain ⟨texts, -, hprints⟩ := printSummary_prints c r hlast
  exact .of_prints hprints

end Report

/-- The summary of a report on files below the directory of the root says that no unused imports
were found if the report counts none. Otherwise it has a table with a line for each analysed
file that has an unused import, in the order of the rows: the place of the file below that
directory, as the depth cells of its row give it, and the text of the row for unused imports. No
two files have the same place. -/
theorem summary_lists_unused_imports (options : RunOptions) (duration : Path → Nat)
    (paths : List Path) (root : Path) (w w' : World) (report : Report)
    (hreport : aggregate options duration paths root w = (.ok report, w'))
    (hinside : ∀ p ∈ paths, ∃ below ≠ [], p.relativeTo? root.parent = some below)
    (hnames : ∀ p ∈ paths, p.HasNames) :
    (∀ p ∈ paths, ∀ q ∈ paths, root.textBelow p = root.textBelow q → p = q) ∧
    ∃ files : List (Path × Java.Tree),
      SharedOut w.files options.timeout.text paths report.errors files ∧
      List.Forall₂ (report.ShowsFile root) files report.rows ∧
      (report.stats.unused = 0 ↔ unusedFiles files = []) ∧
      ∀ c : Console, ∃ (opening : List String) (last : String), report.opening c = opening.map .ok ∧
        (if report.stats.unused = 0 then c.notice .success "No unused imports found"
          else c.table "Unused imports" ["File", "Unused imports"]
            ((unusedFiles files).map fun file =>
              [root.textBelow file.1, Verdict.cell file.2.verdict.unused])) = .ok last ∧
        ∀ v : World,
          report.printSummary c v =
            (.ok (), { v with printed := v.printed ++ (String.join opening ++ last) }) := by
  refine ⟨fun p hp q hq => ?_, ?_⟩
  · obtain ⟨s, hs, hplace⟩ := hinside p hp
    obtain ⟨t, ht, hplace'⟩ := hinside q hq
    exact Path.eq_of_textBelow_eq hplace hplace' hs ht (hnames p hp) (hnames q hq)
  · obtain ⟨os, hos, rfl⟩ := exists_outcomes_of_aggregate hreport
    have hare := areOutcomes_of_outcomes hos
    obtain ⟨files, hshared, hrows⟩ := hare.shown_files hinside hnames
    have hflagged : (reportOf root os).flagged = _ := flagged_of_shown hrows
    have hcounts : files.map (·.2.verdict.unused.length) =
        (reportOf root os).rows.map (·.entryCount "unused") :=
      map_of_forall₂ hrows fun file row hrow =>
        (entryCount_of_parsed hrow.1 (fun d hd => List.mem_of_mem_filter hd) hrow.2.unused).symm
    have hnone : (reportOf root os).stats.unused = 0 ↔ unusedFiles files = [] := by
      rw [unusedFiles_eq_nil_iff, hcounts, hare.accounts.unused]
    refine ⟨files, hshared, hrows.imp fun _ _ hrow => hrow.2, hnone, fun c => ?_⟩
    obtain ⟨last, hlast⟩ := Report.ending_succeeds c (reportOf root os).flagged
    obtain ⟨opening, hopening, hprints⟩ := Report.printSummary_prints c (reportOf root os) hlast
    refine ⟨opening, last, hopening, ?_, hprints⟩
    rw [← hlast, Report.ending, hflagged, List.map_map]
    simp only [hnone, List.map_eq_nil_iff]
    rfl

/-- Two files of different depth, of which the deeper one has an import that is not
used: the summary has a table. -/
theorem summary_lists_nested_file :
    let files : FileSystem :=
      { entries := [(["p"], .directory), (["p", "A.java"], .file (.bytes [])),
        (["p", "q"], .directory),
          (["p", "q", "B.java"], .file (.bytes (Text.encodeUtf8 "import a.B;")))] }
    let w : World := { files }
    let root := Path.ofString "/p"
    let paths := [Path.ofString "/p/A.java", Path.ofString "/p/q/B.java"]
    (∀ p ∈ paths, ∃ below ≠ [], p.relativeTo? root.parent = some below) ∧
      (∀ p ∈ paths, p.HasNames) ∧
      root.textBelow (Path.ofString "/p/q/B.java") = "p/q/B.java" ∧
      ∃ report logs, aggregate {} (fun _ => 0) paths root w = (.ok report, { w with logs }) ∧
        report.stats.unused = 1 ∧
        ∃ lines ≠ [], ∀ c : Console, ∃ before last,
          c.table "Unused imports" ["File", "Unused imports"] lines = .ok last ∧
            ∀ v : World,
              report.printSummary c v =
                (.ok (), { v with printed := v.printed ++ (before ++ last) }) := by
  intro files w root paths
  have hinside : ∀ p ∈ paths, ∃ below ≠ [], p.relativeTo? root.parent = some below := by
    refine List.forall_mem_cons.mpr ⟨⟨["p", "A.java"], by decide, by decide +kernel⟩,
      List.forall_mem_singleton.mpr ?_⟩
    exact ⟨["p", "q", "B.java"], by decide, by decide +kernel⟩
  have hnames : ∀ p ∈ paths, p.HasNames :=
    List.forall_mem_cons.mpr ⟨Path.hasNames_ofString _,
      List.forall_mem_singleton.mpr (Path.hasNames_ofString _)⟩
  have hcount :
      ((outcomes files {} (fun _ => 0) paths root).toOption.map fun os =>
        (reportOf root os).stats.unused) =
      some 1 := by decide +kernel
  cases hos : outcomes files {} (fun _ => 0) paths root with
  | error e =>
      rw [hos] at hcount
      cases hcount
  | ok os =>
      rw [hos] at hcount
      have hone : (reportOf root os).stats.unused = 1 := Option.some.inj hcount
      obtain ⟨logs, hreport⟩ := @aggregate_eq _ _ _ _ _ w hos
      obtain ⟨-, shown, -, -, hnone, hprints⟩ :=
        summary_lists_unused_imports _ _ _ _ _ _ _ hreport hinside hnames
      have hsome : (reportOf root os).stats.unused ≠ 0 := by omega
      refine ⟨hinside, hnames, by decide +kernel, _, logs, hreport, hone,
        (unusedFiles shown).map fun file =>
          [root.textBelow file.1, Verdict.cell file.2.verdict.unused], ?_, fun c => ?_⟩
      · exact List.map_eq_nil_iff.not.mpr (hnone.not.mp hsome)
      · obtain ⟨opening, last, -, hlast, hprinted⟩ := hprints c
        rw [if_neg hsome] at hlast
        exact ⟨String.join opening, last, hlast, hprinted⟩

end ImportAudit
