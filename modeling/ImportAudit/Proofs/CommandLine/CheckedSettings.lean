import ImportAudit.Proofs.Analysis.Accounts
import ImportAudit.Proofs.CommandLine.Failures
import ImportAudit.Proofs.Console.Markup
import ImportAudit.Proofs.Report.Titles
import ImportAudit.Proofs.Settings.Check

/-!
# Runs with checked settings

The check looks at one setting after the other, and not at everything that is done with it later. An
excluded directory has to be such as a set can hold, a time limit has to fit into a floating-point
number, the directory of reports has to be a text that is a path, and the title has to have a form
in the format of the report. Whatever the check admits, an analysis ends with a result or with a
failure that the tool reports, but for these values, for sources that cannot be looked up and for
faults of a workbook that are passed on.
-/

namespace ImportAudit

variable {fs : FileSystem} {root resolved f : Path} {files : List Path} {extensions : Option Value}
  {excluded : Option (List String)} {context : Option String}

/-! ## Source trees -/

/-- No name in a file system has a null character. -/
def FileSystem.HasNames (fs : FileSystem) : Prop :=
  ∀ e ∈ fs.entries, ∀ s ∈ e.1, Char.ofNat 0 ∉ s.toList

instance (fs : FileSystem) : Decidable fs.HasNames :=
  inferInstanceAs (Decidable (∀ e ∈ fs.entries, _))

theorem hasNull_discovered (hnames : fs.HasNames)
    (h : Discovery.discover fs root extensions excluded context = .ok files) (hf : f ∈ files) :
    f.hasNull = false := by
  have hroot {place : Location × Entry} (hplace : fs.entry root = .ok place) :
      root.hasNull = false := by
    obtain ⟨htarget, -⟩ := FileSystem.entry_eq_ok_iff.mp hplace
    exact (FileSystem.checkPath_eq_ok_iff.mp (FileSystem.target_eq_ok_iff.mp htarget).1).1
  rcases Discovery.discover_eq_ok h with ⟨l, c, hplace, hfiles⟩ | ⟨l, allowed, hplace, rfl⟩
  · rcases hfiles with rfl | rfl
    · rw [List.mem_singleton.mp hf]
      exact hroot hplace
    · exact absurd hf List.not_mem_nil
  · obtain ⟨segments, hmet, rfl, -⟩ := Discovery.mem_files.mp hf
    obtain ⟨e, hmem⟩ := hmet.there
    refine Path.hasNull_join (hroot hplace) fun s hs => hnames _ hmem s ?_
    exact List.mem_append_right l hs

theorem Failure.OfSearch.isUnreported {e : Failure} (h : e.OfSearch fs root) : e.IsUnreported := by
  rcases h with ⟨fault, -, -, rfl⟩ | ⟨l, -, segments, fault, -, -, rfl⟩ <;>
    exact Failure.isUnreported_file _ _

/-- With extensions that can be used, only what cannot be looked up keeps
sources from being discovered. -/
theorem discover_escapes_iff {v : Value} {es : List String} (hv : Extensions.ofValue v = .ok es) :
    Escapes (Discovery.discover fs root (some v) excluded context) ↔
      ∃ e, Failure.OfSearch fs root e := by
  cases hroot : fs.entry root with
  | error fault =>
      rw [Discovery.discover_error hroot, escapes_error_iff]
      cases habsence : fault.isAbsence with
      | true =>
          refine iff_of_false Bool.noConfusion ?_
          rintro ⟨e, ⟨fault', hfault', hpresent, -⟩ | ⟨l, hl, -⟩⟩
          · rw [Except.error.inj (hroot.symm.trans hfault'), hpresent] at habsence
            cases habsence
          · rw [hroot] at hl
            cases hl
      | false =>
          exact iff_of_true (Failure.isUnreported_file _ _) ⟨_, .inl ⟨fault, hroot, habsence, rfl⟩⟩
  | ok place =>
      obtain ⟨l, e⟩ := place
      simp only [Discovery.discover, hroot, hv, bind, Except.bind]
      cases e with
      | link t => exact absurd rfl ((FileSystem.entry_eq_ok_iff.mp hroot).2.2 t)
      | file c =>
          refine iff_of_false (not_escapes_ok _) ?_
          rintro ⟨e, ⟨fault, hfault, -⟩ | ⟨l', hl', -⟩⟩
          · rw [hroot] at hfault
            cases hfault
          · rw [hroot] at hl'
            cases hl'
      | directory =>
          rcases Discovery.below_cases fs root l (Extensions.normalize es)
            (excluded.getD Discovery.defaultExcluded) with ⟨hfree, hbelow⟩ | ⟨f, hf, hbelow⟩
          · rw [hbelow]
            refine iff_of_false (not_escapes_ok _) ?_
            rintro ⟨e, ⟨fault, hfault, -⟩ | ⟨l', hl', hhindered⟩⟩
            · rw [hroot] at hfault
              cases hfault
            · rw [hroot] at hl'
              cases hl'
              exact hfree e hhindered
          · have hsearch : f.OfSearch fs root := .inr ⟨l, hroot, hf⟩
            rw [hbelow, escapes_error_iff]
            exact iff_of_true hsearch.isUnreported ⟨f, hsearch⟩

/-! ## Excluded directories and time limits -/

theorem excludedOfValue_escapes_iff (xs : List Value) :
    Escapes (Discovery.excludedOfValue (.list xs)) ↔ ∃ x ∈ xs, x.isHashable = false := by
  obtain ⟨g, hvalue, hg⟩ : ∃ g : Value → Except Failure (List String),
      Discovery.excludedOfValue (.list xs) = (xs.mapM g >>= fun names => pure names.flatten) ∧
        ∀ x, FailsOnly Failure.IsUnreported (g x) ∧ (Escapes (g x) ↔ x.isHashable = false) := by
    refine ⟨_, rfl, fun x => ?_⟩
    unfold Value.isHashable
    cases x.unhashable? with
    | some part => exact ⟨.error rfl, fun _ => rfl, fun _ => escapes_error rfl⟩
    | none =>
        dsimp only
        split
        all_goals exact ⟨.ok _, fun h => absurd h (not_escapes_ok _), Bool.noConfusion⟩
  rw [hvalue, escapes_bind, escapes_mapM fun x _ => (hg x).1]
  constructor
  · rintro (⟨x, hx, hescapes⟩ | ⟨names, -, hescapes⟩)
    · exact ⟨x, hx, (hg x).2.mp hescapes⟩
    · exact absurd hescapes (not_escapes_ok _)
  · rintro ⟨x, hx, hset⟩
    exact .inl ⟨x, hx, (hg x).2.mpr hset⟩

theorem resolvePath_escapes_iff :
    Escapes (resolvePath fs root) ↔ root.hasNull = true ∨ ∃ p, fs.resolve root = .error p := by
  unfold resolvePath
  cases root.hasNull with
  | true => exact iff_of_true (escapes_error rfl) (.inl rfl)
  | false =>
      cases hresolve : fs.resolve root with
      | ok resolved => exact iff_of_false (not_escapes_ok resolved) (by simp)
      | error p => exact iff_of_true (escapes_error rfl) (.inr ⟨p, rfl⟩)

/-- With checked settings, sources are discovered unless the root is no path, an excluded directory
cannot be in a set, or something cannot be looked up. -/
theorem discoverFiles_escapes_iff {c : Settings} (hcheck : c.check = .ok ()) :
    Escapes (discoverFiles fs c.analysis root) ↔ Escapes (resolvePath fs root) ∨
      ∃ resolved, resolvePath fs root = .ok resolved ∧
        ((∃ xs x, c.analysis.excludedDirectories = .list xs ∧ x ∈ xs ∧ x.isHashable = false) ∨
          ∃ e, Failure.OfSearch fs resolved e) := by
  obtain ⟨xs, hxs⟩ := Settings.excluded_of_check hcheck
  obtain ⟨vs, hvs, htexts⟩ := Settings.extensions_of_check hcheck
  obtain ⟨es, hes, -⟩ := Settings.ofValue_of_texts htexts
  unfold discoverFiles
  rw [hxs, hvs, escapes_bind]
  refine or_congr_right (exists_congr fun resolved => and_congr_right fun _ => ?_)
  rw [escapes_bind, excludedOfValue_escapes_iff]
  constructor
  · rintro (⟨x, hx, hset⟩ | ⟨excluded, -, hescapes⟩)
    · exact .inl ⟨xs, x, rfl, hx, hset⟩
    · exact .inr ((discover_escapes_iff hes).mp hescapes)
  · rintro (⟨ys, x, hys, hx, hset⟩ | hsearch)
    · cases hys
      exact .inl ⟨x, hx, hset⟩
    · cases hexcluded : Discovery.excludedOfValue (.list xs) with
      | ok excluded => exact .inr ⟨excluded, rfl, (discover_escapes_iff hes).mpr hsearch⟩
      | error e =>
          refine .inl ((excludedOfValue_escapes_iff xs).mp ?_)
          rw [hexcluded, escapes_error_iff]
          exact isUnreported_excluded hexcluded
where
  isUnreported_excluded {xs : List Value} {e : Failure}
      (h : Discovery.excludedOfValue (.list xs) = .error e) : e.IsUnreported := by
    refine FailsOnly.bind (.ok xs) (fun ys _ => .bind (.mapM fun x _ => ?_) fun _ _ => .ok _) e h
    split
    · exact .error rfl
    · split <;> exact .ok _

def Value.IsOversized (v : Value) : Prop :=
  ∃ n negative, v = .int n ∧ Double.ofInt n = .infinity negative

theorem seconds_escapes_iff {v : Value} (h : v.isPositive = true) : Escapes v.seconds ↔
    v.IsOversized := by
  cases v with
  | bool b =>
      cases b with
      | false => cases h
      | true =>
          constructor
          · exact fun hescapes => absurd hescapes (not_escapes_ok (Double.ofInt 1))
          · rintro ⟨n, negative, heq, -⟩
            cases heq
  | int n =>
      unfold Value.seconds
      dsimp only [Value.number?]
      split
      · rename_i negative hlarge
        exact ⟨fun _ => ⟨n, negative, rfl, hlarge⟩, fun _ => escapes_error rfl⟩
      · rename_i hsmall
        refine ⟨fun hescapes => absurd hescapes (not_escapes_ok _), ?_⟩
        rintro ⟨n', negative, heq, hlarge⟩
        cases heq
        exact absurd hlarge (hsmall negative)
  | float x =>
      constructor
      · exact fun hescapes => absurd hescapes (not_escapes_ok x)
      · rintro ⟨n, negative, heq, -⟩
        cases heq
  | _ => cases h

theorem limit_escapes_iff {c : Settings} (hcheck : c.check = .ok ()) :
    Escapes (RunOptions.limit ⟨c.analysis.workers, c.analysis.timeout⟩) ↔
      c.analysis.timeout.IsOversized := by
  have hworkers : c.analysis.workers = .null ∨ c.analysis.workers.isAtMostZero = .ok false := by
    refine (Settings.workers_of_check hcheck).imp_right fun h => ?_
    unfold Value.isPositiveWhole at h
    unfold Value.isAtMostZero
    split at h
    · rename_i n hn
      rw [hn]
      have hpositive : 0 < n := of_decide_eq_true h
      exact congrArg Except.ok (decide_eq_false (by omega))
    · cases h
  have hlimit :
      RunOptions.limit ⟨c.analysis.workers, c.analysis.timeout⟩ =
        RunOptions.limit ⟨.null, c.analysis.timeout⟩ := by
    rcases hworkers with hnull | hpositive
    · rw [hnull]
    · generalize c.analysis.workers = v at hpositive
      unfold RunOptions.limit
      dsimp only
      split
      · rfl
      · rw [hpositive]
        rfl
  rw [hlimit]
  rcases Settings.timeout_of_check hcheck with hnull | hpositive
  · rw [hnull]
    refine ⟨fun hescapes => absurd hescapes (not_escapes_ok none), ?_⟩
    rintro ⟨n, negative, heq, -⟩
    cases heq
  · have hseconds :
        RunOptions.limit ⟨.null, c.analysis.timeout⟩ =
          (do return (← c.analysis.timeout.seconds).units?) := by
      unfold RunOptions.limit
      dsimp only
      split
      · rename_i hnull
        rw [hnull] at hpositive
        cases hpositive
      · rfl
    rw [hseconds, escapes_bind, seconds_escapes_iff hpositive]
    exact or_iff_left fun h => by
      obtain ⟨_, -, hescapes⟩ := h
      exact not_escapes_ok _ hescapes

/-! ## The analysis -/

theorem isTextual_fit {r : Row} (h : r.IsTextual) (columns : List String) :
    (r.fit columns).IsTextual := by
  intro cell hcell
  obtain ⟨column, -, rfl⟩ := List.mem_map.mp hcell
  dsimp only
  cases hvalue : r.cell? column with
  | none => rfl
  | some v => exact h _ (Row.mem_of_cell? hvalue)

theorem isTextual_rows {timeout : String} {os : List Outcome}
    (h : AreOutcomes fs root timeout files os) :
    ∀ r ∈ (reportOf root os).rows, r.IsTextual := by
  intro r hr
  rw [(reportOf_table rfl).2] at hr
  obtain ⟨file, hfile, rfl⟩ := List.mem_map.mp hr
  obtain ⟨depths, hdepths, hrow⟩ := analyzeFile_row (h.mem_analysed hfile) rfl
  refine isTextual_fit ?_ _
  rw [hrow, fileRow_eq hdepths]
  intro cell hcell
  obtain ⟨own, -, rfl⟩ := List.mem_map.mp hcell
  rfl

/-- What keeps an analysis from its end, or from reporting that it cannot come to it. -/
inductive AnalysisSettings.IsHindered (settings : AnalysisSettings) (fs : FileSystem)
    (root : Path) : Prop
  | null (h : root.hasNull = true)
  /-- A link leads in a circle. -/
  | circle {p : Path} (h : fs.resolve root = .error p)
  /-- A set cannot hold an excluded directory. -/
  | excluded {xs : List Value} {x : Value} (h : settings.excludedDirectories = .list xs)
      (hx : x ∈ xs) (hset : x.isHashable = false)
  /-- Something cannot be looked up among the sources. -/
  | search {resolved : Path} {e : Failure} (h : fs.resolve root = .ok resolved)
      (hsearch : e.OfSearch fs resolved)
  /-- There are files, and a limit for them that is too large. -/
  | limit {files : List Path} (h : settings.timeout.IsOversized)
      (hfiles : discoverFiles fs settings root = .ok files) (hne : files ≠ [])

theorem outcomes_escapes_iff {c : Settings} (hcheck : c.check = .ok ()) (hnames : fs.HasNames)
    (hresolved : resolvePath fs root = .ok resolved)
    (hfiles : discoverFiles fs c.analysis root = .ok files) (duration : Path → Nat) :
    Escapes (outcomes fs ⟨c.analysis.workers, c.analysis.timeout⟩ duration files resolved) ↔
      c.analysis.timeout.IsOversized ∧ files ≠ [] := by
  by_cases hne : files = []
  · rw [hne]
    exact ⟨fun hescapes => absurd hescapes (not_escapes_ok []), fun h => absurd rfl h.2⟩
  · rw [and_iff_left hne, ← limit_escapes_iff hcheck]
    cases hlimit : RunOptions.limit ⟨c.analysis.workers, c.analysis.timeout⟩ with
    | error e => rw [outcomes_of_limit_error hne hlimit, escapes_error_iff, escapes_error_iff]
    | ok limit =>
        obtain ⟨_, _, _, hdiscover⟩ := discover_of_discoverFiles hresolved hfiles
        have hplaces (f : Path) (hf : f ∈ files) : (f.relativeTo? resolved.parent).isSome := by
          obtain ⟨below, rfl, -⟩ := Discovery.exists_below hdiscover hf
          rw [← Path.parent_join_placeBelow, Path.relativeTo?_join]
          rfl
        have hnull (f : Path) (hf : f ∈ files) : f.hasNull = false :=
          hasNull_discovered hnames hdiscover hf
        obtain ⟨os, hos⟩ := exists_outcomes hlimit hplaces hnull
        rw [hos]
        exact iff_of_false (not_escapes_ok os) (not_escapes_ok limit)

theorem analyzeRoot_escapes_iff {c : Settings} {w : World} (hcheck : c.check = .ok ())
    (hnames : w.files.HasNames) (duration : Path → Nat) :
    Escapes (analyzeRoot c.analysis duration root w).1 ↔ c.analysis.IsHindered w.files root := by
  rw [analyzeRoot_result, escapes_bind, discoverFiles_escapes_iff hcheck, resolvePath_escapes_iff]
  constructor
  · rintro ((((hnull | ⟨p, hp⟩) | ⟨resolved, hresolved, ⟨xs, x, hxs, hx, hset⟩ | ⟨e, he⟩⟩)) |
      ⟨files, hfiles, hescapes⟩)
    · exact .null hnull
    · exact .circle hp
    · exact .excluded hxs hx hset
    · exact .search (resolvePath_eq_ok_iff.mp hresolved).2 he
    · obtain ⟨resolved, hresolved, -⟩ := bind_eq_ok_iff.mp hfiles
      rw [hresolved] at hescapes
      obtain ⟨_, ⟨⟩, hescapes⟩ := (escapes_bind.mp hescapes).resolve_left (not_escapes_ok resolved)
      rcases escapes_bind.mp hescapes with hescapes | ⟨os, -, hescapes⟩
      · obtain ⟨hlarge, hne⟩ :=
          (outcomes_escapes_iff hcheck hnames hresolved hfiles duration).mp hescapes
        exact .limit hlarge hfiles hne
      · exact absurd hescapes (not_escapes_ok _)
  · intro hhindered
    by_cases hroot : root.hasNull = true ∨ ∃ p, w.files.resolve root = .error p
    · exact .inl (.inl hroot)
    · obtain ⟨hnull, hcircle⟩ := not_or.mp hroot
      obtain ⟨resolved, hresolve⟩ : ∃ resolved, w.files.resolve root = .ok resolved := by
        cases hresolve : w.files.resolve root with
        | ok resolved => exact ⟨resolved, rfl⟩
        | error p => exact absurd ⟨p, hresolve⟩ hcircle
      have hresolved := resolvePath_eq_ok_iff.mpr ⟨Bool.eq_false_iff.mpr hnull, hresolve⟩
      rcases hhindered with hnull' | hp | ⟨hxs, hx, hset⟩ | ⟨hresolve', he⟩ | ⟨hlarge, hfiles, hne⟩
      · exact absurd hnull' hnull
      · exact absurd ⟨_, hp⟩ hcircle
      · exact .inl (.inr ⟨resolved, hresolved, .inl ⟨_, _, hxs, hx, hset⟩⟩)
      · rw [hresolve] at hresolve'
        cases hresolve'
        exact .inl (.inr ⟨resolved, hresolved, .inr ⟨_, he⟩⟩)
      · refine .inr ⟨_, hfiles, ?_⟩
        rw [hresolved]
        refine escapes_bind.mpr (.inr ⟨resolved, rfl, escapes_bind.mpr (.inl ?_)⟩)
        exact ((outcomes_escapes_iff hcheck hnames hresolved hfiles duration).mpr ⟨hlarge, hne⟩)

theorem analyzeRoot_talks (settings : AnalysisSettings) (duration : Path → Nat) (root : Path) :
    Action.Talks (analyzeRoot settings duration root) := by
  have haggregate (options : RunOptions) (paths : List Path) (root : Path) :
      Action.Talks (aggregate options duration paths root) := by
    intro w
    cases hos : outcomes w.files options duration paths root with
    | error e => exact ⟨w.logs, w.printed, by rw [aggregate_error hos]⟩
    | ok os =>
        obtain ⟨logs, hreport⟩ := aggregate_eq hos
        exact ⟨logs, w.printed, by rw [hreport]⟩
  exact .bind .files fun fs => .bind (.ofExcept _) fun paths =>
    .bind (.of_logs (.log _ _ _)) fun _ =>
    .bind (.ofExcept _) fun _ => .bind (haggregate _ _ _) fun report =>
      .bind (.of_logs (.log _ _ _)) fun _ => .pure report

/-! ## The report -/

namespace CommandLine

/-- What keeps a run with given settings from its end, or from reporting that it
cannot come to it. -/
inductive Hindered (a : Arguments) (used : Settings) (duration : Path → Nat) (w : World) : Prop
  /-- The analysis does not come to its end. -/
  | analysis (h : used.analysis.IsHindered w.files (Path.ofString a.path))
  /-- A report is asked for, and its directory is no text. -/
  | directory (hexport : a.noExport = false) {r : Report}
      (hreport : (analyzeRoot used.analysis duration (Path.ofString a.path) w).1 = .ok r)
      (hpath : used.output.directory.isText = false)
  /-- A report is asked for, and its writer is kept from saving it. -/
  | report (hexport : a.noExport = false) {r : Report}
      (hreport : (analyzeRoot used.analysis duration (Path.ofString a.path) w).1 = .ok r)
      {writer : Writer}
      (hwriter : Writer.make used.output.format
        { title := some used.output.title, directory := some used.output.directory } = .ok writer)
      (hhindered : writer.IsHindered r.rows w.files w.timestamp)

theorem make_of_check {used : Settings} (hcheck : used.check = .ok ()) :
    (∃ writer, used.output.directory.isText = true ∧ Writer.IsIndent writer.indent ∧
      Writer.make used.output.format
        { title := some used.output.title, directory := some used.output.directory } = .ok writer) ∨
    used.output.directory.isText = false ∧ Escapes (Writer.make used.output.format
      { title := some used.output.title, directory := some used.output.directory }) := by
  obtain ⟨name, format, hname, hformat⟩ := Settings.format_of_check hcheck
  unfold Writer.make
  rw [hname]
  dsimp only
  simp only [pure_bind, hformat]
  rw [if_neg (by simp)]
  cases hdirectory : used.output.directory with
  | str text => exact .inl ⟨_, rfl, .width 2, rfl⟩
  | torn t => exact .inl ⟨_, rfl, .width 2, rfl⟩
  | _ => exact .inr ⟨rfl, escapes_error rfl⟩

theorem save_escapes_iff {used : Settings} (hcheck : used.check = .ok ()) {rows : List Row}
    (htextual : ∀ r ∈ rows, r.IsTextual) (c : Console) (w : World) :
    Escapes ((do
      let writer ← Action.ofExcept (Writer.make used.output.format
        { title := some used.output.title, directory := some used.output.directory })
      let saved ← writer.exportToDirectory rows
      say c .success ("Report written to " ++ saved.text)) w).1 ↔
    used.output.directory.isText = false ∨ ∃ writer, Writer.make used.output.format
      { title := some used.output.title, directory := some used.output.directory } = .ok writer ∧
        writer.IsHindered rows w.files w.timestamp := by
  rcases make_of_check hcheck with ⟨writer, htext, hindent, hmake⟩ | ⟨htext, hescapes⟩
  · rw [hmake, Action.bind_of_ok (Action.ofExcept_ok _ w), Action.escapes_bind,
      Writer.exportToDirectory_escapes_iff hindent htextual]
    constructor
    · rintro (hhindered | ⟨saved, w', -, hsay⟩)
      · exact .inr ⟨_, rfl, hhindered⟩
      · obtain ⟨_, _, _, hsaid⟩ :=
          (say_succeeds c .success ("Report written to " ++ saved.text)).exists_ok w'
        rw [hsaid] at hsay
        exact absurd hsay (not_escapes_ok _)
    · rintro (hno | ⟨writer', hwriter, hhindered⟩)
      · rw [htext] at hno
        cases hno
      · cases hwriter
        exact .inl hhindered
  · obtain ⟨e, hmake, hunreported⟩ := hescapes
    rw [hmake, Action.bind_of_error (Action.ofExcept_error e w)]
    exact ⟨fun _ => .inl htext, fun _ => escapes_error hunreported⟩

theorem analyze_escapes_iff {a : Arguments} {used : Settings} {w : World}
    (hcheck : used.check = .ok ()) (hnames : w.files.HasNames) (houtput : given a.output = none)
    (hsummary : given a.summary = none) (c : Console) (duration : Path → Nat) :
    Escapes (analyze a used c duration w).1 ↔ Hindered a used duration w := by
  have hrest {r : Report} {w' : World}
      (hreport : analyzeRoot used.analysis duration (Path.ofString a.path) w = (.ok r, w')) :
      Escapes ((do
        r.printSummary c
        if !a.noExport then
          let writer ← Action.ofExcept (Writer.make used.output.format
            { title := some used.output.title, directory := some used.output.directory })
          let saved ← writer.exportToDirectory r.rows
          say c .success ("Report written to " ++ saved.text)) w').1 ↔
      a.noExport = false ∧ (used.output.directory.isText = false ∨
        ∃ writer, Writer.make used.output.format
          { title := some used.output.title,
            directory := some used.output.directory } = .ok writer ∧
            writer.IsHindered r.rows w.files w.timestamp) := by
    obtain ⟨logs, printed, hleft⟩ :=
      analyzeRoot_talks used.analysis duration (Path.ofString a.path) w
    rw [hreport] at hleft
    obtain rfl : w' = { w with logs, printed } := hleft
    obtain ⟨_, more, shown, hsummary⟩ :=
      (r.printSummary_succeeds c).exists_ok { w with logs, printed }
    have htextual : ∀ row ∈ r.rows, row.IsTextual := by
      have hresult := analyzeRoot_result used.analysis duration (Path.ofString a.path) w
      rw [hreport] at hresult
      obtain ⟨files, -, hresult⟩ := bind_eq_ok_iff.mp hresult.symm
      obtain ⟨resolved, -, hresult⟩ := bind_eq_ok_iff.mp hresult
      obtain ⟨os, hos, hr⟩ := bind_eq_ok_iff.mp hresult
      cases hr
      exact isTextual_rows (areOutcomes_of_outcomes hos)
    rw [Action.bind_of_ok hsummary]
    cases a.noExport with
    | true => exact iff_of_false (not_escapes_ok _) (fun h => Bool.noConfusion h.1)
    | false =>
        rw [and_iff_right rfl]
        exact save_escapes_iff hcheck htextual c { w with logs := more, printed := shown }
  unfold analyze
  rw [Action.escapes_bind, analyzeRoot_escapes_iff hcheck hnames]
  simp only [houtput, hsummary]
  constructor
  · rintro (hhindered | ⟨r, w', hreport, hescapes⟩)
    · exact .analysis hhindered
    · have hresult :
          (analyzeRoot used.analysis duration (Path.ofString a.path) w).1 = .ok r := by rw [hreport]
      obtain ⟨hexport, hdirectory | ⟨writer, hwriter, hhindered⟩⟩ := (hrest hreport).mp hescapes
      · exact .directory hexport hresult hdirectory
      · exact .report hexport hresult hwriter hhindered
  · rintro (hhindered | ⟨hexport, hresult, hdirectory⟩ | ⟨hexport, hresult, hwriter, hhindered⟩)
    · exact .inl hhindered
    · obtain ⟨w', hreport⟩ := Action.exists_world hresult
      exact .inr ⟨_, w', hreport, (hrest hreport).mpr ⟨hexport, .inl hdirectory⟩⟩
    · obtain ⟨w', hreport⟩ := Action.exists_world hresult
      exact .inr ⟨_, w', hreport, (hrest hreport).mpr ⟨hexport, .inr ⟨_, hwriter, hhindered⟩⟩⟩

end CommandLine

/-- A text stands for the raw bytes of a name: each half in it is one of those that
bytes beyond ASCII are read as. -/
def Text.Torn.IsRaw (t : Text.Torn) : Prop :=
  ∀ n, Text.Point.half n ∈ t.points → 0x480 ≤ n.val ∧ n.val < 0x500

namespace CommandLine

/-- Settings that pass the check, under whatever the command line puts over them: the run comes to
its end or to a failure that the tool reports, unless what the command line gives passes the check
as well and something hinders the run. Directories that stand for raw bytes are left out, as all
names here are texts. -/
theorem checked_settings_escape_iff (a : Arguments) (c : Settings) (console : Console)
    (duration : Path → Nat) (w : World) (hcheck : c.check = .ok ()) (hnames : w.files.HasNames)
    (houtput : given a.output = none) (hsummary : given a.summary = none)
    (_hdirectory : ∀ t, (overridden a c).output.directory = .torn t → ¬t.IsRaw) :
    (∃ e, ((withOverrides a c >>= fun used => analyze a used console duration) w).1 = .error e ∧
        e.kind.isTool = false) ↔
      (overridden a c).check = .ok () ∧ Hindered a (overridden a c) duration w := by
  show Escapes _ ↔ _
  have hchecked : withOverrides a c w =
      ((overridden a c).check.map fun _ => overridden a c, w) := by
    unfold withOverrides
    cases (overridden a c).check <;> rfl
  cases hused : (overridden a c).check with
  | error e =>
      rw [hused] at hchecked
      rw [Action.bind_of_error hchecked]
      refine iff_of_false ?_ fun h => by cases h.1
      rintro ⟨e', he, hunreported⟩
      cases he
      rw [Failure.IsUnreported, check_overridden a hcheck e hused] at hunreported
      cases hunreported
  | ok =>
      rw [hused] at hchecked
      rw [Action.bind_of_ok hchecked, and_iff_right rfl]
      exact analyze_escapes_iff hused hnames houtput hsummary console duration

/-- A directory that is no text passes the check, and the run ends in a failure that
is not reported. So do a list among the excluded directories, a set as a title and a
root that may not be entered. -/
theorem checked_settings_escape :
    let files : FileSystem := { entries := [(["A.java"], .file (.bytes []))] }
    let closed : FileSystem :=
      { entries := [(["d"], .directory), (["d", "A.java"], .file (.bytes []))]
        denied := [(["d"], .enter)] }
    let a : Arguments := { path := "A.java" }
    let inside : Arguments := { path := "d" }
    let run (a : Arguments) (fs : FileSystem) (c : Settings) :=
      ((withOverrides a c >>= fun used => analyze a used { rich := false } fun _ => 0)
        { files := fs }).1
    let noDirectory : Settings := { output.directory := .null }
    let listExcluded : Settings := { analysis.excludedDirectories := .list [.list []] }
    let setTitle : Settings := { output.title := .set [.str "a"], output.format := .str "json" }
    files.HasNames ∧ closed.HasNames ∧
      (noDirectory.check = .ok () ∧ run a files noDirectory =
          .error (.wrongType "expected str, bytes or os.PathLike object, not NoneType") ∧
        Hindered a (overridden a noDirectory) (fun _ => 0) { files }) ∧
      (listExcluded.check = .ok () ∧
          run a files listExcluded = .error (.wrongType "unhashable type: 'list'") ∧
        Hindered a (overridden a listExcluded) (fun _ => 0) { files }) ∧
      (setTitle.check = .ok () ∧ run a files setTitle =
          .error (.wrongType "Object of type set is not JSON serializable") ∧
        Hindered a (overridden a setTitle) (fun _ => 0) { files }) ∧
      (Settings.check {} = .ok () ∧ run inside closed {} = .error (.file .denied "/d/A.java") ∧
        Hindered inside (overridden inside {}) (fun _ => 0) { files := closed }) := by
  intro files closed a inside run noDirectory listExcluded setTitle
  have hfiles : files.HasNames := by decide
  have hclosed : closed.HasNames := by decide
  have hindered {a : Arguments} {fs : FileSystem} {c : Settings} {e : Failure}
      (hcheck : c.check = .ok ()) (hnames : fs.HasNames) (houtput : given a.output = none)
      (hsummary : given a.summary = none)
      (htext : ∀ t, (overridden a c).output.directory ≠ .torn t)
      (hrun : run a fs c = .error e) (he : e.kind.isTool = false) :
      Hindered a (overridden a c) (fun _ => 0) { files := fs } :=
    ((checked_settings_escape_iff a c { rich := false } (fun _ => 0) { files := fs } hcheck hnames
      houtput hsummary fun t ht => absurd ht (htext t)).mp ⟨e, hrun, he⟩).2
  have hno : noDirectory.check = .ok () := by decide +kernel
  have hlist : listExcluded.check = .ok () := by decide +kernel
  have hset : setTitle.check = .ok () := by decide +kernel
  have hplain : Settings.check {} = .ok () := by decide +kernel
  have hnoRun : run a files noDirectory =
      .error (.wrongType "expected str, bytes or os.PathLike object, not NoneType") := by
    decide +kernel
  have hlistRun : run a files listExcluded = .error (.wrongType "unhashable type: 'list'") := by
    decide +kernel
  have hsetRun : run a files setTitle =
      .error (.wrongType "Object of type set is not JSON serializable") := by decide +kernel
  have hclosedRun : run inside closed {} = .error (.file .denied "/d/A.java") := by decide +kernel
  exact ⟨hfiles, hclosed,
    ⟨hno, hnoRun, hindered hno hfiles rfl rfl (fun t => Value.noConfusion) hnoRun rfl⟩,
    ⟨hlist, hlistRun, hindered hlist hfiles rfl rfl (fun t => Value.noConfusion) hlistRun rfl⟩,
    ⟨hset, hsetRun, hindered hset hfiles rfl rfl (fun t => Value.noConfusion) hsetRun rfl⟩,
    ⟨hplain, hclosedRun, hindered hplain hclosed rfl rfl
      (fun t => Value.noConfusion) hclosedRun rfl⟩⟩

end CommandLine

end ImportAudit
