import ImportAudit.Proofs.Analysis.Depths
import ImportAudit.Proofs.Report.Failures
import ImportAudit.Proofs.Report.Summary
import ImportAudit.Proofs.Settings.Check

/-!
# Failures of the file system on the command line

Most failures of the file system are reported as failures of the tool.  Those that are not come from
two places: a root or an entry below it that cannot be looked up, and a workbook that cannot be
removed from beside its place.
-/

namespace ImportAudit

open Failure (NotSystem)

/-! ## Settings -/

namespace ConfigFile

theorem parse_failsOnly (kind : ConfigSyntax) (text : String) :
    FailsOnly NotSystem (parse kind text) := by
  unfold parse
  split
  · split
    · exact .ok _
    · split
      · exact .error rfl
      · exact .error rfl
  · split
    · exact .ok _
    · exact .error rfl
    · rename_i hvalue _
      exact .error (.of_isUnforeseen hvalue)

theorem document_failsOnly (fs : FileSystem) (path : String) :
    FailsOnly NotSystem (document fs path) := by
  unfold document
  split
  · exact .error rfl
  · split
    · have hdecode (fault : Text.DecodeFault) : NotSystem (decodeFault (syntaxOf path) fault) := rfl
      exact .bind (.mapError hdecode _) fun _ _ => parse_failsOnly _ _
    · exact .error rfl
    · exact .error rfl

theorem read_failsOnly (fs : FileSystem) (path : String) : FailsOnly NotSystem (read fs path) := by
  refine .bind (document_failsOnly fs path) fun v _ => ?_
  split
  · exact .ok _
  · exact .error rfl

end ConfigFile

namespace Settings

theorem textOrFailure_failsOnly (v : Value) : FailsOnly NotSystem v.textOrFailure := by
  unfold Value.textOrFailure
  split
  · exact .error rfl
  · split
    · exact .ok _
    · exact .error rfl

theorem fault?_notSystem {s : Setting} {v : Value} {f : Failure} (h : fault? s v = some f) :
    NotSystem f := by
  rcases fault?_eq_some h with ⟨message, -, rfl⟩ | ⟨-, htext⟩
  · rfl
  · exact textOrFailure_failsOnly v f htext

theorem checkSetting_failsOnly (entries : List (Value × Value)) (s : Setting) :
    FailsOnly NotSystem (checkSetting entries s) := by
  unfold checkSetting
  split
  · rename_i f hfault
    obtain ⟨v, -, hfault⟩ := Option.bind_eq_some_iff.mp hfault
    exact .error (fault?_notSystem hfault)
  · exact .ok _

theorem member?_failsOnly (v : Value) (key : String) : FailsOnly NotSystem (v.member? key) := by
  have hcontains (b : Bool) (message : String) : FailsOnly NotSystem
      (if b then .error (.wrongType message) else .ok none : Except Failure (Option Value)) := by
    cases b
    · exact .ok _
    · exact .error rfl
  unfold Value.member?
  split
  case h_2 =>
    split
    · exact .ok _
    · exact .error rfl
  all_goals first | exact .ok _ | exact .error rfl | exact hcontains _ _

theorem checkData_failsOnly (data : Value) : FailsOnly NotSystem (checkData data) := by
  refine .bind (.forM fun part _ => ?_) fun _ _ => .forM fun part _ => ?_
  · refine .bind (member?_failsOnly data part.name) fun v _ => ?_
    split
    · split
      · exact .error rfl
      · exact .ok _
    · exact .ok _
  · unfold checkPart
    split
    · exact .forM fun s _ => checkSetting_failsOnly _ s
    · exact .ok _

theorem check_failsOnly (c : Settings) : FailsOnly NotSystem c.check := by
  refine .bind (.bind (.forM fun s _ => .bind ?_ fun _ _ => ?_) fun _ _ => .ok _)
    fun data _ => checkData_failsOnly data
  · unfold require
    split
    · exact .error rfl
    · exact .ok _
  · split
    · exact .error rfl
    · exact .ok _

theorem load_raisesOnly (path : Option String) (useEnvironment : Bool) :
    Action.RaisesOnly NotSystem (load path useEnvironment true) := by
  intro w
  obtain ⟨logs, hload⟩ := load_apply w path useEnvironment true
  rw [hload]
  refine .bind ?_ fun file _ => ?_
  · unfold fileMapping
    split
    · exact .ok _
    · exact ConfigFile.read_failsOnly _ _
  · rw [ofLayers_two]
    exact .bind (checkData_failsOnly _) fun _ _ => ofEntries_failsOnly (fun _ => rfl)
      (fun _ => rfl) _

end Settings

/-! ## Commands -/

namespace CommandLine

theorem say_succeeds (c : Console) (n : Console.Notice) (message : String) :
    Action.Says (say c n message) := by
  obtain ⟨text, htext⟩ := c.notice_succeeds n message
  exact .of_prints (Report.prints_show htext)

/-- A failure of looking up a root of sources or what is below it. -/
def OfSources (fs : FileSystem) (root : Path) (e : Failure) : Prop :=
  ∃ resolved, fs.resolve root = .ok resolved ∧ e.OfSearch fs resolved

theorem analyzeRoot_failsOnly (settings : AnalysisSettings) (duration : Path → Nat) (root : Path)
    (w : World) :
    FailsOnly (fun e => NotSystem e ∨ OfSources w.files root e)
      (analyzeRoot settings duration root w).1 := by
  rw [analyzeRoot_result]
  refine .bind ((discoverFiles_failsOnly settings root).imp fun _ => And.right) fun files _ => ?_
  refine .bind ((resolvePath_failsOnly root).imp fun _ h => .inl h.2) fun resolved _ => ?_
  refine .bind ?_ fun os _ => .ok _
  apply outcomes_failsOnly
  · exact (limit_ofValue _).imp fun _ h => .inl h.2
  · exact fun f _ => (analyzeFile_notSystem f _).imp fun _ => .inl

def InEffect (a : Arguments) (w : World) (used : Settings) : Prop :=
  ∃ loaded, (Settings.load a.configFile true true w).1 = .ok loaded ∧ used = overridden a loaded ∧
    used.check = .ok ()

/-- A failure of a workbook that cannot be written beside its place, and the
settings that ask for one. -/
def IsUnremoved (file : String) (used : Settings) (f : Failure) : Prop :=
  (∃ name, used.output.format = .str name ∧ Writer.format? name = some .xlsx) ∧
    ∃ fault, fault ≠ .notFound ∧ f = .file fault (Path.ofString file).temporary.text

theorem pathOfValue_failsOnly (v : Value) : FailsOnly NotSystem (Writer.pathOfValue v) := by
  unfold Writer.pathOfValue
  split
  · exact .ok _
  · exact .ok _
  · exact .error rfl
  · exact .error rfl

theorem make_cases (format : Value) (options : Writer.Options) :
    (∃ e, Writer.make format options = .error e ∧ NotSystem e) ∨
      ∃ writer name, Writer.make format options = .ok writer ∧ format = .str name ∧
        Writer.format? name = some writer.format := by
  unfold Writer.make
  dsimp only
  split
  · rename_i name
    simp only [pure_bind]
    split
    · exact .inl ⟨_, rfl, rfl⟩
    · rename_i f hformat
      split
      · exact .inl ⟨_, rfl, rfl⟩
      · split
        · rename_i v _
          cases hpath : Writer.pathOfValue v with
          | error e => exact .inl ⟨e, rfl, pathOfValue_failsOnly v e hpath⟩
          | ok p => exact .inr ⟨_, name, rfl, rfl, hformat⟩
        · exact .inr ⟨_, name, rfl, rfl, hformat⟩
  · exact .inl ⟨_, rfl, rfl⟩

theorem write_raisesOnly (used : Settings) (options : Writer.Options) (rows : List Row)
    (file : String) (c : Console) :
    Action.RaisesOnly (fun e => NotSystem e ∨ IsUnremoved file used e) (do
      let writer ← Action.ofExcept (Writer.make used.output.format options)
      let saved ← writer.export_ rows (Path.ofString file)
      say c .success ("Report written to " ++ saved.text)) := by
  rcases make_cases used.output.format options with ⟨e, hmake, hsystem⟩ |
    ⟨writer, name, hmake, hname, hformat⟩
  · rw [hmake]
    exact fun w => .error (.inl hsystem)
  · intro w
    rw [hmake, Action.bind_of_ok (Action.ofExcept_ok writer w)]
    refine Action.RaisesOnly.bind ?_ (fun saved => (say_succeeds c _ _).raisesOnly _) w
    refine (writer.export_raisesOnly rows _).imp fun e h => h.imp_right ?_
    rintro ⟨hxlsx, hfault⟩
    exact ⟨⟨name, hname, by rw [hformat, hxlsx]⟩, hfault⟩

theorem analyze_failsOnly {a : Arguments} {file : String} (hfile : given a.output = some file)
    (used : Settings) (c : Console) (duration : Path → Nat) (w : World) :
    FailsOnly (fun e => NotSystem e ∨ OfSources w.files (Path.ofString a.path) e ∨
      IsUnremoved file used e)
      (analyze a used c duration w).1 := by
  unfold analyze
  refine Action.RaisesOnly.bind_at ((analyzeRoot_failsOnly _ _ _ w).imp fun e h => h.imp_right .inl)
    fun report => ?_
  refine .bind ((report.printSummary_succeeds c).raisesOnly _) fun _ => ?_
  dsimp only
  have hexport : Action.RaisesOnly
      (fun e => NotSystem e ∨ OfSources w.files (Path.ofString a.path) e ∨ IsUnremoved file used e)
      (do
        let writer ← Action.ofExcept (Writer.make used.output.format
          { title := some used.output.title, directory := some used.output.directory })
        let saved ← writer.export_ report.rows (Path.ofString file)
        say c .success ("Report written to " ++ saved.text)) :=
    (write_raisesOnly used _ report.rows file c).imp fun _ h => h.imp_right .inr
  simp only [hfile]
  split
  on_goal 1 =>
    refine .bind ((report.saveSummary_raisesOnly _).imp fun _ => .inl) fun _ => ?_
    refine .bind ((say_succeeds c _ _).raisesOnly _) fun _ => ?_
  all_goals
    split
    · exact hexport
    · exact .pure ()

theorem perform_failsOnly {a : Arguments} {file : String} (hcommand : a.command = .analyze)
    (hfile : given a.output = some file) (c : Console) (duration : Path → Nat) (w : World) :
    FailsOnly (fun e => NotSystem e ∨ OfSources w.files (Path.ofString a.path) e ∨
      ∃ used, InEffect a w used ∧ IsUnremoved file used e) (perform a c duration w).1 := by
  obtain ⟨logs, hload⟩ := Settings.load_apply w a.configFile true true
  cases hloaded : (Settings.load a.configFile true true w).1 with
  | error e =>
      obtain ⟨w', hw'⟩ := Action.exists_world hloaded
      unfold perform
      rw [Action.bind_of_error hw']
      exact .error (.inl (Settings.load_raisesOnly _ _ w e hloaded))
  | ok loaded =>
      have hstart : Settings.load a.configFile true true w = (.ok loaded, { w with logs }) := by
        rw [hload] at hloaded ⊢
        rw [← hloaded]
      have hchecked : withOverrides a loaded { w with logs } =
          ((overridden a loaded).check.map fun _ => overridden a loaded, { w with logs }) := by
        unfold withOverrides
        cases (overridden a loaded).check <;> rfl
      unfold perform
      rw [Action.bind_of_ok hstart, hcommand]
      dsimp only
      cases hcheck : (overridden a loaded).check with
      | error e =>
          rw [hcheck] at hchecked
          rw [Action.bind_of_error hchecked]
          exact .error (.inl ((overridden a loaded).check_failsOnly e hcheck))
      | ok =>
          rw [hcheck] at hchecked
          rw [Action.bind_of_ok hchecked]
          refine (analyze_failsOnly hfile (overridden a loaded) c duration _).imp fun e h => ?_
          exact h.imp_right fun h => h.imp_right fun h => ⟨_, ⟨loaded, hloaded, rfl, hcheck⟩, h⟩

theorem load_threshold (path : Option String) (level : Level) (w : World) :
    (Settings.load path true true { w with threshold := level }).1 =
      (Settings.load path true true w).1 := by
  obtain ⟨_, hload⟩ := Settings.load_apply w path true true
  obtain ⟨_, hlevel⟩ := Settings.load_apply { w with threshold := level } path true true
  rw [hload, hlevel]
  rfl

theorem run_failsOnly {columns : Nat} {words : List String} {a : Arguments} {file : String}
    (hread : read columns words = .ok a) (hcommand : a.command = .analyze)
    (hfile : given a.output = some file) (duration : Path → Nat) (w : World) :
    FailsOnly (fun e => NotSystem e ∨ OfSources w.files (Path.ofString a.path) e ∨
      ∃ used, InEffect a w used ∧ IsUnremoved file used e) (run columns duration words w).1 := by
  have htop : ¬a.command = .top := by
    rw [hcommand]
    decide
  have hperform := perform_failsOnly hcommand hfile { rich := !a.plain, width := columns } duration
    { w with threshold := if a.verbose then .debug else .info }
  unfold run
  rw [hread]
  dsimp only
  rw [if_neg htop, Action.bind_of_ok (Action.modify_apply _ w),
    Action.bind_of_ok (Action.outcome_apply _ _)]
  generalize (perform a { rich := !a.plain, width := columns } duration
    { w with threshold := if a.verbose then .debug else .info }).1 = result at hperform ⊢
  cases result with
  | ok => exact .ok _
  | error e =>
    dsimp only
    split
    · -- The failure passes through as it is.
      refine .error ((hperform e rfl).imp_right fun h => h.imp_right ?_)
      rintro ⟨used, ⟨loaded, hloaded, hused⟩, hunremoved⟩
      rw [load_threshold] at hloaded
      exact ⟨used, ⟨loaded, hloaded, hused⟩, hunremoved⟩
    · refine Action.RaisesOnly.bind (.of_logs (.log _ _ _)) (fun _ => ?_) _
      exact ((say_succeeds _ _ _).raisesOnly _).bind fun _ => .pure _

/-- Both writers save drafts that are whole at the same paths, those that accept a file, and fail in
their own words at all others, but for the faults that they pass on: one for a null character, and
for a workbook all those that keep what is beside the place from being removed. A text without an
encoding ends in a failure of its own. An analysis whose report goes to a given path ends in a
failure of the file system only where something cannot be looked up among the sources, or where such
a fault of a workbook is passed on. -/
theorem failures_of_saving_reported (w : World) :
    (∀ (writer : Writer) (rows : List Row) (path : Path), path.name ≠ "" →
      writer.title.isText = true → Writer.IsIndent writer.indent → (∀ r ∈ rows, r.HasTexts) →
      (rows = [] → writer.export_ rows path w =
        (.error (.emptyDataset ("[" ++ writer.name ++ "] No data to export")), w)) ∧
      (rows ≠ [] → ∃ d, writer.draft rows = .ok d ∧
        ((∃ title, writer.title = .str title) → (∀ r ∈ rows, r.IsTextual) → ∃ c, d = .whole c) ∧
        ((∃ w', writer.export_ rows path w = (.ok path, w')) ↔
          w.files.Accepts path ∧ ∃ c, d = .whole c) ∧
        ∀ f w', writer.export_ rows path w = (.error f, w') →
          (f = writer.notSaved path ∧ ∀ fault,
            w.files.remove path.temporary = .error fault → writer.passesOn fault = false) ∨
          (∃ fault, f = .file fault path.temporary.text ∧
            w.files.remove path.temporary = .error fault ∧ writer.passesOn fault = true) ∨
          f.IsUnencodable ∧ (∃ c, d = .broken c f) ∧
            ∃ l, w.files.HasRoom path.temporary l)) ∧
    ∀ (columns : Nat) (duration : Path → Nat) (words : List String) (a : Arguments) (file : String)
      (w' : World) (f : Failure), read columns words = .ok a → a.command = .analyze →
      given a.output = some file → run columns duration words w = (.error f, w') →
      f.kind.isSystem = true →
      OfSources w.files (Path.ofString a.path) f ∨
        ∃ used, InEffect a w used ∧ IsUnremoved file used f := by
  refine ⟨fun writer rows path hname htitle hindent htexts => ⟨?_, fun hrows => ?_⟩, ?_⟩
  · rintro rfl
    exact writer.export_empty path w
  · obtain ⟨unit, hunit, -⟩ := hindent.indentation
    obtain ⟨d, hdraft, hbroken, hwhole, -⟩ := Writer.exists_draft hunit htitle htexts
    refine ⟨d, hdraft, hwhole, Writer.export_returns_iff hname hrows hdraft w, ?_⟩
    intro f w' hfails
    refine (Writer.export_failure hname hrows hdraft hfails).imp_right fun h => h.imp_right ?_
    rintro ⟨⟨c, hd⟩, hroom⟩
    exact ⟨hbroken c f hd, ⟨c, hd⟩, hroom⟩
  · intro columns duration words a file w' f hread hcommand hfile hrun hsystem
    have hfails : (run columns duration words w).1 = .error f := by rw [hrun]
    refine (run_failsOnly hread hcommand hfile duration w f hfails).resolve_left fun hnot => ?_
    rw [NotSystem, hsystem] at hnot
    cases hnot

/-- A workbook below a file: the fault is passed on, by the writer and by the command line. -/
theorem workbook_below_file_passed_on :
    let w : World := { files :=
      { entries := [(["A.java"], .file (.bytes [])), (["f"], .file (.bytes []))] } }
    let path := Path.ofString "f/r.xlsx"
    let writer : Writer := { format := .xlsx }
    let rows : List Row := [[("a", .str "b")]]
    let words := ["--no-rich", "analyze", "A.java", "--output", "f/r.xlsx"]
    let f : Failure := .file .notDirectory "f/r.xlsx.tmp"
    path.name ≠ "" ∧ (∀ r ∈ rows, r.HasTexts) ∧ rows ≠ [] ∧
      (writer.export_ rows path w).1 = .error f ∧
      (∃ fault, f = .file fault path.temporary.text ∧
        w.files.remove path.temporary = .error fault ∧ writer.passesOn fault = true) ∧
      ∃ a, read 80 words = .ok a ∧ a.command = .analyze ∧ given a.output = some "f/r.xlsx" ∧
        (run 80 (fun _ => 0) words w).1 = .error f ∧ f.kind.isSystem = true ∧
        (OfSources w.files (Path.ofString a.path) f ∨
          ∃ used, InEffect a w used ∧ IsUnremoved "f/r.xlsx" used f) := by
  intro w path writer rows words f
  have hname : path.name ≠ "" := by decide
  have htexts : ∀ r ∈ rows, r.HasTexts := by decide
  have hrows : rows ≠ [] := by decide
  have hexport : (writer.export_ rows path w).1 = .error f := by decide +kernel
  have hwords : ((read 80 words).toOption.map fun a => (a.command, given a.output)) =
      some (.analyze, some "f/r.xlsx") := by decide +kernel
  have hrun : (run 80 (fun _ => 0) words w).1 = .error f := by decide +kernel
  obtain ⟨w', hran⟩ := Action.exists_world hrun
  obtain ⟨w'', hexported⟩ := Action.exists_world hexport
  obtain ⟨hwriter, hline⟩ := failures_of_saving_reported w
  obtain ⟨d, -, -, -, hfailure⟩ := (hwriter writer rows path hname rfl (.width 2) htexts).2 hrows
  have hpassed : ∃ fault, f = .file fault path.temporary.text ∧
      w.files.remove path.temporary = .error fault ∧ writer.passesOn fault = true := by
    rcases hfailure f w'' hexported with ⟨hsaved, -⟩ | hpassed | ⟨⟨e, he⟩, -⟩
    · exact absurd hsaved (by decide)
    · exact hpassed
    · exact Failure.noConfusion he
  obtain ⟨a, hread, hcommand, hfile⟩ :
      ∃ a, read 80 words = .ok a ∧ a.command = .analyze ∧ given a.output = some "f/r.xlsx" := by
    generalize read 80 words = result at hwords
    cases result with
    | error stop => cases hwords
    | ok a =>
        have ha : (a.command, given a.output) = (.analyze, some "f/r.xlsx") :=
          Option.some.inj hwords
        exact ⟨a, rfl, (Prod.mk.inj ha).1, (Prod.mk.inj ha).2⟩
  exact ⟨hname, htexts, hrows, hexport, hpassed, a, hread, hcommand, hfile, hrun, rfl,
    hline 80 (fun _ => 0) words a "f/r.xlsx" w' f hread hcommand hfile hran rfl⟩

end CommandLine

end ImportAudit
