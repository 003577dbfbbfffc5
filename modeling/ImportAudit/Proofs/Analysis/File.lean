import ImportAudit.Analysis.File
import ImportAudit.Proofs.Sequencing
import ImportAudit.Proofs.Text.Encoding

/-!
# What the analysis of a file can come to

An analysis that ends without a failure gives a record of the step that went wrong, or a row. The
three ways are told apart once; what later proofs need of an outcome is read off from there.
-/

namespace ImportAudit

variable {fs : FileSystem} {path root : Path} {o : Outcome}

def Findings.ofTree (depths : List (String × String)) (tree : Java.Tree) : Findings :=
  let usage := UsageIndex.ofReferences tree.references
  let verdict := Verdict.classify tree.imports usage
  ⟨fileRow depths verdict, usage, verdict⟩

theorem recover_eq_ok {α : Type} {recoverable : Kind → Bool} {stage : Stage}
    {result : Except Failure α} {r : Except ErrorRecord α}
    (h : recover recoverable stage path result = .ok r) :
    (∃ a, result = .ok a ∧ r = .ok a) ∨
    ∃ f, result = .error f ∧ recoverable f.kind = true ∧ r = .error (.ofFailure stage path f) := by
  unfold recover at h
  cases result with
  | ok a => exact .inl ⟨a, rfl, (Except.ok.inj h).symm⟩
  | error f =>
      dsimp only at h
      split at h
      next hrecoverable => exact .inr ⟨f, rfl, hrecoverable, (Except.ok.inj h).symm⟩
      next => cases h

/-- A file is dropped because it cannot be read or because it cannot be parsed,
or else it gets a row. -/
theorem analyzeFile_cases (h : analyzeFile fs path root = .ok o) :
    (∃ f, readSource fs .utf8 path = .error f ∧ o = ⟨path, .error (.ofFailure .read path f)⟩) ∨
    (∃ source f, readSource fs .utf8 path = .ok source ∧ parseSource path.text source = .error f ∧
      o = ⟨path, .error (.ofFailure .parse path f)⟩) ∨
    ∃ source tree depths, readSource fs .utf8 path = .ok source ∧
      parseSource path.text source = .ok tree ∧ pathDepths path root = .ok depths ∧
      o = ⟨path, .ok (.ofTree depths tree)⟩ := by
  unfold analyzeFile at h
  obtain ⟨read, hread, h⟩ := bind_eq_ok_iff.mp h
  rcases recover_eq_ok hread with ⟨source, hsource, rfl⟩ | ⟨f, hf, -, rfl⟩
  · obtain ⟨parsed, hparsed, h⟩ := bind_eq_ok_iff.mp h
    rcases recover_eq_ok hparsed with ⟨tree, htree, rfl⟩ | ⟨f, hf, -, rfl⟩
    · obtain ⟨depths, hdepths, h⟩ := bind_eq_ok_iff.mp h
      exact .inr (.inr ⟨source, tree, depths, hsource, htree, hdepths, (Except.ok.inj h).symm⟩)
    · exact .inr (.inl ⟨source, f, hsource, hf, (Except.ok.inj h).symm⟩)
  · exact .inl ⟨f, hf, (Except.ok.inj h).symm⟩

theorem analyzeFile_path (h : analyzeFile fs path root = .ok o) : o.path = path := by
  rcases analyzeFile_cases h with ⟨f, -, rfl⟩ | ⟨source, f, -, -, rfl⟩ |
    ⟨source, tree, depths, -, -, -, rfl⟩
  · rfl
  · rfl
  · rfl

theorem analyzeFile_row {findings : Findings} (h : analyzeFile fs path root = .ok o)
    (hfindings : o.result = .ok findings) :
    ∃ depths, pathDepths path root = .ok depths ∧
      findings.row = fileRow depths findings.verdict := by
  rcases analyzeFile_cases h with ⟨f, -, rfl⟩ | ⟨source, f, -, -, rfl⟩ |
    ⟨source, tree, depths, -, -, hdepths, rfl⟩
  · cases hfindings
  · cases hfindings
  · cases hfindings
    exact ⟨depths, hdepths, rfl⟩

/-! ## Outcomes of files that took too long -/

def Outcome.IsTimeout (o : Outcome) : Prop :=
  ∃ r, o.result = .error r ∧ r.kind = .timeout

theorem isTimeout_lateOutcome (limit : String) (path : Path) : (lateOutcome limit path).IsTimeout :=
  ⟨_, rfl, rfl⟩

theorem readSource_kind {encoding : Text.Encoding} {f : Failure}
    (h : readSource fs encoding path = .error f) :
    f.kind ≠ .timeout := by
  unfold readSource at h
  split at h
  next fault _ =>
    cases h
    cases fault <;> simp [Failure.kind, FileFault.kind]
  next => cases h; simp [Failure.kind]
  next bytes _ =>
    cases hdecode : Text.decode encoding bytes with
    | ok source => rw [hdecode] at h; cases h
    | error fault => rw [hdecode] at h; cases h; simp [Failure.kind]

/-- No text is lost on the way through its bytes. -/
theorem parseSource_eq (file source : String) :
    parseSource file source =
      match (Java.parse source).firstFaultLine? with
      | some line => .error (.malformedSource file (some line) "malformed Java source")
      | none => .ok (Java.parse source) := by
  unfold parseSource parseBytes
  rw [Text.decode_encodeUtf8]
  rfl

theorem parseSource_eq_ok_iff {file source : String} {tree : Java.Tree} :
    parseSource file source = .ok tree ↔
      tree = Java.parse source ∧ tree.firstFaultLine? = none := by
  rw [parseSource_eq]
  split
  next line hline =>
    constructor
    · intro h
      cases h
    · rintro ⟨rfl, hnone⟩
      cases hline.symm.trans hnone
  next hnone =>
    constructor
    · rintro ⟨⟩
      exact ⟨rfl, hnone⟩
    · rintro ⟨rfl, -⟩
      rfl

theorem parseSource_kind {file source : String} {f : Failure}
    (h : parseSource file source = .error f) : f.kind = .parse := by
  rw [parseSource_eq] at h
  split at h
  next => cases h; rfl
  next => cases h

/-- The analysis itself never says so: only the loop that waits for it does. -/
theorem analyzeFile_not_isTimeout (h : analyzeFile fs path root = .ok o) : ¬o.IsTimeout := by
  rintro ⟨r, hr, hkind⟩
  rcases analyzeFile_cases h with ⟨f, hf, rfl⟩ | ⟨source, f, -, hf, rfl⟩ |
    ⟨source, tree, depths, -, -, -, rfl⟩
  · cases hr
    exact readSource_kind hf hkind
  · cases hr
    have hparse : f.kind = .parse := parseSource_kind hf
    have htimeout : f.kind = .timeout := hkind
    rw [hparse] at htimeout
    cases htimeout
  · cases hr

end ImportAudit
