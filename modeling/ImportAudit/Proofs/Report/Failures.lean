import ImportAudit.Proofs.Analysis.Failures
import ImportAudit.Proofs.Report.Document

/-!
# How saving a report fails

Saving fails where the path does not accept a file, and where a text has no encoding.  Both writers
report the first in their own words, but for faults that they pass on: the one for workbooks passes
on every fault that keeps it from removing what is beside the place.
-/

namespace ImportAudit

open Failure (NotSystem)

namespace Writer

variable {writer : Writer} {title : String} {rows : List Row} {path : Path} {d : Draft}

theorem export_empty (writer : Writer) (path : Path) (w : World) :
    writer.export_ [] path w =
      (.error (.emptyDataset ("[" ++ writer.name ++ "] No data to export")), w) := rfl

theorem passesOn_notFound (writer : Writer) : writer.passesOn .notFound = false := by
  unfold passesOn
  cases writer.format <;> rfl

theorem refusal_cases (fs : FileSystem) (path : Path) (passes : FileFault → Bool) (f : Failure) :
    (fs.refusal path passes f = f ∧
      ∀ fault, fs.remove path.temporary = .error fault → passes fault = false) ∨
    ∃ fault, fs.refusal path passes f = .file fault path.temporary.text ∧
      fs.remove path.temporary = .error fault ∧ passes fault = true := by
  unfold FileSystem.refusal
  cases fs.remove path.temporary with
  | ok fs' => exact .inl ⟨rfl, fun _ h => by cases h⟩
  | error fault =>
      cases hpasses : passes fault with
      | true => exact .inr ⟨fault, if_pos hpasses, rfl, hpasses⟩
      | false =>
          refine .inl ⟨if_neg (by simp [hpasses]), ?_⟩
          rintro _ ⟨⟩
          exact hpasses

/-- How an attempt to save rows ends: the path accepts a file and the draft is whole, the draft
breaks off, or it is given up. -/
theorem export_cases (hname : path.name ≠ "") (hrows : rows ≠ [])
    (hdraft : writer.draft rows = .ok d) (w : World) :
    ((∃ w', writer.export_ rows path w = (.ok path, w')) ∧ w.files.Accepts path ∧
      ∃ c, d = .whole c) ∨
    (∃ c f w', writer.export_ rows path w = (.error f, w') ∧ d = .broken c f ∧
      ∃ l, w.files.HasRoom path.temporary l) ∨
    ∃ w', writer.export_ rows path w =
        (.error (w.files.refusal path writer.passesOn (writer.notSaved path)), w') ∧
      ((∀ l, ¬w.files.HasRoom path.temporary l) ∨ ¬w.files.Accepts path ∧ ∃ c, d = .whole c) := by
  have hsaves := export_saves hname hrows hdraft
  by_cases hroom : ∃ l, w.files.HasRoom path.temporary l
  · obtain ⟨l, hroom⟩ := hroom
    cases d with
    | broken c f => exact .inr (.inl ⟨c, f, _, hsaves.broken rfl hroom, rfl, l, hroom⟩)
    | whole c =>
        by_cases haccepts : w.files.Accepts path
        · obtain ⟨place, beside, hplaces, hfollow⟩ := hroom.exists_places hname
          obtain ⟨e, he, -⟩ := hroom.written_beside hplaces hfollow (c := c)
          obtain ⟨logs, ha⟩ := hsaves.moved rfl hroom haccepts hplaces he
          exact .inl ⟨⟨_, ha⟩, haccepts, c, rfl⟩
        · obtain ⟨cause, -, ha⟩ := hsaves.unmoved rfl hroom haccepts
          exact .inr (.inr ⟨_, ha, .inr ⟨haccepts, c, rfl⟩⟩)
  · obtain ⟨cause, -, ha⟩ := hsaves.unwritten (not_exists.mp hroom)
    exact .inr (.inr ⟨_, ha, .inl (not_exists.mp hroom)⟩)

theorem export_returns_iff (hname : path.name ≠ "") (hrows : rows ≠ [])
    (hdraft : writer.draft rows = .ok d) (w : World) :
    (∃ w', writer.export_ rows path w = (.ok path, w')) ↔
      w.files.Accepts path ∧ ∃ c, d = .whole c := by
  rcases export_cases hname hrows hdraft w with
    ⟨hreturns, haccepts⟩ | ⟨c, f, w', hfails, hd, -⟩ | ⟨w', hfails, hrefuses⟩
  · exact iff_of_true hreturns haccepts
  · refine iff_of_false ?_ ?_
    · rintro ⟨w'', hreturns⟩
      rw [hfails] at hreturns
      cases hreturns
    · rintro ⟨-, c', hd'⟩
      rw [hd] at hd'
      cases hd'
  · refine iff_of_false ?_ ?_
    · rintro ⟨w'', hreturns⟩
      rw [hfails] at hreturns
      cases hreturns
    · rintro ⟨haccepts, -⟩
      rcases hrefuses with hroom | ⟨hno, -⟩
      · obtain ⟨⟨l, hl⟩, -⟩ := haccepts
        exact hroom l hl
      · exact hno haccepts

/-- A writer fails in its own words, but for the faults that it passes on and
for drafts that break off. -/
theorem export_failure (hname : path.name ≠ "") (hrows : rows ≠ [])
    (hdraft : writer.draft rows = .ok d) {w w' : World} {f : Failure}
    (hfails : writer.export_ rows path w = (.error f, w')) :
    (f = writer.notSaved path ∧
      ∀ fault, w.files.remove path.temporary = .error fault → writer.passesOn fault = false) ∨
    (∃ fault, f = .file fault path.temporary.text ∧ w.files.remove path.temporary = .error fault ∧
      writer.passesOn fault = true) ∨
    (∃ c, d = .broken c f) ∧ ∃ l, w.files.HasRoom path.temporary l := by
  rcases export_cases hname hrows hdraft w with
    ⟨⟨w'', hreturns⟩, -⟩ | ⟨c, g, w'', hbroken, hd, hroom⟩ | ⟨w'', hrefused, -⟩
  · rw [hfails] at hreturns
    cases hreturns
  · obtain rfl : f = g := by
      rw [hfails] at hbroken
      injection hbroken with h
      exact Except.error.inj h
    exact .inr (.inr ⟨⟨c, hd⟩, hroom⟩)
  · obtain rfl : f = w.files.refusal path writer.passesOn (writer.notSaved path) := by
      rw [hfails] at hrefused
      injection hrefused with h
      exact Except.error.inj h
    rcases refusal_cases w.files path writer.passesOn (writer.notSaved path) with h | h
    · exact .inl h
    · exact .inr (.inl h)

/-! ## Failures of the file system -/

theorem printCharacters_failsOnly (indent : Option String) (v : Value) :
    FailsOnly Failure.IsUnforeseen (Json.printCharacters indent v) := by
  rcases Json.printCharacters_cases indent v with
    ⟨-, s, -, hs⟩ | ⟨-, -, e, he⟩ | ⟨-, -, s, fault, hfault⟩
  · rw [hs]
    exact .ok _
  · rw [he]
    exact .ok _
  · rw [hfault]
    exact .error (by cases fault <;> rfl)

theorem documentText_failsOnly (writer : Writer) (rows : List Row) :
    FailsOnly NotSystem (writer.documentText rows) := by
  refine .bind ?_ fun indent _ =>
    (printCharacters_failsOnly indent _).imp fun _ => NotSystem.of_isUnforeseen
  unfold indentation
  split
  all_goals first | exact .ok _ | exact .error rfl

theorem exportJson_raisesOnly (writer : Writer) (rows : List Row) (path : Path) :
    Action.RaisesOnly NotSystem (writer.exportJson rows path) :=
  .bind (.ofExcept (documentText_failsOnly writer rows)) fun _ =>
    .bind (.orOnSystemFailure (fun _ h => h) (fun _ => .fail rfl) _) fun _ => .of_logs (.log _ _ _)

theorem temporaryPath_eq {t : Path} (h : temporaryPath path = .ok t) : t = path.temporary := by
  unfold temporaryPath Path.withName? at h
  split at h
  · rename_i heq
    split at heq
    · cases heq
    · rw [← Except.ok.inj h]
      exact (Option.some.inj heq).symm
  · cases h

theorem temporaryPath_failsOnly (path : Path) : FailsOnly NotSystem (temporaryPath path) := by
  unfold temporaryPath
  split
  · exact .ok _
  · exact .error rfl

theorem exportWorkbook_raisesOnly (writer : Writer) (rows : List Row) (path : Path) :
    Action.RaisesOnly (fun e => NotSystem e ∨
        ∃ fault, fault ≠ .notFound ∧ e = .file fault path.temporary.text)
      (writer.exportWorkbook rows path) := by
  refine .bind (fun w => ?_) fun _ => .of_logs (.log _ _ _)
  unfold deposit
  cases htemporary : temporaryPath path with
  | error e =>
      rw [Action.bind_of_error (Action.ofExcept_error e w)]
      exact .error (.inl (temporaryPath_failsOnly path e htemporary))
  | ok t =>
      obtain rfl := temporaryPath_eq htemporary
      rw [Action.bind_of_ok (Action.ofExcept_ok _ w)]
      refine Action.RaisesOnly.orOnSystemFailure (fun _ => .inl) (fun _ => ?_) _ w
      exact ((Action.RaisesOnly.removeFile _).imp fun _ => .inr).bind fun _ => .fail (.inl rfl)

/-- Only the writer for workbooks lets a failure of the file system through, and only
of the file beside the place. -/
theorem export_raisesOnly (writer : Writer) (rows : List Row) (path : Path) :
    Action.RaisesOnly (fun e => NotSystem e ∨
        (writer.format = .xlsx ∧ ∃ fault, fault ≠ .notFound ∧ e = .file fault path.temporary.text))
      (writer.export_ rows path) := by
  by_cases hrows : rows = []
  · subst hrows
    exact fun w => .error (.inl rfl)
  · cases hformat : writer.format with
    | json =>
        rw [export_json hformat hrows]
        exact ((exportJson_raisesOnly writer rows path).imp fun _ => .inl).bind fun _ => .pure path
    | xlsx =>
        rw [export_xlsx hformat hrows]
        exact ((exportWorkbook_raisesOnly writer rows path).imp fun _ h => h.imp_right fun h =>
          ⟨rfl, h⟩).bind fun _ => .pure path

end Writer

theorem Report.saveSummary_raisesOnly (r : Report) (path : Path) :
    Action.RaisesOnly NotSystem (r.saveSummary path) :=
  .bind (.ofExcept ((Writer.printCharacters_failsOnly _ _).imp fun _ => NotSystem.of_isUnforeseen))
    fun _ => .orOnSystemFailure (fun _ h => h) (fun _ => .fail rfl) _

end ImportAudit
