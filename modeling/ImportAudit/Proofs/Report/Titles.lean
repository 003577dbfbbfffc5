import ImportAudit.Proofs.Report.Failures

/-!
# Reports that are not saved and why

A report is saved in a directory that is made for it. A writer reports directories that cannot be
made and files that cannot be saved. What it does not report is a directory that is no path, a title
that has no form in the format, and a fault beside the place that it passes on.
-/

namespace ImportAudit

/-! ## Titles -/

namespace Writer

variable {writer : Writer} {rows : List Row} {path : Path}

def acceptsTitle (w : Writer) (columns : Nat) : Bool :=
  match w.format with
  | .json => Json.hasText false w.title
  | .xlsx => (Sheet.titleCells w.title columns).isOk

/-- Whether a writer finds out that its title has no form before it writes anything. -/
def refusesTitle (w : Writer) : Bool :=
  match w.format with
  | .json => !Json.hasText true w.title
  | .xlsx => false

theorem hasText_document_textual (ascii : Bool) (title : Value)
    (htextual : ∀ r ∈ rows, r.IsTextual) :
    Json.hasText ascii (document title rows) = Json.hasText ascii title := by
  rw [Bool.eq_iff_iff, hasText_document]
  refine and_iff_left fun r hr c _ => ?_
  rw [(htextual r hr).shown]
  rfl

/-- A report of texts has a draft that is whole exactly if the title has a form. -/
theorem draft_cases (hindent : IsIndent writer.indent) (htextual : ∀ r ∈ rows, r.IsTextual) :
    (writer.acceptsTitle (Table.unionColumns rows).length = true ∧
      ∃ c, writer.draft rows = .ok (.whole c)) ∨
    (writer.acceptsTitle (Table.unionColumns rows).length = false ∧
      ((writer.refusesTitle = true ∧ ∃ f, writer.draft rows = .error f ∧ f.IsUnforeseen) ∨
        writer.refusesTitle = false ∧
          ∃ c f, writer.draft rows = .ok (.broken c f) ∧ f.IsUnforeseen)) := by
  unfold draft acceptsTitle refusesTitle
  cases writer.format with
  | json =>
      obtain ⟨unit, hunit, -⟩ := hindent.indentation
      have hprint : writer.documentText rows =
          Json.printCharacters unit (document writer.title rows) := by
        unfold documentText
        rw [hunit]
        rfl
      have hfails := printCharacters_failsOnly unit (document writer.title rows)
      dsimp only
      rw [hprint, ← hasText_document_textual false writer.title htextual,
        ← hasText_document_textual true writer.title htextual]
      rcases Json.printCharacters_cases unit (document writer.title rows) with
        ⟨hchars, s, -, hs⟩ | ⟨hascii, hchars, e, he⟩ | ⟨hascii, hchars, s, fault, hfault⟩
      · rw [hs]
        exact .inl ⟨hchars, _, rfl⟩
      · rw [he]
        exact .inr ⟨hchars, .inr ⟨by rw [hascii]; rfl, _, _, rfl, rfl⟩⟩
      · rw [hfault] at hfails ⊢
        exact .inr ⟨hchars, .inl ⟨by rw [hascii]; rfl, _, rfl, hfails _ rfl⟩⟩
  | xlsx =>
      have hfails := Sheet.workbook_isUnforeseen writer.title rows
      unfold Sheet.workbook at hfails ⊢
      dsimp only at hfails ⊢
      rw [Sheet.headerCells_eq, Sheet.mapM_rowCells_textual htextual] at hfails ⊢
      cases hcells : Sheet.titleCells writer.title (Table.unionColumns rows).length with
      | ok first => exact .inl ⟨rfl, _, rfl⟩
      | error f =>
          rw [hcells] at hfails
          exact .inr ⟨rfl, .inr ⟨rfl, _, _, rfl, hfails f rfl⟩⟩

/-! ## Saving at a path -/

theorem not_isUnreported_notSaved (writer : Writer) (path : Path) :
    ¬(writer.notSaved path).IsUnreported := by
  unfold notSaved
  cases writer.format <;> exact Bool.noConfusion

theorem isUnreported_refusal_iff {fs : FileSystem} :
    (fs.refusal path writer.passesOn (writer.notSaved path)).IsUnreported ↔
      ∃ fault, fs.remove path.temporary = .error fault ∧ writer.passesOn fault = true := by
  rcases refusal_cases fs path writer.passesOn (writer.notSaved path) with
    ⟨hrefusal, hnone⟩ | ⟨fault, hrefusal, hremove, hpasses⟩
  · rw [hrefusal]
    refine iff_of_false (writer.not_isUnreported_notSaved path) ?_
    rintro ⟨fault, hfault, hpasses⟩
    rw [hnone fault hfault] at hpasses
    cases hpasses
  · rw [hrefusal]
    exact iff_of_true (Failure.isUnreported_file _ _) ⟨fault, hremove, hpasses⟩

theorem remove_of_accepts {fs : FileSystem} (hname : path.name ≠ "") (h : fs.Accepts path)
    {fault : FileFault} (hremove : fs.remove path.temporary = .error fault) :
    fault = .notFound := by
  obtain ⟨⟨l, hroom⟩, -, beside, -, hlocated, -, -, hholder⟩ := h
  obtain ⟨place, beside', hplaces, hfollow⟩ := hroom.exists_places hname
  obtain rfl := Except.ok.inj (hlocated.symm.trans hplaces.locatedBeside)
  rcases hroom.remove_written hplaces hfollow (c := .bytes []) with
    ⟨-, hbefore⟩ | ⟨fault', -, hwritten, -⟩
  · exact hbefore fault hremove
  · obtain ⟨e, he, hne, -⟩ := hroom.written_beside hplaces hfollow (c := .bytes [])
    rw [FileSystem.remove_of_entry ((hroom.keeps _).locate hlocated) he hne,
      hroom.holder_iff.mpr hholder] at hwritten
    cases hwritten

/-- Saving fails without a report exactly if the title has no form and that is found
out, or a fault is passed on. -/
theorem export_escapes_iff (hindent : IsIndent writer.indent)
    (htextual : ∀ r ∈ rows, r.IsTextual) (hname : path.name ≠ "") (hrows : rows ≠ []) (w : World) :
    Escapes (writer.export_ rows path w).1 ↔
      (writer.acceptsTitle (Table.unionColumns rows).length = false ∧
        (writer.refusesTitle = true ∨ ∃ l, w.files.HasRoom path.temporary l)) ∨
      ∃ fault, w.files.remove path.temporary = .error fault ∧ writer.passesOn fault = true := by
  rcases draft_cases hindent htextual with
    ⟨hform, c, hdraft⟩ | ⟨hform, ⟨hrefuses, f, hdraft, hf⟩ | ⟨hrefuses, c, f, hdraft, hf⟩⟩
  · rw [hform]
    rcases export_cases hname hrows hdraft w with
      ⟨⟨w', hreturns⟩, haccepts, -⟩ | ⟨_, _, _, -, hd, -⟩ | ⟨w', hrefused, -⟩
    · rw [hreturns]
      refine iff_of_false (not_escapes_ok _) ?_
      rintro (⟨hno, -⟩ | ⟨fault, hremove, hpasses⟩)
      · cases hno
      · rw [remove_of_accepts hname haccepts hremove, passesOn_notFound] at hpasses
        cases hpasses
    · cases hd
    · rw [hrefused, escapes_error_iff, isUnreported_refusal_iff]
      simp
  · rw [export_of_error hrows hdraft, escapes_error_iff]
    exact iff_of_true hf.isUnreported (.inl ⟨hform, .inl hrefuses⟩)
  · rw [hform, hrefuses]
    rcases export_cases hname hrows hdraft w with
      ⟨-, -, _, hd⟩ | ⟨_, g, w', hbroken, hd, hroom⟩ | ⟨w', hrefused, hroom | ⟨-, _, hd⟩⟩
    · cases hd
    · cases hd
      rw [hbroken, escapes_error_iff]
      exact iff_of_true hf.isUnreported (.inl ⟨rfl, .inr hroom⟩)
    · rw [hrefused, escapes_error_iff, isUnreported_refusal_iff]
      simp [hroom]
    · cases hd

/-! ## Saving in a directory -/

def place (writer : Writer) (directory : Path) (timestamp : String) : Path :=
  directory.child (writer.name ++ "_" ++ timestamp ++ "." ++ writer.extension)

theorem name_place (writer : Writer) (directory : Path) (timestamp : String) :
    (writer.place directory timestamp).name ≠ "" := by
  have hname : (writer.place directory timestamp).name =
      writer.name ++ "_" ++ timestamp ++ "." ++ writer.extension := by
    simp [place, Path.name, Path.child]
  rw [hname]
  intro hempty
  have hlength := congrArg String.length hempty
  simp at hlength

theorem exportToDirectory_apply {directory : Path} (hdirectory : writer.directory = .ok directory)
    (rows : List Row) (w : World) :
    (∃ fs, w.files.makeDirectories directory = (fs, none) ∧
      writer.exportToDirectory rows w =
        writer.export_ rows (writer.place directory w.timestamp) { w with files := fs }) ∨
    ∃ fs fault, w.files.makeDirectories directory = (fs, some fault) ∧
      (writer.exportToDirectory rows w).1 = .error (if fault = .nullCharacter
        then .file fault directory.text else .directoryCreation
          ("[" ++ writer.name ++ "] Failed to create output directory: " ++ directory.text)) := by
  obtain ⟨⟨fs, fault⟩, hmade⟩ : ∃ made, w.files.makeDirectories directory = made := ⟨_, rfl⟩
  unfold exportToDirectory
  rw [hdirectory]
  rw [Action.bind_of_ok
    (show Action.ofExcept (Except.mapError Failure.unencodable (.ok directory)) w =
    (.ok directory, w) from rfl)]
  cases fault with
  | none =>
      left
      refine ⟨fs, hmade, ?_⟩
      have hmake : Action.makeDirectories directory w = (.ok (), { w with files := fs }) := by
        unfold Action.makeDirectories
        rw [Action.bind_of_ok (Action.files_apply w), hmade]
        rfl
      rw [Action.bind_of_ok (Action.orOnSystemFailure_of_ok hmake)]
      rfl
  | some fault =>
      right
      refine ⟨fs, fault, hmade, ?_⟩
      have hmake : Action.makeDirectories directory w =
          (.error (.file fault directory.text), { w with files := fs }) := by
        unfold Action.makeDirectories
        rw [Action.bind_of_ok (Action.files_apply w), hmade]
        rfl
      have hfailed := Action.orOnSystemFailure_of_error (b := fun _ => Action.fail
        (.directoryCreation ("[" ++ writer.name ++ "] Failed to create output directory: "
          ++ directory.text))) hmake
      by_cases hnull : fault = .nullCharacter
      · have hsystem : ¬(Failure.file fault directory.text).kind.isSystem = true := by
          rw [hnull]
          exact Bool.false_ne_true
        rw [if_neg hsystem] at hfailed
        rw [Action.bind_of_error hfailed, if_pos hnull]
      · rw [if_pos (isSystem_file hnull _)] at hfailed
        rw [Action.bind_of_error hfailed, if_neg hnull]

/-- What keeps a writer from saving rows in its directory, or from reporting that it cannot. -/
inductive IsHindered (writer : Writer) (rows : List Row) (fs : FileSystem) (timestamp : String) :
    Prop
  /-- The directory has no encoding. -/
  | torn {e : Text.EncodeFault} (h : writer.directory = .error e)
  /-- The directory has a null character in it. -/
  | null {directory : Path} (h : writer.directory = .ok directory)
      (hnull : directory.hasNull = true)
  /-- The title has no form, which is found out before or after something can be written. -/
  | title {directory : Path} (h : writer.directory = .ok directory) {fs' : FileSystem}
      (hmade : fs.makeDirectories directory = (fs', none)) (hrows : rows ≠ [])
      (htitle : writer.acceptsTitle (Table.unionColumns rows).length = false)
      (hfound : writer.refusesTitle = true ∨
        ∃ l, fs'.HasRoom (writer.place directory timestamp).temporary l)
  /-- What is beside the place cannot be removed, and that is passed on. -/
  | passedOn {directory : Path} (h : writer.directory = .ok directory) {fs' : FileSystem}
      (hmade : fs.makeDirectories directory = (fs', none)) (hrows : rows ≠ []) {fault : FileFault}
      (hremove : fs'.remove (writer.place directory timestamp).temporary = .error fault)
      (hpasses : writer.passesOn fault = true)

theorem exportToDirectory_escapes_iff (hindent : IsIndent writer.indent)
    (htextual : ∀ r ∈ rows, r.IsTextual) (w : World) :
    Escapes (writer.exportToDirectory rows w).1 ↔
      writer.IsHindered rows w.files w.timestamp := by
  cases hdirectory : writer.directory with
  | error e =>
      have hfails : (writer.exportToDirectory rows w).1 = .error (.unencodable e) := by
        unfold exportToDirectory
        rw [hdirectory]
        rfl
      rw [hfails]
      exact iff_of_true (escapes_error rfl) (.torn hdirectory)
  | ok directory =>
      have hsame {directory' : Path} (h : writer.directory = .ok directory') :
          directory' = directory := Except.ok.inj (h.symm.trans hdirectory)
      rcases exportToDirectory_apply hdirectory rows w with
        ⟨fs, hmade, hexport⟩ | ⟨fs, fault, hmade, hfails⟩
      · have hnull : ¬directory.hasNull = true := by
          intro hnull
          rw [FileSystem.makeDirectories_null hnull] at hmade
          cases hmade
        have hfs {fs' : FileSystem} (h : w.files.makeDirectories directory = (fs', none)) :
            fs' = fs := by
          rw [hmade] at h
          exact (Prod.mk.inj h).1.symm
        rw [hexport]
        by_cases hrows : rows = []
        · subst hrows
          rw [export_empty]
          refine iff_of_false (fun h => ?_) ?_
          · obtain ⟨e, he, hunreported⟩ := h
            cases he
            cases hunreported
          · rintro (h | ⟨h, hnull'⟩ | ⟨-, -, hrows, -⟩ | ⟨-, -, hrows, -⟩)
            · rw [hdirectory] at h
              cases h
            · exact hnull (hsame h ▸ hnull')
            · exact hrows rfl
            · exact hrows rfl
        · rw [export_escapes_iff hindent htextual (writer.name_place directory _) hrows]
          constructor
          · rintro (⟨htitle, hfound⟩ | ⟨fault, hremove, hpasses⟩)
            · exact .title hdirectory hmade hrows htitle hfound
            · exact .passedOn hdirectory hmade hrows hremove hpasses
          · rintro (h | ⟨h, hnull'⟩ | ⟨h, hmade', -, htitle, hfound⟩ | ⟨h, hmade', -,
              hremove, hpasses⟩)
            · rw [hdirectory] at h
              cases h
            · exact absurd (hsame h ▸ hnull') hnull
            · obtain rfl := hsame h
              obtain rfl := hfs hmade'
              exact .inl ⟨htitle, hfound⟩
            · obtain rfl := hsame h
              obtain rfl := hfs hmade'
              exact .inr ⟨_, hremove, hpasses⟩
      · have hno {fs' : FileSystem} (h : w.files.makeDirectories directory = (fs', none)) :
            False := by
          rw [hmade] at h
          cases h
        rw [hfails, escapes_error_iff]
        constructor
        · intro hunreported
          refine .null hdirectory ?_
          by_contra hnull
          rw [if_neg (FileSystem.makeDirectories_fault (Bool.eq_false_iff.mpr hnull) hmade)]
            at hunreported
          cases hunreported
        · rintro (h | ⟨h, hnull⟩ | ⟨h, hmade', -⟩ | ⟨h, hmade', -⟩)
          · rw [hdirectory] at h
            cases h
          · obtain rfl := hsame h
            rw [FileSystem.makeDirectories_null hnull] at hmade
            cases hmade
            exact Failure.isUnreported_file _ _
          · exact (hno (hsame h ▸ hmade')).elim
          · exact (hno (hsame h ▸ hmade')).elim

end Writer

end ImportAudit
