import ImportAudit.Proofs.Action
import ImportAudit.Proofs.Analysis.Failures
import ImportAudit.Proofs.Json.Texts
import ImportAudit.Proofs.Report.Places
import ImportAudit.Proofs.Report.Sheet
import ImportAudit.Report.Summary

/-!
# Saving as a whole or not at all

An attempt to save a draft at a path has four endings: the draft cannot be written beside
the place, it breaks off, it cannot be moved to its place, or it is moved. A draft that is
whole is saved as a whole or not at all, unless there is a link beside the place. One that
breaks off stays beside the place.
-/

namespace ImportAudit

open Failure (NotSystem)

/-! ## The endings of an attempt -/

/-- How an attempt to save fails: with the fault that keeps what is beside the place from being
removed, if that is passed on, and else as is reported. -/
def FileSystem.refusal (fs : FileSystem) (path : Path) (passes : FileFault → Bool)
    (reported : Failure) : Failure :=
  match fs.remove path.temporary with
  | .ok _ => reported
  | .error fault => if passes fault then .file fault path.temporary.text else reported

/-- An action that saves a draft at a path and returns a given result. -/
structure Saves {α : Type} (a : Action α) (x : α) (path : Path) (d : Draft)
    (passes : FileFault → Bool) (report : Failure → Failure) : Prop where
  unwritten {w : World} (h : ∀ l, ¬w.files.HasRoom path.temporary l) :
    ∃ cause : Failure, cause.kind.isSystem = true ∧
      a w = (.error (w.files.refusal path passes (report cause)),
        { w with files := w.files.swept path.temporary })
  broken {w : World} {l : Location} {c : Content} {f : Failure} (hd : d = .broken c f)
    (h : w.files.HasRoom path.temporary l) :
    a w = (.error f, { w with files := w.files.put l (.file c) })
  unmoved {w : World} {l : Location} {c : Content} (hd : d = .whole c)
    (h : w.files.HasRoom path.temporary l) (hrefuses : ¬w.files.Accepts path) :
    ∃ cause : Failure, cause.kind.isSystem = true ∧
      a w = (.error (w.files.refusal path passes (report cause)),
        { w with files := (w.files.put l (.file c)).swept path.temporary })
  moved {w : World} {l place beside : Location} {c : Content} {e : Entry} (hd : d = .whole c)
    (h : w.files.HasRoom path.temporary l) (haccepts : w.files.Accepts path)
    (hplaces : w.files.HasPlaces path place beside)
    (he : (w.files.put l (.file c)).entryAt? beside = some e) :
    ∃ logs, a w = (.ok x,
      { w with files := (w.files.put l (.file c)).move beside place e, logs })

namespace Saves

variable {α β : Type} {a : Action α} {x : α} {path : Path} {d : Draft} {passes : FileFault → Bool}
  {report : Failure → Failure}

theorem bind {y : β} {f : α → Action β} (h : Saves a x path d passes report)
    (hf : Action.Logs (f x) y) : Saves (a >>= f) y path d passes report where
  unwritten hroom := by
    obtain ⟨cause, hcause, ha⟩ := h.unwritten hroom
    exact ⟨cause, hcause, Action.bind_of_error ha⟩
  broken hd hroom := Action.bind_of_error (h.broken hd hroom)
  unmoved hd hroom hrefuses := by
    obtain ⟨cause, hcause, ha⟩ := h.unmoved hd hroom hrefuses
    exact ⟨cause, hcause, Action.bind_of_error ha⟩
  moved hd hroom haccepts hplaces he := by
    obtain ⟨logs, ha⟩ := h.moved hd hroom haccepts hplaces he
    obtain ⟨more, hmore⟩ := hf _
    exact ⟨more, (Action.bind_of_ok ha).trans hmore⟩

theorem ofExcept_ok (z : β) {f : β → Action α} (h : Saves (f z) x path d passes report) :
    Saves (Action.ofExcept (.ok z) >>= f) x path d passes report := by
  have hbind : Action.ofExcept (.ok z) >>= f = f z := pure_bind z f
  rwa [hbind]

theorem orOnSystemFailure (h : Saves a x path d (· != .notFound) id)
    (hd : FailsOnly NotSystem d.complete) (g : Failure) :
    Saves (a.orOnSystemFailure fun _ => Action.fail g) x path d (· == .nullCharacter)
      fun _ => g where
  unwritten {w} hroom := by
    obtain ⟨cause, hcause, ha⟩ := h.unwritten hroom
    refine ⟨cause, hcause, ?_⟩
    rw [Action.orOnSystemFailure_of_error ha]
    exact reported hcause w.files _
  broken {w l c f} hbroken hroom := by
    have hf : f.kind.isSystem = false := hd f (by rw [hbroken]; rfl)
    rw [Action.orOnSystemFailure_of_error (h.broken hbroken hroom), hf]
    rfl
  unmoved {w l c} hwhole hroom hrefuses := by
    obtain ⟨cause, hcause, ha⟩ := h.unmoved hwhole hroom hrefuses
    refine ⟨cause, hcause, ?_⟩
    rw [Action.orOnSystemFailure_of_error ha]
    exact reported hcause w.files _
  moved hd hroom haccepts hplaces he := by
    obtain ⟨logs, ha⟩ := h.moved hd hroom haccepts hplaces he
    exact ⟨logs, Action.orOnSystemFailure_of_ok ha⟩
where
  reported {cause : Failure} (hcause : cause.kind.isSystem = true) (fs : FileSystem) (w' : World) :
      (if (fs.refusal path (· != .notFound) cause).kind.isSystem then Action.fail g w'
        else (.error (fs.refusal path (· != .notFound) cause), w')) =
      ((.error (fs.refusal path (· == .nullCharacter) g), w') : Except Failure α × World) := by
    unfold FileSystem.refusal
    cases fs.remove path.temporary with
    | ok fs' =>
        dsimp only
        rw [if_pos hcause]
        rfl
    | error fault =>
        cases fault with
        | notFound => exact if_pos hcause
        | nullCharacter => rfl
        | _ => rfl

end Saves

/-! ## Drafts that are deposited -/

namespace Writer

variable {path : Path} {d : Draft}

theorem temporaryPath_of_name (hname : path.name ≠ "") :
    temporaryPath path = .ok path.temporary := by
  rw [temporaryPath, Path.withName?_temporary hname]

theorem removeFile_apply (path : Path) (f : Failure) (w : World) :
    (Action.removeFile path.temporary >>= fun _ => (Action.fail f : Action Unit)) w =
      (.error (w.files.refusal path (· != .notFound) f),
        { w with files := w.files.swept path.temporary }) := by
  unfold FileSystem.refusal FileSystem.swept
  cases hremove : w.files.remove path.temporary with
  | ok fs =>
      rw [Action.bind_of_ok (Action.removeFile_of_ok hremove)]
      rfl
  | error fault =>
      have hremoved := Action.removeFile_of_error hremove
      by_cases hfault : fault = .notFound
      · subst hfault
        rw [Action.bind_of_ok hremoved]
        rfl
      · rw [if_neg hfault] at hremoved
        rw [Action.bind_of_error hremoved]
        dsimp only
        rw [if_pos (bne_iff_ne.mpr hfault)]
        rfl

theorem isSystem_file {fault : FileFault} (h : fault ≠ .nullCharacter) (text : String) :
    (Failure.file fault text).kind.isSystem = true := by
  cases fault <;> first | rfl | exact absurd rfl h

/-- What is written beside the place is removed under the same faults as what was there before. -/
theorem refusal_written {fs : FileSystem} {l : Location} {c : Content} (hname : path.name ≠ "")
    (h : fs.HasRoom path.temporary l) (f : Failure) :
    (fs.put l (.file c)).refusal path (· != .notFound) f = fs.refusal path (· != .notFound) f := by
  obtain ⟨place, beside, hplaces, hfollow⟩ := h.exists_places hname
  unfold FileSystem.refusal
  rcases h.remove_written hplaces hfollow (c := c) with
    ⟨hremove, hbefore⟩ | ⟨fault, -, hremove, hbefore⟩
  · rw [hremove]
    cases hold : fs.remove path.temporary with
    | ok fs' => rfl
    | error fault =>
        rw [hbefore fault hold]
        rfl
  · rw [hremove, hbefore]

section PutInPlace

variable {w : World} {l : Location} {c : Content}

theorem putInPlace_unwritten (d : Draft) (h : ∀ l, ¬w.files.HasRoom path.temporary l) :
    ∃ fault, putInPlace path.temporary path d w = (.error (.file fault path.temporary.text), w) ∧
      (fault = .nullCharacter → w.files.remove path.temporary = .error .nullCharacter) := by
  cases hwrite : w.files.write path.temporary d.content with
  | ok fs' =>
      obtain ⟨l, hl, -⟩ := FileSystem.write_eq_ok_iff.mp hwrite
      exact absurd hl (h l)
  | error fault =>
      refine ⟨fault, Action.bind_of_error (Action.changeFiles_of_error hwrite), ?_⟩
      rintro rfl
      have hnull : path.temporary.hasNull = true := by
        by_contra hnull
        exact FileSystem.write_neverNull (Bool.eq_false_iff.mpr hnull) _ _ hwrite rfl
      exact FileSystem.remove_of_locate_error (FileSystem.locate_null hnull)

theorem writeFile_of_room (h : w.files.HasRoom path.temporary l) (c : Content) :
    Action.writeFile path.temporary c w = (.ok (), { w with files := w.files.put l (.file c) }) :=
  Action.changeFiles_of_ok (FileSystem.write_eq_ok_iff.mpr ⟨l, h, rfl⟩)

theorem putInPlace_broken (h : w.files.HasRoom path.temporary l) (c : Content) (f : Failure) :
    putInPlace path.temporary path (.broken c f) w =
      (.error f, { w with files := w.files.put l (.file c) }) :=
  (Action.bind_of_ok (writeFile_of_room h c)).trans
    (Action.bind_of_error (Action.ofExcept_error f _))

theorem putInPlace_whole (h : w.files.HasRoom path.temporary l) (c : Content) :
    putInPlace path.temporary path (.whole c) w =
      Action.moveFile path.temporary path { w with files := w.files.put l (.file c) } :=
  (Action.bind_of_ok (writeFile_of_room h c)).trans (Action.bind_of_ok (Action.ofExcept_ok () _))

theorem putInPlace_unmoved (hname : path.name ≠ "") (h : w.files.HasRoom path.temporary l)
    (hrefuses : ¬w.files.Accepts path) (c : Content) :
    ∃ fault, fault ≠ .nullCharacter ∧ putInPlace path.temporary path (.whole c) w =
      (.error (.move fault path.temporary.text path.text),
        { w with files := w.files.put l (.file c) }) := by
  obtain ⟨place, beside, hplaces, hfollow⟩ := h.exists_places hname
  obtain ⟨e, he, -⟩ := h.written_beside hplaces hfollow (c := c)
  cases hreplace : (w.files.put l (.file c)).replace path.temporary path with
  | ok fs' => exact absurd ((h.replace_written_iff hplaces he).mp hreplace).1 hrefuses
  | error fault =>
      refine ⟨fault, ?_, (putInPlace_whole h c).trans (Action.changeFiles_of_error hreplace)⟩
      exact FileSystem.replace_neverNull (FileSystem.hasNull_of_locate hplaces.locatedBeside)
        (FileSystem.hasNull_of_locate hplaces.located) _ hreplace

end PutInPlace

theorem deposit_saves (hname : path.name ≠ "") (hd : FailsOnly NotSystem d.complete)
    (report : Failure → Failure) :
    Saves (deposit path d report) () path d (· != .notFound) report := by
  unfold deposit
  rw [temporaryPath_of_name hname]
  refine .ofExcept_ok _ { unwritten := ?_, broken := ?_, unmoved := ?_, moved := ?_ }
  · intro w hroom
    obtain ⟨fault, hput, hnull⟩ := putInPlace_unwritten d hroom
    rw [Action.orOnSystemFailure_of_error hput]
    by_cases hfault : fault = .nullCharacter
    · -- A null character is no failure of the file system, and nothing is removed.
      refine ⟨.file .notFound "", rfl, ?_⟩
      rw [FileSystem.refusal, FileSystem.swept, hnull hfault, hfault]
      rfl
    · rw [if_pos (isSystem_file hfault _)]
      exact ⟨_, isSystem_file hfault _, removeFile_apply path _ w⟩
  · rintro w l c f rfl hroom
    have hf : f.kind.isSystem = false := hd f rfl
    rw [Action.orOnSystemFailure_of_error (putInPlace_broken hroom c f), hf]
    rfl
  · rintro w l c rfl hroom hrefuses
    obtain ⟨fault, hfault, hput⟩ := putInPlace_unmoved hname hroom hrefuses c
    have hsystem : (Failure.move fault path.temporary.text path.text).kind.isSystem = true :=
      isSystem_file hfault ""
    refine ⟨_, hsystem, ?_⟩
    rw [Action.orOnSystemFailure_of_error hput, if_pos hsystem, removeFile_apply,
      refusal_written hname hroom]
  · rintro w l place beside c e rfl hroom haccepts hplaces he
    have hreplace := (hroom.replace_written_iff hplaces he).mpr ⟨haccepts, rfl⟩
    exact ⟨w.logs, Action.orOnSystemFailure_of_ok ((putInPlace_whole hroom c).trans
      (Action.changeFiles_of_ok hreplace))⟩

end Writer

/-! ## What is there afterwards -/

namespace FileSystem

variable {fs : FileSystem} {p : Path} {l : Location}

theorem linkAt?_eq_none_iff (h : fs.locate p = .ok l) :
    fs.linkAt? p = none ↔ ∀ t, fs.entryAt? l ≠ some (.link t) := by
  have hentry : (fs.locate p).toOption.bind fs.entryAt? = fs.entryAt? l := by rw [h]; rfl
  unfold linkAt?
  rw [hentry]
  split
  next target htarget => exact iff_of_false (by simp) fun hno => hno target htarget
  next hno => exact iff_of_true rfl hno

theorem Replaced.entry {fs' : FileSystem} {path : Path} {c : Content} (h : fs.Replaced fs' path c)
    (hname : path.name ≠ "") (haccepts : fs.Accepts path)
    (hbeside : fs.linkAt? path.temporary = none) (hplace : fs.linkAt? path = none) :
    ∃ place, fs.locate path = .ok place ∧ fs'.entry path = .ok (place, .file c) := by
  obtain ⟨⟨l, hroom⟩, place, beside, hlocated, hlocatedBeside, hfree, -⟩ := haccepts
  obtain ⟨place', beside', hplaces, hfollow⟩ := hroom.exists_places hname
  obtain rfl := Except.ok.inj (hlocated.symm.trans hplaces.located)
  obtain rfl := Except.ok.inj (hlocatedBeside.symm.trans hplaces.locatedBeside)
  have hnolink := (linkAt?_eq_none_iff hlocated).mp hplace
  have hnolink' := (linkAt?_eq_none_iff hlocatedBeside).mp hbeside
  obtain rfl := Except.ok.inj ((follow_of_ne_link hnolink').symm.trans hfollow)
  have hnew : fs'.entryAt? place = some (.file c) := by
    obtain ⟨place', hplace', hnew⟩ := h.saved
    rwa [Except.ok.inj (hlocated.symm.trans hplace')]
  have hothers {l : Location} (hl : l ≠ place) (hl' : l ≠ beside) :
      fs'.entryAt? l = fs.entryAt? l ∧ ∀ a, fs'.denies l a = fs.denies l a := by
    refine h.others.2 l ?_
    rintro (heq | heq)
    · exact hl (Except.ok.inj (heq.symm.trans hlocated))
    · exact hl' (Except.ok.inj (heq.symm.trans hlocatedBeside))
  have hkeeps : fs.Keeps fs' := by
    refine ⟨h.others.1, fun m hm => ?_, fun m t => ?_⟩
    · have hm' : m ≠ place := by
        rintro rfl
        exact hfree hm
      have hm'' : m ≠ beside := by
        rintro rfl
        exact hroom.ne_directory hm
      exact ⟨(hothers hm' hm'').1.trans hm, (hothers hm' hm'').2⟩
    · by_cases hm : m = place
      · subst hm
        rw [hnew]
        exact iff_of_false (by simp) (hnolink t)
      by_cases hm' : m = beside
      · subst hm'
        rw [h.nothingBeside m hlocatedBeside]
        exact iff_of_false (by simp) (hnolink' t)
      · rw [(hothers hm hm').1]
  refine ⟨place, hlocated, entry_eq_ok_iff.mpr ⟨?_, hnew, fun t ht => by cases ht⟩⟩
  rw [target_of_parts (by rw [Path.parts_eq_of_name hname]; simp)]
  exact bind_eq_ok_iff.mpr ⟨place, hkeeps.locate hlocated, follow_of_ne_link (by simp [hnew])⟩

end FileSystem

/-- An action saves a content as a whole or not at all: it returns exactly if
the path accepts a file. -/
def AllOrNothing {α : Type} (a : Action α) (x : α) (path : Path) (c : Content) (w : World) : Prop :=
  (∃ w', a w = (.ok x, w') ∧ w.files.Accepts path ∧ w.files.Replaced w'.files path c) ∨
    ∃ f w', a w = (.error f, w') ∧ ¬w.files.Accepts path ∧ w.files.Kept w'.files path

/-- What an attempt to save a draft comes to. -/
structure IsAttempt {α : Type} (a : Action α) (x : α) (path : Path) (d : Draft) (w : World) :
    Prop where
  /-- Nothing is touched but the place, what is beside it and where a link there leads. -/
  around : FileSystem.SameBut (w.files.IsAround path) w.files (a w).2.files
  /-- Without a link beside its place, a whole draft is saved as a whole or not at all. -/
  whole : ∀ c, d = .whole c → w.files.linkAt? path.temporary = none → AllOrNothing a x path c w
  /-- A draft that breaks off stays wherever it could be written. -/
  broken : ∀ c f, d = .broken c f → ∀ l, w.files.HasRoom path.temporary l →
    a w = (.error f, { w with files := w.files.put l (.file c) })
  /-- Where nothing could be written, nothing is new. -/
  unwritten : (∀ l, ¬w.files.HasRoom path.temporary l) →
    ∃ f w', a w = (.error f, w') ∧ w.files.Kept w'.files path
  /-- What a link beside the place leads to is overwritten, whether or not the draft is saved. -/
  linked : ∀ l, w.files.linkAt? path.temporary ≠ none → w.files.HasRoom path.temporary l →
    w.files.locate path ≠ .ok l → (a w).2.files.entryAt? l = some (.file d.content)

namespace Saves

variable {α : Type} {a : Action α} {x : α} {path : Path} {d : Draft} {c : Content}
  {passes : FileFault → Bool} {report : Failure → Failure}

theorem allOrNothing (h : Saves a x path (.whole c) passes report) (hname : path.name ≠ "")
    {w : World} (hlink : w.files.linkAt? path.temporary = none) :
    AllOrNothing a x path c w := by
  by_cases hroom : ∃ l, w.files.HasRoom path.temporary l
  · obtain ⟨l, hroom⟩ := hroom
    obtain ⟨place, beside, hplaces, hfollow⟩ := hroom.exists_places hname
    have hfile := (FileSystem.linkAt?_eq_none_iff hplaces.locatedBeside).mp hlink
    by_cases haccepts : w.files.Accepts path
    · obtain ⟨e, he, -, hcases⟩ := hroom.written_beside hplaces hfollow (c := c)
      obtain ⟨-, rfl⟩ : l = beside ∧ e = .file c :=
        hcases.resolve_right fun ⟨_, hsame, t, ht⟩ => hfile t (ht ▸ hsame)
      obtain ⟨logs, ha⟩ := h.moved rfl hroom haccepts hplaces he
      have hfree : w.files.entryAt? place ≠ some .directory := by
        obtain ⟨-, place', -, hplace', -, hfree, -⟩ := haccepts
        rwa [Except.ok.inj (hplaces.located.symm.trans hplace')]
      exact .inl ⟨_, ha, haccepts, hroom.replaced hplaces hfollow hfile hfree⟩
    · obtain ⟨cause, -, ha⟩ := h.unmoved rfl hroom haccepts
      exact .inr ⟨_, _, ha, haccepts, hroom.kept_written hplaces hfollow hname hfile⟩
  · obtain ⟨cause, -, ha⟩ := h.unwritten (not_exists.mp hroom)
    exact .inr ⟨_, _, ha, fun haccepts => hroom haccepts.1, FileSystem.kept_swept hname _⟩

theorem around (h : Saves a x path d passes report) (hname : path.name ≠ "") (w : World) :
    FileSystem.SameBut (w.files.IsAround path) w.files (a w).2.files := by
  by_cases hroom : ∃ l, w.files.HasRoom path.temporary l
  · obtain ⟨l, hroom⟩ := hroom
    obtain ⟨place, beside, hplaces, hfollow⟩ := hroom.exists_places hname
    have hbeside : w.files.IsAround path beside := .inr (.inl hplaces.locatedBeside)
    have hput (c : Content) := FileSystem.SameBut.put (P := w.files.IsAround path)
      (.inr (.inr hroom.1)) w.files (.file c)
    cases d with
    | broken c f =>
        rw [h.broken rfl hroom]
        exact hput c
    | whole c =>
        by_cases haccepts : w.files.Accepts path
        · obtain ⟨e, he, -⟩ := hroom.written_beside hplaces hfollow (c := c)
          obtain ⟨logs, ha⟩ := h.moved rfl hroom haccepts hplaces he
          rw [ha]
          exact (hput c).trans (.move hbeside (.inl hplaces.located) _ _)
        · obtain ⟨cause, -, ha⟩ := h.unmoved rfl hroom haccepts
          rw [ha]
          refine (hput c).trans (.swept fun m hm => ?_)
          rw [(hroom.keeps c).locate hplaces.locatedBeside] at hm
          exact Except.ok.inj hm ▸ hbeside
  · obtain ⟨cause, -, ha⟩ := h.unwritten (not_exists.mp hroom)
    rw [ha]
    exact .swept fun m hm => .inr (.inl hm)

theorem linked (h : Saves a x path d passes report) (hname : path.name ≠ "") {w : World}
    {l : Location} (hlink : w.files.linkAt? path.temporary ≠ none)
    (hroom : w.files.HasRoom path.temporary l) (hplace : w.files.locate path ≠ .ok l) :
    (a w).2.files.entryAt? l = some (.file d.content) := by
  obtain ⟨place, beside, hplaces, hfollow⟩ := hroom.exists_places hname
  have hbeside : l ≠ beside := by
    rintro rfl
    exact hlink ((FileSystem.linkAt?_eq_none_iff hplaces.locatedBeside).mpr hroom.ne_link)
  have hput (c : Content) : (w.files.put l (.file c)).entryAt? l = some (.file c) :=
    FileSystem.entryAt?_put_same hroom.ne_nil _ _
  cases d with
  | broken c f =>
      rw [h.broken rfl hroom]
      exact hput c
  | whole c =>
      by_cases haccepts : w.files.Accepts path
      · obtain ⟨e, he, -⟩ := hroom.written_beside hplaces hfollow (c := c)
        obtain ⟨logs, ha⟩ := h.moved rfl hroom haccepts hplaces he
        have hne : l ≠ place := by
          rintro rfl
          exact hplace hplaces.located
        rw [ha]
        dsimp only
        rw [FileSystem.entryAt?_move, FileSystem.entryAt?_put_of_ne hne,
          FileSystem.entryAt?_erase_of_ne hbeside, hput]
        rfl
      · obtain ⟨cause, -, ha⟩ := h.unmoved rfl hroom haccepts
        rw [ha]
        rcases FileSystem.swept_cases (w.files.put l (.file c)) path.temporary with
          heq | ⟨m, e, hm, -, -, heq⟩
        · rw [heq]
          exact hput c
        · rw [(hroom.keeps c).locate hplaces.locatedBeside] at hm
          obtain rfl := Except.ok.inj hm
          rw [heq, FileSystem.entryAt?_erase_of_ne hbeside]
          exact hput c

theorem isAttempt (h : Saves a x path d passes report) (hname : path.name ≠ "") (w : World) :
    IsAttempt a x path d w where
  around := h.around hname w
  whole c hd hlink := by
    subst hd
    exact h.allOrNothing hname hlink
  broken c f hd l hroom := h.broken hd hroom
  unwritten hroom := by
    obtain ⟨cause, -, ha⟩ := h.unwritten hroom
    exact ⟨_, _, ha, FileSystem.kept_swept hname _⟩
  linked l hlink hroom hplace := h.linked hname hlink hroom hplace

end Saves

/-! ## Reports -/

namespace Draft

theorem ofText_failsOnly (text : Except Text.EncodeFault String) :
    FailsOnly NotSystem (ofText text).complete := by
  cases text with
  | ok s => exact .ok _
  | error e => exact .error rfl

theorem ofWorkbook_failsOnly (title : Value) (rows : List Row) :
    FailsOnly NotSystem (ofWorkbook (Sheet.workbook title rows)).complete := by
  cases hsheet : Sheet.workbook title rows with
  | ok b => exact .ok _
  | error f => exact .error (.of_isUnforeseen (Sheet.workbook_isUnforeseen title rows f hsheet))

end Draft

namespace Writer

variable {writer : Writer} {rows : List Row} {path : Path} {d : Draft}

def draft (w : Writer) (rows : List Row) : Except Failure Draft :=
  match w.format with
  | .json => (w.documentText rows).map .ofText
  | .xlsx => .ok (.ofWorkbook (Sheet.workbook w.title rows))

def notSaved (w : Writer) (path : Path) : Failure :=
  match w.format with
  | .json => .export_ ("[" ++ w.name ++ "] Failed to save JSON file: " ++ path.text)
  | .xlsx => .export_ ("[" ++ w.name ++ "] Failed to save Excel file: " ++ path.text)

/-- Whether a writer passes on a fault that keeps what is beside the place from being removed.  A
workbook is removed outside of what is watched. -/
def passesOn (w : Writer) : FileFault → Bool :=
  match w.format with
  | .json => (· == .nullCharacter)
  | .xlsx => (· != .notFound)

theorem export_json (hformat : writer.format = .json) (hrows : rows ≠ []) :
    writer.export_ rows path = (do writer.exportJson rows path; return path) := by
  have hempty : ¬rows.isEmpty = true := by simpa using hrows
  unfold export_
  rw [if_neg hempty, hformat]

theorem export_xlsx (hformat : writer.format = .xlsx) (hrows : rows ≠ []) :
    writer.export_ rows path = (do writer.exportWorkbook rows path; return path) := by
  have hempty : ¬rows.isEmpty = true := by simpa using hrows
  unfold export_
  rw [if_neg hempty, hformat]

theorem export_saves (hname : path.name ≠ "") (hrows : rows ≠ [])
    (hdraft : writer.draft rows = .ok d) :
    Saves (writer.export_ rows path) path path d writer.passesOn
      fun _ => writer.notSaved path := by
  unfold draft at hdraft
  unfold passesOn notSaved
  cases hformat : writer.format with
  | json =>
      rw [hformat] at hdraft
      obtain ⟨text, htext, rfl⟩ := map_eq_ok_iff.mp hdraft
      rw [export_json hformat hrows]
      unfold exportJson
      rw [htext]
      have hsaves := (deposit_saves hname (Draft.ofText_failsOnly text) id).orOnSystemFailure
        (Draft.ofText_failsOnly text)
        (.export_ ("[" ++ writer.name ++ "] Failed to save JSON file: " ++ path.text))
      exact ((hsaves.bind (Action.Logs.log _ _ _)).ofExcept_ok text).bind (Action.Logs.pure path)
  | xlsx =>
      rw [hformat] at hdraft
      obtain rfl := Except.ok.inj hdraft
      rw [export_xlsx hformat hrows]
      exact ((deposit_saves hname (Draft.ofWorkbook_failsOnly _ _) _).bind
        (Action.Logs.log _ _ _)).bind (Action.Logs.pure path)

theorem export_of_error (hrows : rows ≠ []) {f : Failure} (hdraft : writer.draft rows = .error f)
    (path : Path) (w : World) : writer.export_ rows path w = (.error f, w) := by
  unfold draft at hdraft
  cases hformat : writer.format with
  | json =>
      rw [hformat] at hdraft
      have htext := map_eq_error_iff.mp hdraft
      rw [export_json hformat hrows]
      apply Action.bind_of_error
      unfold exportJson
      rw [htext]
      exact Action.bind_of_error (Action.ofExcept_error f w)
  | xlsx =>
      rw [hformat] at hdraft
      cases hdraft

/-! ## Reports of texts -/

/-- A report has a text exactly if its title and all it shows have one. -/
theorem hasText_document {ascii : Bool} {title : Value} :
    Json.hasText ascii (document title rows) = true ↔ Json.hasText ascii title = true ∧
      ∀ r ∈ rows, ∀ c ∈ Table.unionColumns rows, Json.hasText ascii (r.shown c) = true := by
  have hcolumns : Json.hasText ascii (.list ((Table.unionColumns rows).map .str)) = true := by
    rw [Json.hasText, Json.itemsHaveText_iff]
    intro x hx
    obtain ⟨c, -, rfl⟩ := List.mem_map.mp hx
    rfl
  have hline (r : Row) : Json.hasText ascii
      (.map ((Table.unionColumns rows).map fun c => (.str c, r.shown c))) = true ↔
        ∀ c ∈ Table.unionColumns rows, Json.hasText ascii (r.shown c) = true := by
    rw [Json.hasText, Json.membersHaveText_iff]
    · simp
    · intro e he
      obtain ⟨c, -, rfl⟩ := List.mem_map.mp he
      exact ⟨c, rfl⟩
  unfold document
  rw [Json.hasText, Json.membersHaveText_iff (by simp)]
  simp only [List.forall_mem_cons, hcolumns]
  rw [Json.hasText, Json.itemsHaveText_iff]
  simp [hline]

/-- A report of texts has a draft. It is whole if all texts can be encoded. One that breaks off does
so because a text cannot, and in JSON one with such a text does, with nothing written. -/
theorem exists_draft {unit : Option String} (hindent : indentation writer.indent = .ok unit)
    (htitle : writer.title.isText = true) (hrows : ∀ r ∈ rows, r.HasTexts) :
    ∃ d, writer.draft rows = .ok d ∧ (∀ c f, d = .broken c f → f.IsUnencodable) ∧
      ((∃ title, writer.title = .str title) → (∀ r ∈ rows, r.IsTextual) → ∃ c, d = .whole c) ∧
      (writer.format = .json → (∃ t, writer.title = .torn t) ∨
        (∃ r ∈ rows, ∃ column t, r.cell? column = some (.torn t)) →
          ∃ e, d = .broken (.bytes []) (.unencodable e)) := by
  have htext {v : Value} (hv : v.isText = true) : Json.hasText true v = true := by
    cases v with
    | str s => rfl
    | torn t => rfl
    | _ => cases hv
  have hascii : Json.hasText true (document writer.title rows) = true :=
    hasText_document.mpr ⟨htext htitle, fun r hr c _ => htext ((hrows r hr).isText_shown c)⟩
  unfold draft
  cases hformat : writer.format with
  | json =>
      have hprint : writer.documentText rows =
          Json.printCharacters unit (document writer.title rows) := by
        unfold documentText
        rw [hindent]
        rfl
      rw [hprint]
      rcases Json.printCharacters_cases unit (document writer.title rows) with
        ⟨hchars, s, -, hs⟩ | ⟨-, hchars, e, he⟩ | ⟨hnone, -⟩
      · rw [hs]
        refine ⟨_, rfl, nofun, fun _ _ => ⟨_, rfl⟩, fun _ htorn => ?_⟩
        obtain ⟨htitle, hshown⟩ := hasText_document.mp hchars
        rcases htorn with ⟨t, ht⟩ | ⟨r, hr, column, t, ht⟩
        · rw [ht] at htitle
          cases htitle
        · have hcolumn : column ∈ Table.unionColumns rows := by
            refine ((Table.firstOccurrences_unionColumns rows).mem_iff column).mpr ?_
            exact List.mem_flatMap.mpr ⟨r, hr, List.mem_map_of_mem (Row.mem_of_cell? ht)⟩
          have hcell := hshown r hr column hcolumn
          rw [Row.shown_torn ht] at hcell
          cases hcell
      · rw [he]
        refine ⟨_, rfl, ?_, ?_, fun _ _ => ⟨e, rfl⟩⟩
        · rintro c f ⟨⟩
          exact ⟨e, rfl⟩
        · rintro ⟨title, htitle⟩ htextual
          have hall : Json.hasText false (document writer.title rows) = true := by
            refine hasText_document.mpr ⟨by rw [htitle]; rfl, fun r hr c _ => ?_⟩
            rw [(htextual r hr).shown]
            rfl
          rw [hchars] at hall
          cases hall
      · rw [hascii] at hnone
        cases hnone
  | xlsx =>
      refine ⟨_, rfl, fun c f h => ?_, ?_, nofun⟩
      · cases hsheet : Sheet.workbook writer.title rows with
        | ok b =>
            rw [hsheet] at h
            cases h
        | error g =>
            rw [hsheet] at h
            cases h
            exact Sheet.workbook_isUnencodable htitle hrows f hsheet
      · rintro ⟨title, htitle⟩ htextual
        obtain ⟨b, -, hb, -⟩ := Sheet.workbook_textual title htextual
        exact ⟨.workbook b, by rw [htitle, hb]; rfl⟩

end Writer

namespace Report

variable {path : Path} {r : Report} {d : Draft}

def draft (r : Report) : Except Failure Draft :=
  (Json.printCharacters (some "  ") r.toValue).map .ofText

theorem saveSummary_saves (hname : path.name ≠ "") (hdraft : r.draft = .ok d) :
    Saves (r.saveSummary path) () path d (· == .nullCharacter)
      fun _ => .export_ ("Failed to save summary file: " ++ path.text) := by
  obtain ⟨text, htext, rfl⟩ := map_eq_ok_iff.mp hdraft
  unfold saveSummary
  rw [htext]
  exact ((Writer.deposit_saves hname (Draft.ofText_failsOnly text) id).orOnSystemFailure
    (Draft.ofText_failsOnly text) _).ofExcept_ok text

theorem saveSummary_of_error {f : Failure} (hdraft : r.draft = .error f) (path : Path)
    (w : World) : r.saveSummary path w = (.error f, w) := by
  unfold saveSummary
  rw [map_eq_error_iff.mp hdraft]
  rfl

end Report

end ImportAudit
