import ImportAudit.Proofs.FileSystem

/-!
# The place of a report and the path beside it

A report is written beside its place and then moved there. What is beside the place may be a link,
and then something else is written: where the link leads. Without such a link, either the new
content is at its place and nothing beside it, or the place is as it was and nothing is new.
-/

namespace ImportAudit.FileSystem

variable {fs fs' : FileSystem} {p path : Path} {place beside l m : Location} {e : Entry}
  {c : Content} {fault : FileFault}

/-! ## Removing and moving -/

theorem remove_eq_ok_iff : fs.remove p = .ok fs' ↔
    ∃ l e, fs.locate p = .ok l ∧ fs.entryAt? l = some e ∧ fs.holder l = .ok () ∧ e ≠ .directory ∧
      fs' = fs.erase l := by
  unfold remove
  rw [bind_eq_ok_iff]
  refine exists_congr fun l => ?_
  cases fs.entryAt? l with
  | none => simp [throw, throwThe, MonadExceptOf.throw]
  | some e =>
      cases fs.holder l with
      | error f => simp [bind, Except.bind]
      | ok =>
          by_cases he : e = .directory
          · simp [he, bind, Except.bind, throw, throwThe, MonadExceptOf.throw]
          · simp [he, bind, Except.bind, pure, Except.pure, eq_comm]

theorem replace_eq_ok_iff : fs.replace p path = .ok fs' ↔
    ∃ l m e, fs.locate p = .ok l ∧ fs.locate path = .ok m ∧ fs.entryAt? l = some e ∧
      fs.holder l = .ok () ∧
      fs.holder m = .ok () ∧ fs.entryAt? m ≠ some .directory ∧ fs' = fs.move l m e := by
  unfold replace
  rw [bind_eq_ok_iff]
  refine exists_congr fun l => ?_
  cases fs.locate path with
  | error f => simp [bind, Except.bind]
  | ok m =>
      cases fs.entryAt? l with
      | none => simp [bind, Except.bind, throw, throwThe, MonadExceptOf.throw]
      | some e =>
          cases fs.holder l with
          | error f => simp [bind, Except.bind]
          | ok =>
              cases hm : fs.holder m with
              | error f => simp [hm, bind, Except.bind]
              | ok =>
                  by_cases hd : fs.entryAt? m = some .directory
                  · simp [hm, hd, bind, Except.bind, throw, throwThe, MonadExceptOf.throw]
                  · simp only [bind, Except.bind, hm, hd, if_false, pure, Except.pure]
                    simp [hm, hd, eq_comm (a := fs')]

theorem remove_of_locate_error (h : fs.locate p = .error fault) : fs.remove p = .error fault := by
  rw [remove, h]
  rfl

theorem remove_of_entry (h : fs.locate p = .ok l) (hentry : fs.entryAt? l = some e)
    (he : e ≠ .directory) :
    fs.remove p = fs.holder l >>= fun _ => .ok (fs.erase l) := by
  unfold remove
  rw [h]
  dsimp only [bind, Except.bind]
  rw [hentry]
  dsimp only
  rw [if_neg he]
  rfl

theorem remove_of_no_entry (h : fs.locate p = .ok l) (hnone : fs.entryAt? l = none) :
    fs.remove p = .error .notFound := by
  unfold remove
  rw [h]
  dsimp only [bind, Except.bind]
  rw [hnone]
  rfl

theorem hasNull_of_locate (h : fs.locate p = .ok l) : p.hasNull = false := by
  obtain ⟨_, hcheck, -⟩ := bind_eq_ok_iff.mp h
  exact (checkPath_eq_ok_iff.mp hcheck).1

theorem holder_neverNull (l : Location) : NeverNull (fs.holder l) := by
  unfold holder
  split
  · exact .error (by decide)
  · split
    · exact .error (by decide)
    · exact .ok _
  · exact .error (by decide)

theorem holder_of_directory (h : fs.entryAt? l.dropLast = some .directory) :
    fs.holder l = .ok () ∨ fs.holder l = .error .denied := by
  rw [holder, h]
  dsimp only
  split
  · exact .inr rfl
  · exact .inl rfl

theorem replace_neverNull (hsource : p.hasNull = false) (htarget : path.hasNull = false) :
    NeverNull (fs.replace p path) := by
  refine .bind (locate_neverNull hsource) fun l _ => .bind (locate_neverNull htarget) fun m _ => ?_
  split
  · exact .error (by decide)
  · refine .bind (holder_neverNull l) fun _ _ => .bind (holder_neverNull m) fun _ _ => ?_
    split
    · exact .error (by decide)
    · exact .ok _

theorem write_neverNull (hnull : p.hasNull = false) (c : Content) : NeverNull (fs.write p c) := by
  refine .bind (target_neverNull hnull) fun l _ => ?_
  split
  · exact .error (by decide)
  · exact .error (by decide)
  · split
    · exact .error (by decide)
    · exact .ok _
  · exact .bind (holder_neverNull l) fun _ _ => .ok _

/-- The file system once what is at a path was removed, if that can be done. -/
def swept (fs : FileSystem) (p : Path) : FileSystem :=
  (fs.remove p).toOption.getD fs

theorem swept_cases (fs : FileSystem) (p : Path) :
    fs.swept p = fs ∨ ∃ l e, fs.locate p = .ok l ∧ fs.entryAt? l = some e ∧ e ≠ .directory ∧
      fs.swept p = fs.erase l := by
  unfold swept
  cases hremove : fs.remove p with
  | error fault => exact .inl rfl
  | ok fs' =>
      obtain ⟨l, e, hl, he, -, hne, rfl⟩ := remove_eq_ok_iff.mp hremove
      exact .inr ⟨l, e, hl, he, hne, rfl⟩

theorem denies_move_of_ne {source target : Location} (hsource : l ≠ source) (htarget : l ≠ target)
    (a : Access) :
    (fs.move source target e).denies l a = fs.denies l a := by
  simp [denies, move, put, erase, hsource, htarget, Ne.symm htarget]

/-! ## The two places -/

theorem temporary_name_ne (name : String) : name ++ ".tmp" ≠ ".." := by
  intro h
  have hlength := congrArg String.length h
  rw [String.length_append] at hlength
  have htmp : ".tmp".length = 4 := rfl
  have hdots : "..".length = 2 := rfl
  omega

theorem ne_temporary_name (name : String) : name ≠ name ++ ".tmp" := by
  intro h
  have hlength := congrArg String.length h
  rw [String.length_append] at hlength
  have htmp : ".tmp".length = 4 := rfl
  omega

/-- A path leads to a place, and the path beside it to another place in a
directory that is there. -/
structure HasPlaces (fs : FileSystem) (path : Path) (place beside : Location) : Prop where
  located : fs.locate path = .ok place
  locatedBeside : fs.locate path.temporary = .ok beside
  apart : place ≠ beside
  directory : fs.entryAt? beside.dropLast = some .directory

/-- A path that is looked up is no harder to look up than the one beside it. -/
theorem exists_places (hname : path.name ≠ "") (h : fs.locate path.temporary = .ok beside) :
    ∃ place, fs.HasPlaces path place beside := by
  have hparts : path.temporary.parts = path.parts.dropLast ++ [path.name ++ ".tmp"] := rfl
  have hlocated := h
  rw [locate_concat hparts] at h
  obtain ⟨_, hcheck, h⟩ := bind_eq_ok_iff.mp h
  obtain ⟨base, hbase, hstep⟩ := bind_eq_ok_iff.mp h
  obtain ⟨hdirectory, henter, hlast⟩ := step_eq_ok_iff.mp hstep
  rw [if_neg (temporary_name_ne _)] at hlast
  obtain ⟨hshort, rfl⟩ := hlast
  have hcheck' : checkPath path = .ok () := by
    obtain ⟨hnull, hlong⟩ := checkPath_eq_ok_iff.mp hcheck
    have htext := Path.text_temporary hname
    refine checkPath_eq_ok_iff.mpr ⟨?_, ?_⟩
    · rw [Path.hasNull, htext, String.toList_append] at hnull
      rw [Path.hasNull]
      simp_all
    · rw [htext, String.utf8ByteSize_append] at hlong
      omega
  have hlocate {place : Location}
      (hplace : if path.name = ".." then place = base.dropLast
        else path.name.utf8ByteSize ≤ maxSegment ∧ place = base ++ [path.name]) :
      fs.locate path = .ok place := by
    rw [locate_concat (Path.parts_eq_of_name hname)]
    exact bind_eq_ok_iff.mpr
      ⟨(), hcheck',
        bind_eq_ok_iff.mpr ⟨base, hbase, step_eq_ok_iff.mpr ⟨hdirectory, henter, hplace⟩⟩⟩
  have hholder : fs.entryAt? (base ++ [path.name ++ ".tmp"]).dropLast = some .directory := by
    rwa [List.dropLast_concat]
  by_cases hup : path.name = ".."
  · refine ⟨base.dropLast, hlocate (by rw [if_pos hup]), hlocated, fun heq => ?_, hholder⟩
    have hlength := congrArg List.length heq
    simp at hlength
  · have hshort' : path.name.utf8ByteSize ≤ maxSegment := by
      rw [String.utf8ByteSize_append] at hshort
      omega
    refine ⟨base ++ [path.name], hlocate (by rw [if_neg hup]; exact ⟨hshort', rfl⟩), hlocated,
      fun heq => ?_, hholder⟩
    exact ne_temporary_name _ (List.singleton_inj.mp (List.append_cancel_left heq))

theorem target_temporary (fs : FileSystem) (path : Path) :
    fs.target path.temporary = fs.locate path.temporary >>= fs.follow :=
  target_of_parts (by simp [Path.temporary, Path.child])

theorem HasRoom.exists_places (hname : path.name ≠ "") (h : fs.HasRoom path.temporary l) :
    ∃ place beside, fs.HasPlaces path place beside ∧ fs.follow beside = .ok l := by
  have htarget := h.1
  rw [target_temporary] at htarget
  obtain ⟨beside, hbeside, hfollow⟩ := bind_eq_ok_iff.mp htarget
  obtain ⟨place, hplaces⟩ := FileSystem.exists_places hname hbeside
  exact ⟨place, beside, hplaces, hfollow⟩

/-! ## What was written beside a place -/

namespace HasRoom

section

variable (h : fs.HasRoom p l)
include h

theorem ne_nil : l ≠ [] := ne_nil_of_entryAt? h.ne_directory

theorem entryAt?_directory_iff : (fs.put l (.file c)).entryAt? m = some .directory ↔
    fs.entryAt? m = some .directory := by
  by_cases hm : m = l
  · subst hm
    rw [entryAt?_put_same h.ne_nil]
    exact iff_of_false (by simp) h.ne_directory
  · rw [entryAt?_put_of_ne hm]

theorem holder_eq (hdirectory : fs.entryAt? m.dropLast = some .directory) :
    (fs.put l (.file c)).holder m = fs.holder m := by
  obtain ⟨hkept, hdenies⟩ := (h.keeps c).directories _ hdirectory
  rw [holder, holder, hkept, hdirectory]
  dsimp only
  rw [hdenies]

theorem holder_iff : (fs.put l (.file c)).holder m = .ok () ↔ fs.holder m = .ok () := by
  by_cases hdirectory : fs.entryAt? m.dropLast = some .directory
  · rw [h.holder_eq hdirectory]
  · refine iff_of_false (fun hholder => hdirectory ?_) fun hholder =>
      hdirectory (holder_eq_ok_iff.mp hholder).1
    exact h.entryAt?_directory_iff.mp (holder_eq_ok_iff.mp hholder).1

end

section

variable (h : fs.HasRoom path.temporary l) (hplaces : fs.HasPlaces path place beside)
  (hfollow : fs.follow beside = .ok l)
include h hplaces hfollow

theorem written_beside : ∃ e, (fs.put l (.file c)).entryAt? beside = some e ∧ e ≠ .directory ∧
    (l = beside ∧ e = .file c ∨ l ≠ beside ∧ fs.entryAt? beside = some e ∧ ∃ t, e = .link t) := by
  by_cases hlink : ∃ t, fs.entryAt? beside = some (.link t)
  · obtain ⟨t, ht⟩ := hlink
    have hne : l ≠ beside := by
      rintro rfl
      exact h.ne_link t ht
    exact ⟨.link t, by rw [entryAt?_put_of_ne hne.symm, ht], by simp, .inr ⟨hne, ht, t, rfl⟩⟩
  · rw [follow_of_ne_link (not_exists.mp hlink)] at hfollow
    obtain rfl := Except.ok.inj hfollow
    exact ⟨.file c, entryAt?_put_same h.ne_nil fs _, by simp, .inl ⟨rfl, rfl⟩⟩

/-- What was written can be removed, but for a fault that would have kept what was
there before from being removed. -/
theorem remove_written :
    ((fs.put l (.file c)).remove path.temporary = .ok ((fs.put l (.file c)).erase beside) ∧
      ∀ fault, fs.remove path.temporary = .error fault → fault = .notFound) ∨
    ∃ fault, fault ≠ .notFound ∧ (fs.put l (.file c)).remove path.temporary = .error fault ∧
      fs.remove path.temporary = .error fault := by
  obtain ⟨e, he, hne, hcases⟩ := h.written_beside hplaces hfollow (c := c)
  have hwritten := remove_of_entry ((h.keeps c).locate hplaces.locatedBeside) he hne
  rw [h.holder_eq hplaces.directory] at hwritten
  cases hold : fs.entryAt? beside with
  | none =>
      have hbefore := remove_of_no_entry hplaces.locatedBeside hold
      have hholder : fs.holder beside = .ok () := by
        rcases hcases with ⟨rfl, -⟩ | ⟨-, hsame, -⟩
        · exact (h.2.resolve_left fun ⟨c, hc, _⟩ => by simp [hold] at hc).2
        · simp [hold] at hsame
      rw [hholder] at hwritten
      exact .inl ⟨hwritten, fun fault hfault => Except.error.inj (hfault.symm.trans hbefore)⟩
  | some old =>
      have hold' : old ≠ .directory := by
        rintro rfl
        rcases hcases with ⟨rfl, -⟩ | ⟨-, hsame, t, rfl⟩
        · exact h.ne_directory hold
        · simp [hold] at hsame
      have hbefore := remove_of_entry hplaces.locatedBeside hold hold'
      rcases holder_of_directory hplaces.directory with hholder | hholder
      · rw [hholder] at hwritten hbefore
        refine .inl ⟨hwritten, fun fault hfault => ?_⟩
        rw [hbefore] at hfault
        cases hfault
      · rw [hholder] at hwritten hbefore
        exact .inr ⟨.denied, by decide, hwritten, hbefore⟩

end

end HasRoom

/-! ## What is there afterwards -/

/-- A path at which a file can be saved: it can be written beside the place, no directory is in the
way, and both directories may be changed. -/
def Accepts (fs : FileSystem) (path : Path) : Prop :=
  (∃ l, fs.HasRoom path.temporary l) ∧
    ∃ place beside, fs.locate path = .ok place ∧ fs.locate path.temporary = .ok beside ∧
      fs.entryAt? place ≠ some .directory ∧ fs.holder place = .ok () ∧ fs.holder beside = .ok ()

/-- What was written is moved to its place exactly where the path accepts a file. -/
theorem HasRoom.replace_written_iff (h : fs.HasRoom path.temporary l)
    (hplaces : fs.HasPlaces path place beside)
    (he : (fs.put l (.file c)).entryAt? beside = some e) :
    (fs.put l (.file c)).replace path.temporary path = .ok fs' ↔
      fs.Accepts path ∧ fs' = (fs.put l (.file c)).move beside place e := by
  have hplace := (h.keeps c).locate hplaces.located
  have hbeside := (h.keeps c).locate hplaces.locatedBeside
  rw [replace_eq_ok_iff]
  constructor
  · rintro ⟨l', m, e', hl, hm, he', hholder, hholder', hfree, rfl⟩
    obtain rfl := Except.ok.inj (hbeside.symm.trans hl)
    obtain rfl := Except.ok.inj (hplace.symm.trans hm)
    obtain rfl := Option.some.inj (he.symm.trans he')
    refine ⟨⟨⟨l, h⟩, place, beside, hplaces.located, hplaces.locatedBeside, ?_, ?_, ?_⟩, rfl⟩
    · exact fun hdirectory => hfree (h.entryAt?_directory_iff.mpr hdirectory)
    · exact h.holder_iff.mp hholder'
    · exact h.holder_iff.mp hholder
  · rintro ⟨⟨-, place', beside', hplace', hbeside', hfree, hholder, hholder'⟩, rfl⟩
    obtain rfl := Except.ok.inj (hplaces.located.symm.trans hplace')
    obtain rfl := Except.ok.inj (hplaces.locatedBeside.symm.trans hbeside')
    refine ⟨beside, place, e, hbeside, hplace, he, h.holder_iff.mpr hholder',
      h.holder_iff.mpr hholder, ?_, rfl⟩
    exact fun hdirectory => hfree (h.entryAt?_directory_iff.mp hdirectory)

/-- Nothing but what some locations have is changed. -/
def SameBut (P : Location → Prop) (fs fs' : FileSystem) : Prop :=
  fs'.workingDirectory = fs.workingDirectory ∧
    ∀ l, ¬P l → fs'.entryAt? l = fs.entryAt? l ∧ ∀ a, fs'.denies l a = fs.denies l a

namespace SameBut

variable {P Q : Location → Prop} {fs'' : FileSystem}

theorem refl (P : Location → Prop) (fs : FileSystem) : SameBut P fs fs :=
  ⟨rfl, fun _ _ => ⟨rfl, fun _ => rfl⟩⟩

theorem trans (h : SameBut P fs fs') (h' : SameBut P fs' fs'') : SameBut P fs fs'' :=
  ⟨h'.1.trans h.1, fun l hl =>
    ⟨(h'.2 l hl).1.trans (h.2 l hl).1, fun a => ((h'.2 l hl).2 a).trans ((h.2 l hl).2 a)⟩⟩

theorem put (hl : P l) (fs : FileSystem) (e : Entry) : SameBut P fs (fs.put l e) := by
  refine ⟨rfl, fun m hm => ?_⟩
  have hne : m ≠ l := by
    rintro rfl
    exact hm hl
  exact ⟨entryAt?_put_of_ne hne fs e, denies_put_of_ne hne⟩

theorem erase (hl : P l) (fs : FileSystem) : SameBut P fs (fs.erase l) := by
  refine ⟨rfl, fun m hm => ?_⟩
  have hne : m ≠ l := by
    rintro rfl
    exact hm hl
  exact ⟨entryAt?_erase_of_ne hne fs, denies_erase_of_ne hne⟩

theorem move (hl : P l) (hm : P m) (fs : FileSystem) (e : Entry) :
    SameBut P fs (fs.move l m e) := by
  refine ⟨rfl, fun x hx => ?_⟩
  have hxl : x ≠ l := by
    rintro rfl
    exact hx hl
  have hxm : x ≠ m := by
    rintro rfl
    exact hx hm
  refine ⟨?_, denies_move_of_ne hxl hxm⟩
  rw [entryAt?_move, entryAt?_put_of_ne hxm, entryAt?_erase_of_ne hxl]

theorem swept (hp : ∀ l, fs.locate p = .ok l → P l) : SameBut P fs (fs.swept p) := by
  rcases swept_cases fs p with heq | ⟨l, e, hl, -, -, heq⟩
  · rw [heq]
    exact refl P fs
  · rw [heq]
    exact erase (hp l hl) fs

end SameBut

/-- The locations that saving at a path is about: its place, the one beside it,
and where a link there leads. -/
def IsAround (fs : FileSystem) (path : Path) (l : Location) : Prop :=
  fs.locate path = .ok l ∨ fs.locate path.temporary = .ok l ∨ fs.target path.temporary = .ok l

/-- The new content is at its place, nothing is beside it, and all else is as it was. -/
structure Replaced (fs fs' : FileSystem) (path : Path) (c : Content) : Prop where
  saved : ∃ place, fs.locate path = .ok place ∧ fs'.entryAt? place = some (.file c)
  nothingBeside : ∀ beside, fs.locate path.temporary = .ok beside → fs'.entryAt? beside = none
  others : SameBut (fun l => fs.locate path = .ok l ∨ fs.locate path.temporary = .ok l) fs fs'

/-- Nothing is new, and all is as it was, but that a file beside the place may
be another one or gone. -/
structure Kept (fs fs' : FileSystem) (path : Path) : Prop where
  same : ∀ place, fs.locate path = .ok place → fs'.entryAt? place = fs.entryAt? place
  nothingNew : ∀ l, fs.entryAt? l = none → fs'.entryAt? l = none
  others : SameBut (fun l => fs.locate path.temporary = .ok l) fs fs'

theorem Kept.of_sameBut (hname : path.name ≠ "")
    (h : SameBut (fun l => fs.locate path.temporary = .ok l) fs fs')
    (hnew : ∀ l, fs.locate path.temporary = .ok l → fs.entryAt? l = none → fs'.entryAt? l = none) :
    fs.Kept fs' path := by
  refine ⟨fun place hplace => (h.2 place fun hbeside => ?_).1, fun l hl => ?_, h⟩
  · obtain ⟨place', hplaces⟩ := exists_places hname hbeside
    exact hplaces.apart (Except.ok.inj (hplaces.located.symm.trans hplace))
  · by_cases hbeside : fs.locate path.temporary = .ok l
    · exact hnew l hbeside hl
    · rw [(h.2 l hbeside).1, hl]

theorem kept_swept (hname : path.name ≠ "") (fs : FileSystem) :
    fs.Kept (fs.swept path.temporary) path := by
  refine .of_sameBut hname (.swept fun _ h => h) fun l hl hnone => ?_
  rcases swept_cases fs path.temporary with heq | ⟨m, e, hm, he, -, heq⟩
  · rw [heq, hnone]
  · obtain rfl := Except.ok.inj (hl.symm.trans hm)
    rw [hnone] at he
    cases he

section Written

variable (h : fs.HasRoom path.temporary l) (hplaces : fs.HasPlaces path place beside)
  (hfollow : fs.follow beside = .ok l)
include h hplaces hfollow

/-- Without a link beside the place, what was written and could not be moved is removed again, or a
file was there before. -/
theorem HasRoom.kept_written (hname : path.name ≠ "")
    (hlink : ∀ t, fs.entryAt? beside ≠ some (.link t)) :
    fs.Kept ((fs.put l (.file c)).swept path.temporary) path := by
  obtain rfl : beside = l := Except.ok.inj ((follow_of_ne_link hlink).symm.trans hfollow)
  have hlocate := (h.keeps c).locate hplaces.locatedBeside
  have hput : SameBut (fun m => fs.locate path.temporary = .ok m) fs (fs.put beside (.file c)) :=
    .put hplaces.locatedBeside fs _
  have hswept : SameBut (fun m => fs.locate path.temporary = .ok m) (fs.put beside (.file c))
      ((fs.put beside (.file c)).swept path.temporary) := by
    refine .swept fun m hm => ?_
    rw [← hm, hlocate, hplaces.locatedBeside]
  refine .of_sameBut hname (hput.trans hswept) fun m hm hnone => ?_
  obtain rfl := Except.ok.inj (hplaces.locatedBeside.symm.trans hm)
  rcases h.remove_written hplaces hfollow (c := c) with ⟨hremove, -⟩ | ⟨fault, hfault, -, hbefore⟩
  · rw [swept, hremove]
    exact entryAt?_erase_same h.ne_nil _
  · rw [remove_of_no_entry hplaces.locatedBeside hnone] at hbefore
    exact absurd (Except.error.inj hbefore).symm hfault

theorem HasRoom.replaced (hlink : ∀ t, fs.entryAt? beside ≠ some (.link t))
    (hfree : fs.entryAt? place ≠ some .directory) :
    fs.Replaced ((fs.put l (.file c)).move beside place (.file c)) path c := by
  obtain rfl : beside = l := Except.ok.inj ((follow_of_ne_link hlink).symm.trans hfollow)
  refine ⟨⟨place, hplaces.located, ?_⟩, fun beside' hbeside => ?_, ?_⟩
  · rw [entryAt?_move, entryAt?_put_same (ne_nil_of_entryAt? hfree)]
  · obtain rfl := Except.ok.inj (hplaces.locatedBeside.symm.trans hbeside)
    rw [entryAt?_move, entryAt?_put_of_ne hplaces.apart.symm, entryAt?_erase_same h.ne_nil]
  · exact (SameBut.put (.inr hplaces.locatedBeside) fs _).trans
      (.move (.inr hplaces.locatedBeside) (.inl hplaces.located) _ _)

end Written

end ImportAudit.FileSystem
