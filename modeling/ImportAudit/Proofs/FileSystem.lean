import ImportAudit.FileSystem
import ImportAudit.Proofs.Path
import ImportAudit.Proofs.Sequencing

/-!
# Looking up and changing entries

A file system has at most one entry at a location. Then nothing that is looked up depends on
the order in which the entries are listed. Looking up passes through directories and links
only, so that it ends in the same place as long as these stay. A file that was written is
found again under the same path.
-/

namespace ImportAudit.FileSystem

variable {fs fs' : FileSystem} {l l' : Location} {e : Entry} {p : Path} {s : String} {c : Content}

def Unambiguous (fs : FileSystem) : Prop :=
  (fs.entries.map (·.1)).Nodup

instance (fs : FileSystem) : Decidable fs.Unambiguous :=
  inferInstanceAs (Decidable (List.Nodup _))

structure Reordered (fs fs' : FileSystem) : Prop where
  workingDirectory : fs'.workingDirectory = fs.workingDirectory
  entries : fs'.entries.Perm fs.entries
  denied : fs'.denied = fs.denied

theorem entryAt?_eq_some_iff (h : fs.Unambiguous) (hl : l ≠ []) :
    fs.entryAt? l = some e ↔ (l, e) ∈ fs.entries := by
  have hfind : fs.entryAt? l = (fs.entries.find? fun x => x.1 == l).map (·.2) := by
    rw [entryAt?, if_neg (by simpa using hl)]
  rw [hfind]
  constructor
  · intro hsome
    obtain ⟨⟨l', e'⟩, hx, rfl⟩ := Option.map_eq_some_iff.mp hsome
    have hloc : l' = l := by simpa using List.find?_some hx
    exact hloc ▸ List.mem_of_find?_eq_some hx
  · intro hmem
    obtain ⟨as, bs, hsplit⟩ := List.append_of_mem hmem
    -- No entry before it is at the same location.
    have hbefore : ∀ a ∈ as, a.1 ≠ l := by
      intro a ha heq
      rw [Unambiguous, hsplit, List.map_append, List.map_cons, List.nodup_append] at h
      exact h.2.2 a.1 (List.mem_map_of_mem ha) l List.mem_cons_self heq
    have hfirst : fs.entries.find? (fun x => x.1 == l) = some (l, e) :=
      List.find?_eq_some_iff_append.mpr
        ⟨by simp, as, bs, hsplit, fun a ha => by simpa using hbefore a ha⟩
    rw [hfirst]
    rfl

theorem mem_below : (l', e) ∈ fs.below l ↔
    ∃ segments, segments ≠ [] ∧ l' = l ++ segments ∧ (l', e) ∈ fs.entries := by
  rw [below, List.mem_filter, Bool.and_eq_true, List.isPrefixOf_iff_prefix]
  constructor
  · rintro ⟨hmem, ⟨segments, rfl⟩, hne⟩
    exact ⟨segments, fun hnil => by simp [hnil] at hne, rfl, hmem⟩
  · rintro ⟨segments, hne, rfl, hmem⟩
    exact ⟨hmem, List.prefix_append l segments, by simpa using hne⟩

/-! ## Looking up -/

theorem step_eq_ok_iff : fs.step l s = .ok l' ↔
    fs.entryAt? l = some .directory ∧ fs.denies l .enter = false ∧
      if s = ".." then l' = l.dropLast else s.utf8ByteSize ≤ maxSegment ∧ l' = l ++ [s] := by
  unfold step
  cases fs.entryAt? l with
  | none => simp
  | some e =>
      cases e with
      | file c => simp
      | link t => simp
      | directory =>
          cases fs.denies l .enter with
          | true => simp
          | false =>
              by_cases hup : s = ".."
              · simp [hup, eq_comm]
              · by_cases hlong : maxSegment < s.utf8ByteSize
                · simp [hup, hlong, Nat.not_le.mpr hlong]
                · have hshort := Nat.not_lt.mp hlong
                  simp only [beq_iff_eq, hup, if_false, hlong, hshort, true_and]
                  exact ⟨fun h => (Except.ok.inj h).symm, fun h => h ▸ rfl⟩

theorem checkPath_null (hnull : p.hasNull = true) : checkPath p = .error .nullCharacter := by
  rw [checkPath, if_pos hnull]

theorem checkPath_eq_ok_iff :
    checkPath p = .ok () ↔ p.hasNull = false ∧ p.text.utf8ByteSize ≤ maxPath := by
  unfold checkPath
  cases p.hasNull with
  | true => simp
  | false => simp

theorem locate_null (hnull : p.hasNull = true) : fs.locate p = .error .nullCharacter := by
  rw [locate, checkPath_null hnull]
  rfl

theorem target_eq_ok_iff : fs.target p = .ok l ↔
    checkPath p = .ok () ∧ fs.descend (fs.start p) p.parts = .ok l := by
  rw [target, bind_eq_ok_iff]
  exact ⟨fun ⟨_, h, h'⟩ => ⟨h, h'⟩, fun ⟨h, h'⟩ => ⟨(), h, h'⟩⟩

theorem locate_concat {segments : List String} (hparts : p.parts = segments ++ [s]) :
    fs.locate p =
      checkPath p >>= fun _ => fs.descend (fs.start p) segments >>= fun l => fs.step l s := by
  rw [locate, hparts, List.getLast?_concat, List.dropLast_concat]

theorem descend_concat {start : Location} {segments : List String} :
    fs.descend start (segments ++ [s]) =
      fs.descend start segments >>= fun l => fs.step l s >>= fs.follow := by
  simp [descend]

theorem target_of_parts (hparts : p.parts ≠ []) : fs.target p = fs.locate p >>= fs.follow := by
  obtain ⟨segments, s, hconcat⟩ : ∃ segments s, p.parts = segments ++ [s] :=
    ⟨_, _, (List.dropLast_concat_getLast hparts).symm⟩
  rw [target, locate_concat hconcat, hconcat, descend_concat]
  simp

theorem follow_of_ne_link (h : ∀ t, fs.entryAt? l ≠ some (.link t)) : fs.follow l = .ok l := by
  unfold follow
  split
  · rename_i hlink
    exact absurd hlink (h _)
  · rename_i hlink
    exact absurd hlink (h _)
  · rfl

/-- What is found at the end of a path is no link. -/
theorem entry_eq_ok_iff : fs.entry p = .ok (l, e) ↔
    fs.target p = .ok l ∧ fs.entryAt? l = some e ∧ ∀ t, e ≠ .link t := by
  unfold entry
  cases fs.target p with
  | error f => simp
  | ok l' =>
      simp only [Except.ok.injEq]
      constructor
      · intro h
        split at h
        · cases h
        · cases h
        · rename_i hlink hentry
          cases h
          exact ⟨rfl, hentry, hlink⟩
      · rintro ⟨rfl, hentry, hlink⟩
        split
        · rename_i hnone
          rw [hnone] at hentry
          cases hentry
        · rename_i hsome
          exact absurd (Option.some.inj (hentry.symm.trans hsome)) (hlink _)
        · rename_i hsome
          rw [Option.some.inj (hentry.symm.trans hsome)]

theorem look_of_entry (h : fs.entry p = .ok (l, e)) : fs.look p = .ok (some e) := by
  rw [look, h]

theorem look_eq_some_iff : fs.look p = .ok (some e) ↔ ∃ l, fs.entry p = .ok (l, e) := by
  unfold look
  cases fs.entry p with
  | ok place =>
      obtain ⟨l, e'⟩ := place
      simp [eq_comm]
  | error f => cases hf : f.isAbsence <;> simp [hf]

theorem look_eq_error_iff {f : FileFault} : fs.look p = .error f ↔
    fs.entry p = .error f ∧ f.isAbsence = false := by
  unfold look
  cases fs.entry p with
  | ok place => simp
  | error f' =>
      by_cases hf : f' = f
      · subst hf
        cases habsent : f'.isAbsence <;> simp [habsent]
      · cases habsent : f'.isAbsence <;> simp [habsent, hf]

/-! ## Null characters -/

abbrev NeverNull {α : Type} (x : Except FileFault α) : Prop :=
  FailsOnly (· ≠ .nullCharacter) x

theorem step_neverNull (l : Location) (s : String) : NeverNull (fs.step l s) := by
  unfold step
  split
  · exact .error (by decide)
  · exact .error (by decide)
  · exact .error (by decide)
  · split
    · exact .error (by decide)
    · split
      · exact .ok _
      · split
        · exact .error (by decide)
        · exact .ok _

theorem follow_neverNull (l : Location) : NeverNull (fs.follow l) := by
  unfold follow
  split
  · exact .foldlM step_neverNull _ _
  · exact .error (by decide)
  · exact .ok _

theorem descend_neverNull (l : Location) (segments : List String) :
    NeverNull (fs.descend l segments) :=
  .foldlM (fun l s => .bind (step_neverNull l s) fun m _ => follow_neverNull m) _ _

theorem checkPath_neverNull (hnull : p.hasNull = false) : NeverNull (checkPath p) := by
  unfold checkPath
  rw [if_neg (by simp [hnull])]
  split
  · exact .error (by decide)
  · exact .ok _

theorem locate_neverNull (hnull : p.hasNull = false) : NeverNull (fs.locate p) := by
  refine .bind (checkPath_neverNull hnull) fun _ _ => ?_
  split
  · exact .ok _
  · exact .bind (descend_neverNull _ _) fun l _ => step_neverNull l _

theorem target_neverNull (hnull : p.hasNull = false) : NeverNull (fs.target p) :=
  .bind (checkPath_neverNull hnull) fun _ _ => descend_neverNull _ _

theorem entry_neverNull (hnull : p.hasNull = false) : NeverNull (fs.entry p) := by
  unfold entry
  split
  next f hf => exact .error (target_neverNull hnull f hf)
  next =>
    split
    · exact .error (by decide)
    · exact .error (by decide)
    · exact .ok _

theorem read_neverNull (hnull : p.hasNull = false) : NeverNull (fs.read p) := by
  unfold read
  split
  next f hf => exact .error (entry_neverNull hnull f hf)
  next =>
    split
    · exact .error (by decide)
    · exact .ok _
  next => exact .error (by decide)

theorem read_null (hnull : p.hasNull = true) : fs.read p = .error .nullCharacter := by
  rw [read, entry, target, checkPath_null hnull]
  rfl

/-! ## Changed entries -/

/-- At the top there is always a directory. -/
theorem ne_nil_of_entryAt? (h : fs.entryAt? l ≠ some .directory) : l ≠ [] := by
  rintro rfl
  exact h rfl

theorem entryAt?_erase_same (hl : l ≠ []) (fs : FileSystem) : (fs.erase l).entryAt? l = none := by
  rw [entryAt?, if_neg (by simpa using hl), Option.map_eq_none_iff, List.find?_eq_none]
  intro x hx
  simpa using (List.mem_filter.mp hx).2

theorem entryAt?_erase_of_ne (h : l' ≠ l) (fs : FileSystem) :
    (fs.erase l).entryAt? l' = fs.entryAt? l' := by
  unfold entryAt? erase
  simp only [List.find?_filter]
  congr 3
  funext x
  by_cases hx : x.1 = l'
  · simp [hx, h]
  · simp [hx]

theorem entryAt?_put_same (hl : l ≠ []) (fs : FileSystem) (e : Entry) :
    (fs.put l e).entryAt? l = some e := by
  have hothers : (fs.erase l).entries.find? (fun x => x.1 == l) = none := by
    rw [List.find?_eq_none]
    intro x hx
    simpa using (List.mem_filter.mp hx).2
  rw [entryAt?, if_neg (by simpa using hl)]
  simp only [put, List.find?_append, hothers, Option.none_or]
  simp

theorem entryAt?_put_of_ne (h : l' ≠ l) (fs : FileSystem) (e : Entry) :
    (fs.put l e).entryAt? l' = fs.entryAt? l' := by
  have hlast : [(l, e)].find? (fun x => x.1 == l') = none := by
    simpa using Ne.symm h
  rw [← entryAt?_erase_of_ne h fs]
  unfold entryAt?
  simp only [put, List.find?_append, hlast, Option.or_none]

theorem entryAt?_move (source target : Location) (e : Entry) (l : Location) :
    (fs.move source target e).entryAt? l = ((fs.erase source).put target e).entryAt? l :=
  rfl

theorem denies_put_same (a : Access) : (fs.put l e).denies l a = false := by
  rw [denies, List.contains_eq_mem, decide_eq_false_iff_not]
  intro h
  simpa using (List.mem_filter.mp h).2

theorem denies_put_of_ne (h : l' ≠ l) (a : Access) : (fs.put l e).denies l' a = fs.denies l' a := by
  simp [denies, put, erase, h]

theorem denies_erase_of_ne (h : l' ≠ l) (a : Access) :
    (fs.erase l).denies l' a = fs.denies l' a := by
  simp [denies, erase, h]

/-! ## The way stays -/

/-- What looking up depends on is the same in another file system: the directories with what is
forbidden there, and the links. -/
structure Keeps (fs fs' : FileSystem) : Prop where
  workingDirectory : fs'.workingDirectory = fs.workingDirectory
  directories : ∀ l, fs.entryAt? l = some .directory →
    fs'.entryAt? l = some .directory ∧ ∀ a, fs'.denies l a = fs.denies l a
  links : ∀ l t, fs'.entryAt? l = some (.link t) ↔ fs.entryAt? l = some (.link t)

/-- A new entry that is no link, where neither a directory nor a link was, is in nobody's way. -/
theorem keeps_put (hdirectory : fs.entryAt? l ≠ some .directory)
    (hlink : ∀ t, fs.entryAt? l ≠ some (.link t)) (he : ∀ t, e ≠ .link t) :
    fs.Keeps (fs.put l e) where
  workingDirectory := rfl
  directories l' hl' := by
    have hne : l' ≠ l := by
      rintro rfl
      exact hdirectory hl'
    exact ⟨(entryAt?_put_of_ne hne fs e).trans hl', denies_put_of_ne hne⟩
  links l' t := by
    by_cases hne : l' = l
    · rw [hne, entryAt?_put_same (ne_nil_of_entryAt? hdirectory)]
      exact ⟨fun h => absurd (Option.some.inj h) (he t), fun h => absurd h (hlink t)⟩
    · rw [entryAt?_put_of_ne hne]

namespace Keeps

variable (h : fs.Keeps fs')
include h

theorem step (hstep : fs.step l s = .ok l') : fs'.step l s = .ok l' := by
  obtain ⟨hdirectory, henter, hlast⟩ := step_eq_ok_iff.mp hstep
  obtain ⟨hdirectory', hdenies⟩ := h.directories l hdirectory
  exact step_eq_ok_iff.mpr ⟨hdirectory', (hdenies _).trans henter, hlast⟩

theorem foldlM_step {segments : List String} (hsteps : segments.foldlM fs.step l = .ok l') :
    segments.foldlM fs'.step l = .ok l' := by
  induction segments generalizing l with
  | nil => exact hsteps
  | cons s rest ih =>
      rw [List.foldlM_cons] at hsteps ⊢
      obtain ⟨m, hm, hrest⟩ := bind_eq_ok_iff.mp hsteps
      exact bind_eq_ok_iff.mpr ⟨m, h.step hm, ih hrest⟩

theorem follow (hfollow : fs.follow l = .ok l') : fs'.follow l = .ok l' := by
  by_cases hlink : ∃ t, fs.entryAt? l = some (.link t)
  · obtain ⟨t, ht⟩ := hlink
    unfold FileSystem.follow at hfollow ⊢
    rw [ht] at hfollow
    rw [(h.links l t).mpr ht]
    cases t with
    | none => cases hfollow
    | some target => exact h.foldlM_step hfollow
  · rw [follow_of_ne_link (not_exists.mp hlink)] at hfollow
    rw [follow_of_ne_link fun t ht => hlink ⟨t, (h.links l t).mp ht⟩, hfollow]

theorem descend {segments : List String} (hdescend : fs.descend l segments = .ok l') :
    fs'.descend l segments = .ok l' := by
  unfold FileSystem.descend at hdescend ⊢
  induction segments generalizing l with
  | nil => exact hdescend
  | cons s rest ih =>
      rw [List.foldlM_cons] at hdescend ⊢
      obtain ⟨m, hm, hrest⟩ := bind_eq_ok_iff.mp hdescend
      obtain ⟨n, hn, hfollow⟩ := bind_eq_ok_iff.mp hm
      exact bind_eq_ok_iff.mpr ⟨m, bind_eq_ok_iff.mpr ⟨n, h.step hn, h.follow hfollow⟩, ih hrest⟩

theorem start (p : Path) : fs'.start p = fs.start p := by
  unfold FileSystem.start
  rw [h.workingDirectory]

theorem locate (hlocate : fs.locate p = .ok l) : fs'.locate p = .ok l := by
  obtain ⟨_, hcheck, hlocate⟩ := bind_eq_ok_iff.mp hlocate
  refine bind_eq_ok_iff.mpr ⟨(), hcheck, ?_⟩
  rw [h.start]
  split at hlocate
  · exact hlocate
  · obtain ⟨m, hm, hlast⟩ := bind_eq_ok_iff.mp hlocate
    exact bind_eq_ok_iff.mpr ⟨m, h.descend hm, h.step hlast⟩

theorem target (htarget : fs.target p = .ok l) : fs'.target p = .ok l := by
  obtain ⟨hcheck, hdescend⟩ := target_eq_ok_iff.mp htarget
  exact target_eq_ok_iff.mpr ⟨hcheck, h.start p ▸ h.descend hdescend⟩

end Keeps

/-! ## Writing -/

theorem holder_eq_ok_iff : fs.holder l = .ok () ↔
    fs.entryAt? l.dropLast = some .directory ∧ fs.denies l.dropLast .change = false := by
  unfold holder
  split
  · rename_i hnone
    simp [hnone]
  · rename_i hdirectory
    cases hdenied : fs.denies l.dropLast .change <;> simp [hdirectory]
  · rename_i e hne hsome
    simp only [reduceCtorEq, false_iff, not_and]
    intro hdirectory
    exact absurd (Option.some.inj (hsome.symm.trans hdirectory)) hne

/-- A path leads to a location where a file may be written: one that may be used, or a new one in a
directory that may be changed. -/
def HasRoom (fs : FileSystem) (p : Path) (l : Location) : Prop :=
  fs.target p = .ok l ∧
    ((∃ c, fs.entryAt? l = some (.file c) ∧ fs.denies l .use = false) ∨
      fs.entryAt? l = none ∧ fs.holder l = .ok ())

theorem HasRoom.ne_directory (h : fs.HasRoom p l) : fs.entryAt? l ≠ some .directory := by
  rcases h.2 with ⟨c, hc, -⟩ | ⟨hnone, -⟩
  · simp [hc]
  · simp [hnone]

theorem HasRoom.ne_link (h : fs.HasRoom p l) (t : Option Location) :
    fs.entryAt? l ≠ some (.link t) := by
  rcases h.2 with ⟨c, hc, -⟩ | ⟨hnone, -⟩
  · simp [hc]
  · simp [hnone]

theorem HasRoom.keeps (h : fs.HasRoom p l) (c : Content) : fs.Keeps (fs.put l (.file c)) :=
  keeps_put h.ne_directory h.ne_link fun _ ht => by cases ht

theorem make_eq_ok_iff : fs.make l e = .ok fs' ↔ fs.holder l = .ok () ∧ fs' = fs.put l e := by
  unfold make
  rw [bind_eq_ok_iff]
  constructor
  · rintro ⟨_, hholder, h⟩
    exact ⟨hholder, (Except.ok.inj h).symm⟩
  · rintro ⟨hholder, rfl⟩
    exact ⟨(), hholder, rfl⟩

theorem write_eq_ok_iff :
    fs.write p c = .ok fs' ↔ ∃ l, fs.HasRoom p l ∧ fs' = fs.put l (.file c) := by
  unfold write HasRoom
  rw [bind_eq_ok_iff]
  refine exists_congr fun l => ?_
  rw [and_assoc]
  refine and_congr_right fun _ => ?_
  cases fs.entryAt? l with
  | none =>
      rw [make_eq_ok_iff]
      simp
  | some e =>
      cases e with
      | directory => simp [throw, throwThe, MonadExceptOf.throw]
      | link t => simp [throw, throwThe, MonadExceptOf.throw]
      | file old =>
          cases fs.denies l .use with
          | true => simp [throw, throwThe, MonadExceptOf.throw]
          | false =>
              simp only [Bool.false_eq_true, if_false, reduceCtorEq, false_and, or_false, and_true,
                Option.some.injEq, Entry.file.injEq, exists_eq', true_and]
              exact ⟨fun h => (Except.ok.inj h).symm, fun h => h ▸ rfl⟩

theorem HasRoom.written (h : fs.HasRoom p l) (c : Content) :
    (fs.put l (.file c)).entry p = .ok (l, .file c) ∧ (fs.put l (.file c)).read p = .ok c := by
  have hentry : (fs.put l (.file c)).entry p = .ok (l, .file c) := by
    refine entry_eq_ok_iff.mpr ⟨(h.keeps c).target h.1, ?_, fun t ht => by cases ht⟩
    exact entryAt?_put_same (ne_nil_of_entryAt? h.ne_directory) fs _
  refine ⟨hentry, ?_⟩
  rw [read, hentry]
  dsimp only
  rw [denies_put_same, if_neg Bool.false_ne_true]

/-! ## Directories -/

theorem makeDirectories_null (hnull : p.hasNull = true) :
    fs.makeDirectories p = (fs, some .nullCharacter) := by
  have hmake : fs.makeDirectory p = .error .nullCharacter := by
    rw [makeDirectory, locate_null hnull]
    rfl
  unfold makeDirectories
  cases p.parts.length with
  | zero => rw [makeDirectories.go, hmake]
  | succ depth => rw [makeDirectories.go, hmake]

theorem makeDirectory_neverNull (hnull : p.hasNull = false) : NeverNull (fs.makeDirectory p) := by
  refine .bind (locate_neverNull hnull) fun l _ => ?_
  split
  · refine .bind ?_ fun _ _ => .ok _
    unfold holder
    split
    · exact .error (by decide)
    · split
      · exact .error (by decide)
      · exact .ok _
    · exact .error (by decide)
  · refine .bind ?_ fun _ _ => ?_
    · intro f hf
      exact entry_neverNull hnull f (look_eq_error_iff.mp hf).1
    · split
      · exact .ok _
      · exact .error (by decide)

theorem makeDirectories_fault (hnull : p.hasNull = false) {f : FileFault}
    (h : fs.makeDirectories p = (fs', some f)) : f ≠ .nullCharacter := by
  unfold makeDirectories at h
  generalize p.parts.length = depth at h
  induction depth generalizing p fs' f with
  | zero =>
      unfold makeDirectories.go at h
      split at h
      · cases h
      · rename_i hf
        cases h
        exact makeDirectory_neverNull hnull _ hf
  | succ depth ih =>
      unfold makeDirectories.go at h
      split at h
      · cases h
      · split at h
        · rename_i habove
          cases h
          exact ih (Path.hasNull_parent hnull) habove
        · split at h
          · cases h
          · rename_i hf
            cases h
            exact makeDirectory_neverNull hnull _ hf
      · rename_i hf
        cases h
        exact makeDirectory_neverNull hnull _ hf

/-! ## The order of entries -/

namespace Reordered

theorem unambiguous (h : fs.Reordered fs') (hfs : fs.Unambiguous) : fs'.Unambiguous :=
  (h.entries.map Prod.fst).nodup_iff.mpr hfs

theorem entryAt? (h : fs.Reordered fs') (hfs : fs.Unambiguous) :
    fs'.entryAt? = fs.entryAt? := by
  funext l
  by_cases hl : l = []
  · rw [hl]
    rfl
  · ext e
    rw [entryAt?_eq_some_iff (h.unambiguous hfs) hl, entryAt?_eq_some_iff hfs hl,
      h.entries.mem_iff]

theorem denies (h : fs.Reordered fs') : fs'.denies = fs.denies := by
  funext l a
  rw [FileSystem.denies, FileSystem.denies, h.denied]

theorem entry (h : fs.Reordered fs') (hfs : fs.Unambiguous) : fs'.entry = fs.entry := by
  have hstep : fs'.step = fs.step := by
    funext l s
    rw [FileSystem.step, FileSystem.step, h.entryAt? hfs, h.denies]
  have hfollow : fs'.follow = fs.follow := by
    funext l
    rw [FileSystem.follow, FileSystem.follow, h.entryAt? hfs, hstep]
  funext p
  have htarget : fs'.target p = fs.target p := by
    rw [target, target, FileSystem.start, FileSystem.start, h.workingDirectory]
    unfold descend
    rw [hstep, hfollow]
  rw [FileSystem.entry, FileSystem.entry, htarget, h.entryAt? hfs]

theorem look (h : fs.Reordered fs') (hfs : fs.Unambiguous) : fs'.look = fs.look := by
  funext p
  rw [FileSystem.look, FileSystem.look, h.entry hfs]

theorem below (h : fs.Reordered fs') (l : Location) : (fs'.below l).Perm (fs.below l) :=
  h.entries.filter _

end Reordered

end ImportAudit.FileSystem
