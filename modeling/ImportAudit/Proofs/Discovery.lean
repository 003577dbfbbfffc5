import ImportAudit.Discovery
import ImportAudit.Proofs.Extensions
import ImportAudit.Proofs.FileSystem
import ImportAudit.Proofs.Path
import Mathlib.Data.List.Induction

/-!
# What is discovered below a root

The files of a directory come in the order of their paths, each once, whatever the order of the file
system: all files with an allowed extension, but for those below an excluded directory. A directory
that may not be listed is passed over; an entry that cannot be looked at, because its path is too
long or something on the way is forbidden, ends the search.
-/

namespace ImportAudit

namespace Discovery

variable {fs fs' : FileSystem} {root : Path} {l : Location} {allowed excluded : List String}
  {segments : List String}

/-! ## What is met -/

/-- There is an entry below a root that is at a location, and every directory above it is reached by
its path, without a link, and may be listed. -/
structure Met (fs : FileSystem) (root : Path) (l : Location) (segments : List String) : Prop where
  proper : segments ≠ []
  there : ∃ e, (l ++ segments, e) ∈ fs.entries
  searched : ∀ n < segments.length,
    fs.entry (root.join { parts := segments.take n }) = .ok (l ++ segments.take n, .directory) ∧
      fs.denies (l ++ segments.take n) .list = false

theorem searches_iff {p : Path} : searches fs p l = true ↔
    fs.entry p = .ok (l, .directory) ∧ fs.denies l .list = false := by
  unfold searches
  cases fs.entry p with
  | error f => simp
  | ok place =>
      obtain ⟨m, e⟩ := place
      cases e <;> simp

theorem mem_met : segments ∈ met fs root l ↔ Met fs root l segments := by
  simp only [met, List.mem_filter, List.mem_map, List.all_eq_true, List.mem_range, searches_iff]
  constructor
  · rintro ⟨⟨⟨m, e⟩, hmem, rfl⟩, hsearched⟩
    obtain ⟨segments, hne, rfl, hentry⟩ := FileSystem.mem_below.mp hmem
    rw [List.drop_left] at hsearched ⊢
    exact ⟨hne, ⟨e, hentry⟩, hsearched⟩
  · rintro ⟨hne, ⟨e, hentry⟩, hsearched⟩
    refine ⟨⟨(l ++ segments, e), FileSystem.mem_below.mpr ⟨segments, hne, rfl, hentry⟩, ?_⟩,
      hsearched⟩
    rw [List.drop_left]

theorem met_nodup (h : fs.Unambiguous) : (met fs root l).Nodup := by
  have hentries : fs.entries.Pairwise fun x y => x.1 ≠ y.1 := List.pairwise_map.mp h
  refine List.Pairwise.filter _ (List.pairwise_map.mpr ((hentries.filter _).imp_of_mem ?_))
  rintro ⟨m, e⟩ ⟨n, d⟩ hm hn hne
  obtain ⟨s, -, rfl, -⟩ := FileSystem.mem_below.mp hm
  obtain ⟨t, -, rfl, -⟩ := FileSystem.mem_below.mp hn
  intro heq
  rw [List.drop_left, List.drop_left] at heq
  exact hne (by rw [heq])

theorem met_perm (h : fs.Reordered fs') (hfs : fs.Unambiguous) :
    (met fs' root l).Perm (met fs root l) := by
  have hsearches : searches fs' = searches fs := by
    funext p m
    rw [searches, searches, h.entry hfs, h.denies]
  unfold met
  rw [hsearches]
  exact ((h.below l).map _).filter _

/-! ## The files in order -/

theorem isFile_iff {p : Path} : isFile fs p = true ↔ ∃ m c, fs.entry p = .ok (m, .file c) := by
  have hlook : isFile fs p = true ↔ ∃ c, fs.look p = .ok (some (.file c)) := by
    unfold isFile
    split
    · rename_i c hc
      exact ⟨fun _ => ⟨c, hc⟩, fun _ => rfl⟩
    · rename_i hno
      exact ⟨nofun, fun ⟨c, hc⟩ => absurd hc (hno c)⟩
  rw [hlook, exists_comm]
  exact exists_congr fun c => FileSystem.look_eq_some_iff

theorem mem_files {p : Path} : p ∈ files fs root l allowed excluded ↔
    ∃ segments, Met fs root l segments ∧ p = root.join { parts := segments } ∧
      (∃ m c, fs.entry p = .ok (m, .file c)) ∧ isListed allowed excluded segments = true := by
  simp only [files, List.mem_mergeSort, List.mem_map, List.mem_filter, Bool.and_eq_true, mem_met,
    isFile_iff]
  constructor
  · rintro ⟨segments, ⟨hmet, hfile, hlisted⟩, rfl⟩
    exact ⟨segments, hmet, rfl, hfile, hlisted⟩
  · rintro ⟨segments, hmet, rfl, hfile, hlisted⟩
    exact ⟨segments, ⟨hmet, hfile, hlisted⟩, rfl⟩

theorem files_sorted (fs : FileSystem) (root : Path) (l : Location)
    (allowed excluded : List String) :
    (files fs root l allowed excluded).Pairwise fun p q => ¬ q.segments < p.segments := by
  have htrans : ∀ p q r : Path,
      (!q.before p) = true → (!r.before q) = true → (!r.before p) = true := by
    intro p q r hpq hqr
    rw [Path.not_before, List.not_lt] at hpq hqr ⊢
    exact List.le_trans hpq hqr
  have htotal : ∀ p q : Path, (!q.before p || !p.before q) = true := by
    intro p q
    rw [Bool.or_eq_true, Path.not_before, Path.not_before, List.not_lt, List.not_lt]
    exact List.le_total _ _
  exact (List.pairwise_mergeSort htrans htotal _).imp Path.not_before.mp

theorem eq_of_segments_eq {p q : Path} (hp : p ∈ files fs root l allowed excluded)
    (hq : q ∈ files fs' root l allowed excluded) (h : p.segments = q.segments) : p = q := by
  obtain ⟨s, -, rfl, -⟩ := mem_files.mp hp
  obtain ⟨t, -, rfl, -⟩ := mem_files.mp hq
  rw [Path.segments_join, Path.segments_join] at h
  rw [List.append_cancel_left h]

theorem files_reordered (h : fs.Reordered fs') (hfs : fs.Unambiguous) :
    files fs' root l allowed excluded = files fs root l allowed excluded := by
  have hfile : isFile fs' = isFile fs := by
    funext p
    rw [isFile, isFile, h.look hfs]
  refine List.Perm.eq_of_pairwise ?_ (files_sorted fs' _ _ _ _) (files_sorted fs _ _ _ _) ?_
  · intro p q hp hq hle hge
    exact eq_of_segments_eq hp hq (List.le_antisymm (List.not_lt.mp hle) (List.not_lt.mp hge))
  · unfold files
    rw [hfile]
    exact (List.mergeSort_perm _ _).trans
      ((((met_perm h hfs).filter _).map _).trans (List.mergeSort_perm _ _).symm)

theorem files_strict (h : fs.Unambiguous) :
    (files fs root l allowed excluded).Pairwise fun p q => p.segments < q.segments := by
  have hnodup : (files fs root l allowed excluded).Nodup := by
    rw [files, (List.mergeSort_perm _ _).nodup_iff, List.Nodup, List.pairwise_map]
    exact ((met_nodup h).filter _).imp fun hne heq => hne (Path.join_inj heq)
  refine ((files_sorted fs root l allowed excluded).and hnodup).imp_of_mem ?_
  rintro p q hp hq ⟨hle, hne⟩
  refine Classical.byContradiction fun hlt => hne ?_
  exact eq_of_segments_eq hp hq (List.le_antisymm (List.not_lt.mp hle) (List.not_lt.mp hlt))

/-! ## Searches that end early -/

def IsHindered (fs : FileSystem) (root : Path) (l : Location) (f : Failure) : Prop :=
  ∃ segments fault, Met fs root l segments ∧
    fs.look (root.join { parts := segments }) = .error fault ∧
    f = .file fault (root.join { parts := segments }).text

theorem hindrance?_eq_some_iff {p : Path} {f : Failure} :
    hindrance? fs p = some f ↔ ∃ fault, fs.look p = .error fault ∧ f = .file fault p.text := by
  unfold hindrance?
  cases fs.look p <;> simp [eq_comm]

theorem below_cases (fs : FileSystem) (root : Path) (l : Location)
    (allowed excluded : List String) :
    ((∀ f, ¬IsHindered fs root l f) ∧
      below fs root l allowed excluded = .ok (files fs root l allowed excluded)) ∨
    ∃ f, IsHindered fs root l f ∧ below fs root l allowed excluded = .error f := by
  unfold below
  cases hfind : (met fs root l).findSome? fun s => hindrance? fs (root.join { parts := s }) with
  | none =>
      refine .inl ⟨?_, rfl⟩
      rintro f ⟨segments, fault, hmet, hlook, rfl⟩
      have hnone := List.findSome?_eq_none_iff.mp hfind segments (mem_met.mpr hmet)
      rw [hindrance?, hlook] at hnone
      cases hnone
  | some f =>
      obtain ⟨segments, hmem, hsome⟩ := List.exists_of_findSome?_eq_some hfind
      obtain ⟨fault, hlook, rfl⟩ := hindrance?_eq_some_iff.mp hsome
      exact .inr ⟨_, ⟨segments, fault, mem_met.mp hmem, hlook, rfl⟩, rfl⟩

theorem isHindered_reordered (h : fs.Reordered fs') (hfs : fs.Unambiguous) {f : Failure}
    (hhindered : IsHindered fs' root l f) : IsHindered fs root l f := by
  obtain ⟨segments, fault, hmet, hlook, rfl⟩ := hhindered
  rw [h.look hfs] at hlook
  exact ⟨segments, fault, mem_met.mp ((met_perm h hfs).mem_iff.mp (mem_met.mpr hmet)), hlook, rfl⟩

theorem below_eq_ok_iff {found : List Path} : below fs root l allowed excluded = .ok found ↔
    (∀ f, ¬IsHindered fs root l f) ∧ found = files fs root l allowed excluded := by
  rcases below_cases fs root l allowed excluded with ⟨hfree, hbelow⟩ | ⟨f, hhindered, hbelow⟩
  · rw [hbelow]
    exact ⟨fun h => ⟨hfree, (Except.ok.inj h).symm⟩, fun h => h.2 ▸ rfl⟩
  · rw [hbelow]
    exact ⟨nofun, fun h => absurd hhindered (h.1 f)⟩

/-! ## Discovery -/

variable {extensions : Option (List String)} {excluded' : Option (List String)}
  {context : Option String}

theorem isListed_iff {es segments : List String} :
    isListed (Extensions.normalize es) excluded segments = true ↔
      (∀ s ∈ segments.dropLast, s ∉ excluded) ∧
        Extensions.Allows es (segments.getLast?.getD "") := by
  rw [isListed, Bool.and_eq_true, Extensions.allow_normalize]
  simp

theorem discover_directory (h : fs.entry root = .ok (l, .directory)) :
    discover fs root (extensions.map fun es => .list (es.map .str)) excluded' context =
      below fs root l (Extensions.normalize (extensions.getD Extensions.default))
        (excluded'.getD defaultExcluded) := by
  cases extensions <;> simp [discover, h, Extensions.ofValue_texts, bind, Except.bind]

theorem discover_file {c : Content} (h : fs.entry root = .ok (l, .file c)) :
    discover fs root (extensions.map fun es => .list (es.map .str)) excluded' context =
      .ok (if Extensions.allow (Extensions.normalize (extensions.getD Extensions.default)) root.name
        then [root] else []) := by
  cases extensions <;> simp [discover, h, Extensions.ofValue_texts, bind, Except.bind]

theorem discover_error {f : FileFault} {v : Option Value} (h : fs.entry root = .error f) :
    discover fs root v excluded' context =
      .error (if f.isAbsence then .pathNotFound root context else .file f root.text) := by
  simp [discover, h]

/-- A root that is there gives files, or a failure of something that is met below it. -/
theorem discover_cases {place : Location × Entry} (h : fs.entry root = .ok place) :
    (∃ found, discover fs root (extensions.map fun es => .list (es.map .str)) excluded' context =
      .ok found) ∨
    ∃ l f, fs.entry root = .ok (l, .directory) ∧ IsHindered fs root l f ∧
      discover fs root (extensions.map fun es => .list (es.map .str)) excluded' context =
        .error f := by
  obtain ⟨l, e⟩ := place
  cases e with
  | file c => exact .inl ⟨_, discover_file h⟩
  | directory =>
      rcases below_cases fs root l (Extensions.normalize (extensions.getD Extensions.default))
          (excluded'.getD defaultExcluded) with ⟨-, hbelow⟩ | ⟨f, hhindered, hbelow⟩
      · exact .inl ⟨_, (discover_directory h).trans hbelow⟩
      · exact .inr ⟨l, f, h, hhindered, (discover_directory h).trans hbelow⟩
  | link t => exact absurd rfl ((FileSystem.entry_eq_ok_iff.mp h).2.2 t)

/-- Where something is discovered the root is a file, which is discovered alone or not at all, or a
directory, of which all that is met can be looked at. -/
theorem discover_eq_ok {v : Option Value} {found : List Path}
    (h : discover fs root v excluded' context = .ok found) :
    (∃ l c, fs.entry root = .ok (l, .file c) ∧ (found = [root] ∨ found = [])) ∨
      ∃ l allowed, fs.entry root = .ok (l, .directory) ∧
        found = files fs root l allowed (excluded'.getD defaultExcluded) := by
  cases hroot : fs.entry root with
  | error f =>
      rw [discover_error hroot] at h
      cases h
  | ok place =>
      obtain ⟨l, e⟩ := place
      simp only [discover, hroot] at h
      cases e with
      | file c =>
          obtain ⟨allowed, rfl⟩ :
              ∃ allowed, (if Extensions.allow allowed root.name then [root] else []) = found := by
            cases v with
            | none => exact ⟨_, Except.ok.inj h⟩
            | some v =>
                obtain ⟨allowed, -, h⟩ := bind_eq_ok_iff.mp h
                exact ⟨_, Except.ok.inj h⟩
          refine .inl ⟨l, c, rfl, ?_⟩
          split
          · exact .inl rfl
          · exact .inr rfl
      | directory =>
          obtain ⟨allowed, hbelow⟩ : ∃ allowed,
              below fs root l allowed (excluded'.getD defaultExcluded) = .ok found := by
            cases v with
            | none => exact ⟨_, h⟩
            | some v =>
                obtain ⟨allowed, -, h⟩ := bind_eq_ok_iff.mp h
                exact ⟨_, h⟩
          exact .inr ⟨l, allowed, rfl, (below_eq_ok_iff.mp hbelow).2⟩
      | link t => exact absurd rfl ((FileSystem.entry_eq_ok_iff.mp hroot).2.2 t)

theorem exists_below {v : Option Value} {found : List Path} {f : Path}
    (h : discover fs root v excluded' context = .ok found) (hf : f ∈ found) :
    ∃ segments, f = root.join { parts := segments } ∧
      (∀ l c, fs.entry root = .ok (l, .file c) → segments = []) ∧
      (∀ l, fs.entry root = .ok (l, .directory) → segments ≠ []) := by
  rcases discover_eq_ok h with ⟨l, c, hroot, hfiles⟩ | ⟨l, allowed, hroot, rfl⟩
  · have hself : f = root := by
      rcases hfiles with rfl | rfl
      · exact List.mem_singleton.mp hf
      · exact absurd hf List.not_mem_nil
    refine ⟨[], hself.trans root.join_nil.symm, fun _ _ _ => rfl, fun l' hdirectory => ?_⟩
    rw [hroot] at hdirectory
    cases hdirectory
  · obtain ⟨segments, hmet, rfl, -⟩ := mem_files.mp hf
    refine ⟨segments, rfl, fun l' c' hfile => ?_, fun _ _ => hmet.proper⟩
    rw [hroot] at hfile
    cases hfile

theorem discover_sorted {v : Option Value} {found : List Path} (hfs : fs.Unambiguous)
    (h : discover fs root v excluded' context = .ok found) :
    found.Pairwise fun p q => p.segments < q.segments := by
  rcases discover_eq_ok h with ⟨l, c, -, rfl | rfl⟩ | ⟨l, allowed, -, rfl⟩
  · exact List.pairwise_singleton _ _
  · exact List.Pairwise.nil
  · exact files_strict hfs

/-- What is discovered does not depend on the order of the file system. -/
theorem discover_reordered {found : List Path} (h : fs.Reordered fs') (hfs : fs.Unambiguous) :
    discover fs' root (extensions.map fun es => .list (es.map .str)) excluded' context = .ok found ↔
      discover fs root (extensions.map fun es => .list (es.map .str)) excluded' context =
        .ok found := by
  have hentry := h.entry hfs
  cases hroot : fs.entry root with
  | error f => rw [discover_error hroot, discover_error (hentry ▸ hroot)]
  | ok place =>
      obtain ⟨l, e⟩ := place
      cases e with
      | link t => exact absurd rfl ((FileSystem.entry_eq_ok_iff.mp hroot).2.2 t)
      | file c => rw [discover_file hroot, discover_file (hentry ▸ hroot)]
      | directory =>
          have hback : fs'.Reordered fs :=
            ⟨h.workingDirectory.symm, h.entries.symm, h.denied.symm⟩
          rw [discover_directory hroot, discover_directory (hentry ▸ hroot), below_eq_ok_iff,
            below_eq_ok_iff, files_reordered h hfs]
          refine and_congr_left fun _ => forall_congr' fun f => not_congr ⟨?_, ?_⟩
          · exact isHindered_reordered h hfs
          · exact isHindered_reordered hback (h.unambiguous hfs)

/-! ## Plain trees -/

/-- An entry below a root is no link, its path can be looked up, and the directories above
it may be entered and listed. -/
structure IsPlain (fs : FileSystem) (root : Path) (l : Location) (segments : List String)
    (e : Entry) : Prop where
  ne_link : ∀ t, e ≠ .link t
  path : FileSystem.checkPath (root.join { parts := segments }) = .ok ()
  names : ∀ s ∈ segments, s ≠ ".." ∧ s.utf8ByteSize ≤ FileSystem.maxSegment
  above : ∀ n < segments.length, fs.entryAt? (l ++ segments.take n) = some .directory ∧
    fs.denies (l ++ segments.take n) .enter = false ∧ fs.denies (l ++ segments.take n) .list = false

theorem descend_below (hlink : ∀ t, fs.entryAt? (l ++ segments) ≠ some (.link t))
    (hnames : ∀ s ∈ segments, s ≠ ".." ∧ s.utf8ByteSize ≤ FileSystem.maxSegment)
    (habove : ∀ n < segments.length, fs.entryAt? (l ++ segments.take n) = some .directory ∧
      fs.denies (l ++ segments.take n) .enter = false) :
    fs.descend l segments = .ok (l ++ segments) := by
  induction segments using List.reverseRecOn with
  | nil => simp [FileSystem.descend, pure, Except.pure]
  | append_singleton segments s ih =>
      -- The directory that holds the last name is reached in the same way.
      have hlength : (segments ++ [s]).length = segments.length + 1 := by simp
      have hholder := habove segments.length (by omega)
      rw [List.take_left] at hholder
      have hinit : fs.descend l segments = .ok (l ++ segments) := by
        refine ih (fun t ht => ?_) (fun x hx => hnames x (by simp [hx])) fun n hn => ?_
        · rw [hholder.1] at ht
          cases ht
        · have hbefore := habove n (by omega)
          rwa [List.take_append_of_le_length (Nat.le_of_lt hn)] at hbefore
      obtain ⟨hup, hshort⟩ := hnames s (by simp)
      have hstep : fs.step (l ++ segments) s = .ok (l ++ segments ++ [s]) := by
        rw [FileSystem.step_eq_ok_iff, if_neg hup]
        exact ⟨hholder.1, hholder.2, hshort, rfl⟩
      calc fs.descend l (segments ++ [s])
          = fs.follow (l ++ segments ++ [s]) := by
            simp [FileSystem.descend_concat, hinit, hstep, bind, Except.bind]
        _ = .ok (l ++ (segments ++ [s])) := by
            rw [List.append_assoc, FileSystem.follow_of_ne_link hlink]

theorem entry_below (hfs : fs.Unambiguous) (hroot : fs.entry root = .ok (l, .directory))
    (hne : segments ≠ []) {e : Entry} (hmem : (l ++ segments, e) ∈ fs.entries)
    (hplain : IsPlain fs root l segments e) :
    fs.entry (root.join { parts := segments }) = .ok (l ++ segments, e) := by
  obtain ⟨htarget, -, -⟩ := FileSystem.entry_eq_ok_iff.mp hroot
  have hentry : fs.entryAt? (l ++ segments) = some e :=
    (FileSystem.entryAt?_eq_some_iff hfs (by simp [hne])).mpr hmem
  have hdescend : fs.descend l segments = .ok (l ++ segments) := by
    refine descend_below (fun t ht => ?_) hplain.names fun n hn => ?_
    · exact hplain.ne_link t (Option.some.inj (hentry.symm.trans ht))
    · exact ⟨(hplain.above n hn).1, (hplain.above n hn).2.1⟩
  refine FileSystem.entry_eq_ok_iff.mpr ⟨?_, hentry, hplain.ne_link⟩
  refine FileSystem.target_eq_ok_iff.mpr ⟨hplain.path, ?_⟩
  calc fs.descend (fs.start root) (root.parts ++ segments)
      = fs.descend (fs.start root) root.parts >>= fun m => fs.descend m segments := by
        simp [FileSystem.descend]
    _ = .ok (l ++ segments) := by
        simp [(FileSystem.target_eq_ok_iff.mp htarget).2, hdescend, bind, Except.bind]

variable (hplain : ∀ segments e, segments ≠ [] → (l ++ segments, e) ∈ fs.entries →
    IsPlain fs root l segments e)

include hplain

theorem met_of_plain (hfs : fs.Unambiguous) (hroot : fs.entry root = .ok (l, .directory))
    (hne : segments ≠ []) {e : Entry} (hmem : (l ++ segments, e) ∈ fs.entries) :
    Met fs root l segments := by
  refine ⟨hne, ⟨e, hmem⟩, fun n hn => ?_⟩
  obtain ⟨hdirectory, -, hlist⟩ := (hplain segments e hne hmem).above n hn
  refine ⟨?_, hlist⟩
  cases n with
  | zero => simpa [Path.join_nil] using hroot
  | succ n =>
      have hsome : segments.take (n + 1) ≠ [] := by simp [hne]
      have hthere := (FileSystem.entryAt?_eq_some_iff hfs (by simp [hne])).mp hdirectory
      exact entry_below hfs hroot hsome hthere (hplain _ _ hsome hthere)

theorem not_isHindered_of_plain (hfs : fs.Unambiguous)
    (hroot : fs.entry root = .ok (l, .directory)) (f : Failure) : ¬IsHindered fs root l f := by
  rintro ⟨segments, fault, ⟨hne, ⟨e, hmem⟩, -⟩, hlook, -⟩
  have hentry := entry_below hfs hroot hne hmem (hplain _ _ hne hmem)
  rw [FileSystem.look_of_entry hentry] at hlook
  cases hlook

end Discovery

open Discovery in
/-- Discovery gives the same files in whatever order the file system lists them.  Below a directory
they come in the order of their paths, and are all files with an allowed extension, links to files
among them, but for those below an excluded directory, a linked one or one that may not be listed;
unless one of the entries that are met cannot be looked at, since its path is too long or leads
over something forbidden: then this is the failure.  Below a plain directory there is no such entry
and every file is met.  A file is its own and only source.  A root that is not there is reported as
missing; one that is too long or forbidden fails. -/
theorem discovers_every_source_file (fs : FileSystem) (hfs : fs.Unambiguous) (root : Path)
    (extensions excluded : Option (List String)) (context : Option String) :
    let found := fun fs =>
      discover fs root (extensions.map fun es => .list (es.map .str)) excluded context
    let allowed := extensions.getD Extensions.default
    let IsWanted := fun (p : Path) (segments : List String) =>
      Extensions.Allows allowed p.name ∧
        ∀ s ∈ segments.dropLast, s ∉ excluded.getD defaultExcluded
    (∀ fs', fs.Reordered fs' → ∀ files, found fs' = .ok files ↔ found fs = .ok files) ∧
    (∀ l, fs.entry root = .ok (l, .directory) →
      ((∀ f, ¬IsHindered fs root l f) → ∃ files, found fs = .ok files ∧
        files.Pairwise (fun p q => p.segments < q.segments) ∧
        ∀ p, p ∈ files ↔ ∃ segments, Met fs root l segments ∧
          p = root.join { parts := segments } ∧ (∃ m c, fs.entry p = .ok (m, .file c)) ∧
          IsWanted p segments) ∧
      ((∃ f, IsHindered fs root l f) → ∃ f, IsHindered fs root l f ∧ found fs = .error f) ∧
      ((∀ segments e, segments ≠ [] → (l ++ segments, e) ∈ fs.entries →
          IsPlain fs root l segments e) →
        ∃ files, found fs = .ok files ∧
          ∀ p, p ∈ files ↔ ∃ segments, segments ≠ [] ∧ p = root.join { parts := segments } ∧
            (∃ c, fs.entryAt? (l ++ segments) = some (.file c)) ∧ IsWanted p segments)) ∧
    (∀ l c, fs.entry root = .ok (l, .file c) →
      (Extensions.Allows allowed root.name → found fs = .ok [root]) ∧
      (¬ Extensions.Allows allowed root.name → found fs = .ok [])) ∧
    (∀ f, fs.entry root = .error f →
      found fs =
        .error (if f.isAbsence then .pathNotFound root context else .file f root.text)) := by
  intro found allowed IsWanted
  have hlisted {p : Path} {segments : List String} (hne : segments ≠ [])
      (hp : p = root.join { parts := segments }) :
      isListed (Extensions.normalize allowed) (excluded.getD defaultExcluded) segments = true ↔
        IsWanted p segments := by
    rw [isListed_iff, ← Path.name_join (p := root) hne, ← hp]
    exact and_comm
  refine ⟨fun fs' h files => discover_reordered h hfs, fun l hroot => ⟨?_, ?_, ?_⟩,
    fun l c hroot => ?_, fun f hroot => discover_error hroot⟩
  · intro hfree
    refine ⟨_, (discover_directory hroot).trans (below_eq_ok_iff.mpr ⟨hfree, rfl⟩),
      files_strict hfs, fun p => ?_⟩
    rw [mem_files]
    refine exists_congr fun segments => and_congr_right fun hmet => and_congr_right fun hp => ?_
    exact and_congr_right fun _ => hlisted hmet.proper hp
  · rintro ⟨f, hhindered⟩
    rcases below_cases fs root l _ _ with ⟨hfree, -⟩ | ⟨g, hg, hbelow⟩
    · exact absurd hhindered (hfree f)
    · exact ⟨g, hg, (discover_directory hroot).trans hbelow⟩
  · intro hplain
    have hfree := not_isHindered_of_plain hplain hfs hroot
    refine ⟨_, (discover_directory hroot).trans (below_eq_ok_iff.mpr ⟨hfree, rfl⟩), fun p => ?_⟩
    rw [mem_files]
    constructor
    · rintro ⟨segments, hmet, hp, ⟨m, c, hfile⟩, hlist⟩
      obtain ⟨e, hmem⟩ := hmet.there
      have hentry := entry_below hfs hroot hmet.proper hmem (hplain _ _ hmet.proper hmem)
      rw [hp, hentry] at hfile
      cases hfile
      refine ⟨segments, hmet.proper, hp, ⟨c, ?_⟩, (hlisted hmet.proper hp).mp hlist⟩
      exact (FileSystem.entryAt?_eq_some_iff hfs (by simp [hmet.proper])).mpr hmem
    · rintro ⟨segments, hne, hp, ⟨c, hfile⟩, hwanted⟩
      have hmem := (FileSystem.entryAt?_eq_some_iff hfs (by simp [hne])).mp hfile
      have hentry := entry_below hfs hroot hne hmem (hplain _ _ hne hmem)
      exact ⟨segments, met_of_plain hplain hfs hroot hne hmem, hp,
        ⟨l ++ segments, c, hp ▸ hentry⟩, (hlisted hne hp).mpr hwanted⟩
  · rw [← Extensions.allow_normalize]
    constructor
    · intro hallow
      exact (discover_file hroot).trans (by rw [if_pos hallow])
    · intro hallow
      exact (discover_file hroot).trans (by rw [if_neg hallow])

open Discovery in
/-- A directory with a capitalised source file and one in an excluded directory, listed in either
order, and a directory that may be listed but not entered. -/
theorem discovers_in_either_order :
    let entries : List (Location × Entry) :=
      [(["w"], .directory), (["w", "a"], .directory), (["w", "a", "X.JAVA"], .file (.bytes [])),
        (["w", ".git"], .directory), (["w", ".git", "y.java"], .file (.bytes []))]
    let closed : FileSystem :=
      { entries := [(["w"], .directory), (["w", "a.java"], .file (.bytes []))],
        denied := [(["w"], .enter)] }
    let root : Path := { root := "/", parts := ["w"] }
    let found (fs : FileSystem) := discover fs root (some (.list [.str " Java"])) none none
    (∃ files, found { entries } = .ok files ∧ found { entries := entries.reverse } = .ok files ∧
        root.join { parts := ["a", "X.JAVA"] } ∈ files ∧
        root.join { parts := [".git", "y.java"] } ∉ files) ∧
      ∃ f, IsHindered closed root ["w"] f ∧ found closed = .error f := by
  intro entries closed root found
  have hentry : ({ entries } : FileSystem).entry root = .ok (["w"], .directory) := by
    decide +kernel
  have hplain : ∀ segments e, segments ≠ [] → (["w"] ++ segments, e) ∈ entries →
      IsPlain { entries } root ["w"] segments e := by
    rintro segments e hne hmem
    simp only [entries, List.mem_cons, Prod.mk.injEq, List.cons_append, List.nil_append,
      List.cons.injEq, true_and, List.not_mem_nil, or_false] at hmem
    obtain ⟨rfl, rfl⟩ | ⟨rfl, rfl⟩ | ⟨rfl, rfl⟩ | ⟨rfl, rfl⟩ | ⟨rfl, rfl⟩ := hmem
    · exact absurd rfl hne
    all_goals exact ⟨nofun, by decide +kernel, by decide +kernel, by decide +kernel⟩
  obtain ⟨horder, hdirectory, -⟩ :=
    discovers_every_source_file { entries } (by decide) root (some [" Java"]) none none
  obtain ⟨files, hfiles, hmem⟩ := (hdirectory ["w"] hentry).2.2 hplain
  refine ⟨⟨files, hfiles, ?_, (hmem _).mpr ?_, fun h => ?_⟩, ?_⟩
  · exact (horder { entries := entries.reverse } ⟨rfl, List.reverse_perm entries, rfl⟩ files).mpr
      hfiles
  · exact ⟨["a", "X.JAVA"], by decide, rfl, ⟨_,
      rfl⟩, ⟨".java", by decide +kernel, by decide +kernel⟩, by decide⟩
  · obtain ⟨segments, -, hjoin, -, -, hexcluded⟩ := (hmem _).mp h
    rw [← Path.join_inj hjoin] at hexcluded
    exact hexcluded ".git" (by decide) (by decide)
  · obtain ⟨-, hclosed, -⟩ :=
      discovers_every_source_file closed (by decide) root (some [" Java"]) none none
    have hlook : closed.look (root.child "a.java") = .error .denied := by decide +kernel
    refine (hclosed ["w"] (by decide +kernel)).2.1
      ⟨_, ["a.java"], .denied, ⟨by decide, ⟨_, .tail _ (.head _)⟩, ?_⟩, hlook, rfl⟩
    intro n hn
    obtain rfl : n = 0 := by simpa using hn
    decide +kernel

end ImportAudit
