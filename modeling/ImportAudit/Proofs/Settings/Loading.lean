import ImportAudit.Proofs.Settings.Check

/-!
# Checking what is loaded

A mapping is checked before the defaults are filled in, settings are checked after. Both checks come
to the same, since every default is admitted and every setting is looked at on its own. A section
that is no mapping is found before that, unless the environment has put a section in its place.
-/

namespace ImportAudit

namespace Value

mutual

/-- Whether lists and mappings are nested at most so deep in a value. In one that contains itself
they are not. -/
def isWithin (n : Nat) : Value → Bool
  | list xs => decide (0 < n) && areWithin (n - 1) xs
  | tuple xs => decide (0 < n) && areWithin (n - 1) xs
  | map es => decide (0 < n) && entriesWithin (n - 1) es
  | knot _ => false
  | _ => true

def areWithin (n : Nat) : List Value → Bool
  | [] => true
  | x :: xs => isWithin n x && areWithin n xs

def entriesWithin (n : Nat) : List (Value × Value) → Bool
  | [] => true
  | (_, v) :: es => isWithin n v && entriesWithin n es

end

mutual

theorem isEndless_of_isWithin : ∀ {n : Nat} {v : Value}, v.isWithin n = true → v.isEndless = false
  | _, list _, h => anyEndless_of_areWithin (Bool.and_eq_true_iff.mp h).2
  | _, tuple _, h => anyEndless_of_areWithin (Bool.and_eq_true_iff.mp h).2
  | _, map _, h => entriesEndless_of_entriesWithin (Bool.and_eq_true_iff.mp h).2
  | _, null, _ | _, bool _, _ | _, int _, _ | _, float _, _ | _, str _, _ | _, torn _, _
  | _, date .., _ | _, moment _, _ | _, bytes _, _ | _, set _, _ => rfl

theorem anyEndless_of_areWithin : ∀ {n : Nat} {xs : List Value},
    areWithin n xs = true → anyEndless xs = false
  | _, [], _ => rfl
  | _, _ :: _, h => by
      obtain ⟨hx, hxs⟩ := Bool.and_eq_true_iff.mp h
      rw [anyEndless, isEndless_of_isWithin hx, anyEndless_of_areWithin hxs]
      rfl

theorem entriesEndless_of_entriesWithin : ∀ {n : Nat} {es : List (Value × Value)},
    entriesWithin n es = true → entriesEndless es = false
  | _, [], _ => rfl
  | _, (_, _) :: _, h => by
      obtain ⟨hv, hes⟩ := Bool.and_eq_true_iff.mp h
      rw [entriesEndless, isEndless_of_isWithin hv, entriesEndless_of_entriesWithin hes]
      rfl

end

end Value

namespace Settings

open Value (lookup mergeEntries mergeOver textKeys)

variable {data : List (Value × Value)} {c : Settings} {part : Section}

/-! ## Before and after the defaults -/

theorem fault?_default (s : Setting) : fault? s (({} : Settings).get s) = none := by
  cases s <;> decide +kernel

theorem check_eq_ok_iff (hc : c.IsComplete) (hfinite : ∀ s, (c.get s).isEndless = false) :
    c.check = .ok () ↔ ∀ s, fault? s (c.get s) = none := by
  refine ⟨fault?_of_check, fun h => ?_⟩
  have hcheck : FailsOnly (fun _ => False) c.check := check_of_complete hc hfinite fun s f hf => by
    rw [h s] at hf
    cases hf
  obtain ⟨_, hok⟩ := hcheck.exists_ok
  exact hok

theorem check_of_endless (hc : c.IsComplete) {s : Setting} (hs : (c.get s).isEndless = true) :
    c.check = .error .endless := by
  have hfails : FailsOnly (· = Failure.endless) c.complete := by
    refine .bind (.forM fun t _ => ?_) fun _ _ => .ok _
    refine .bind ?_ fun _ _ => ?_
    · rw [require, hc t]
      exact .ok _
    · split
      · exact .error rfl
      · exact .ok _
  unfold check
  cases hcomplete : c.complete with
  | ok data =>
      have hfinite := (complete_eq_ok_iff.mp hcomplete).2.1 s
      rw [hs] at hfinite
      cases hfinite
  | error f =>
      rw [hfails f hcomplete]
      rfl

theorem isBent_of_ofEntries (h : ofEntries data = .ok c) (part : Section) :
    isBent data part = false := by
  have hsection {c d : Settings} {part : Section} (h : assignSection data c part = .ok d) :
      isBent data part = false := by
    unfold assignSection at h
    unfold isBent
    split at h
    · rename_i hnone
      rw [hnone]
      rfl
    · rename_i es hes
      rw [hes]
      rfl
    · cases h
  unfold ofEntries at h
  rw [List.foldlM_cons] at h
  obtain ⟨c₁, hfirst, h⟩ := bind_eq_ok_iff.mp h
  rw [List.foldlM_cons] at h
  obtain ⟨c₂, hsecond, -⟩ := bind_eq_ok_iff.mp h
  cases part with
  | analysis => exact hsection hfirst
  | output => exact hsection hsecond

/-- Settings taken from a mapping pass the check exactly if the mapping does,
unless a value contains itself. -/
theorem check_iff_checkData (hkeys : HasUniqueSections data) (hkeeps : KeepsSections data)
    (h : ofEntries data = .ok c) (hfinite : ∀ s, (c.get s).isEndless = false) :
    c.check = .ok () ↔ checkData (.map data) = .ok () := by
  obtain ⟨hcomplete, hget⟩ := ofEntries_spec hkeys hkeeps h
  have hfault (s : Setting) : fault? s (c.get s) = (valueIn? data s).bind (fault? s) := by
    rw [hget s]
    cases valueIn? data s with
    | none => exact fault?_default s
    | some v => rfl
  rw [check_eq_ok_iff hcomplete hfinite, checkData_eq_ok_iff]
  exact ⟨fun hall => ⟨isBent_of_ofEntries h, fun s => (hfault s).symm.trans (hall s)⟩, fun hall s =>
    (hfault s).trans (hall.2 s)⟩

section Loading

variable {w w' : World} {path path' : Option String} {raw raw' file : List (Value × Value)}

theorem exists_holds_of_fileMapping (h : fileMapping w path = .ok file) :
    ∃ raw, FileHolds w path raw ∧ file = filled raw := by
  unfold fileMapping at h
  unfold FileHolds
  cases hchosen : chosen? w path with
  | none =>
      rw [hchosen] at h
      cases h
      exact ⟨[], rfl, rfl⟩
  | some p =>
      rw [hchosen] at h
      obtain ⟨v, hdocument, hread⟩ := bind_eq_ok_iff.mp h
      cases v with
      | map raw => exact ⟨raw, hdocument, (Except.ok.inj hread).symm⟩
      | _ => cases hread

/-- How deep a value is nested at most that can be copied for the check: a level takes two calls,
and of the thousand a fifth is left to the caller. -/
def nestingLimit : Nat := 400

/-- What is loaded with the check is loaded without it. If all its values are nested within the
limit, loading with the check gives settings exactly if loading without it gives the same ones and
they pass the check. If a value contains itself they do not pass it, whether they were loaded with
the check or not. -/
theorem load_checked_iff (w : World) (path : Option String) (useEnvironment : Bool) (c : Settings)
    (hkeeps : ∀ raw, FileHolds w path raw → KeepsSections raw) :
    ((load path useEnvironment true w).1 = .ok c → (load path useEnvironment false w).1 = .ok c) ∧
    ((∀ s, (c.get s).isWithin nestingLimit = true) →
      ((load path useEnvironment true w).1 = .ok c ↔
        (load path useEnvironment false w).1 = .ok c ∧ c.check = .ok ())) ∧
    ((∃ s, (c.get s).isEndless = true) → (load path useEnvironment false w).1 = .ok c →
      c.check = .error .endless) := by
  obtain ⟨logs, hchecked⟩ := load_apply w path useEnvironment true
  obtain ⟨logs', hunchecked⟩ := load_apply w path useEnvironment false
  rw [hchecked, hunchecked]
  dsimp only
  cases hmapping : fileMapping w path with
  | error f => exact ⟨nofun, fun _ => ⟨nofun, nofun⟩, fun _ => nofun⟩
  | ok file =>
      obtain ⟨raw, hfile, rfl⟩ := exists_holds_of_fileMapping hmapping
      have hnodup := nodup_filled hfile.uniqueKeys.nodup
      generalize (if useEnvironment then w.environment else []) = vars
      have hkeys := hasUniqueSections_merged vars hnodup hfile.uniqueSections.filled
      have hkept := keepsSections_merged vars hnodup (hkeeps raw hfile).filled
      show (ofLayers true _ = .ok c → ofLayers false _ = .ok c) ∧
        (_ → (ofLayers true _ = .ok c ↔ ofLayers false _ = .ok c ∧ _)) ∧
        (_ → ofLayers false _ = .ok c → _)
      rw [ofLayers_two, ofLayers_two, if_pos rfl, bind_eq_ok_iff]
      show (_ → ofEntries _ = .ok c) ∧ (_ → (_ ↔ ofEntries _ = .ok c ∧ _)) ∧
        (_ → ofEntries _ = .ok c → _)
      refine ⟨fun ⟨_, _, hentries⟩ => hentries, fun hwithin => ?_, ?_⟩
      · have hfinite (s : Setting) := Value.isEndless_of_isWithin (hwithin s)
        constructor
        · rintro ⟨_, hdata, hentries⟩
          exact ⟨hentries, (check_iff_checkData hkeys hkept hentries hfinite).mpr hdata⟩
        · rintro ⟨hentries, hcheck⟩
          exact ⟨(), (check_iff_checkData hkeys hkept hentries hfinite).mp hcheck, hentries⟩
      · rintro ⟨s, hs⟩ hentries
        exact check_of_endless (ofEntries_spec hkeys hkept hentries).1 hs

def outweighedWorld : World :=
  { files := { entries := [(["c.json"], .file (.bytes (Text.encodeUtf8
      "\x7b\"analysis\":\x7b\"max_workers\":0,\"x\":1\x7d,\"output\":null\x7d")))] }
    environment := [("IMPORTLENS_MAX_WORKERS", "2")] }

theorem exists_ok_of_any {r : Except Failure Settings} {p : Settings → Bool}
    (h : r.toOption.any p = true) : ∃ c, r = .ok c ∧ p c = true := by
  cases r with
  | error f => cases h
  | ok c => exact ⟨c, rfl, h⟩

def isShallow (c : Settings) : Bool :=
  (Section.analysis.settings ++ Section.output.settings).all fun s =>
    (c.get s).isWithin nestingLimit

theorem isShallow_iff : c.isShallow = true ↔ ∀ s, (c.get s).isWithin nestingLimit = true := by
  simp only [isShallow, List.all_eq_true]
  exact ⟨fun h s => h s (by cases s <;> decide), fun h s _ => h s⟩

/-- With the environment the settings are loaded and admitted, without it they are loaded only if
they are not checked. -/
theorem load_checked_outweighed :
    (∃ c, (load (some "c.json") true true outweighedWorld).1 = .ok c ∧ c.check = .ok ()) ∧
      ∃ c, (load (some "c.json") false false outweighedWorld).1 = .ok c ∧ c.check ≠ .ok () := by
  let file : List (Value × Value) :=
    [(.str "analysis", .map [(.str "max_workers", .int 0), (.str "x", .int 1)]),
      (.str "output", .null)]
  have hdocument : ConfigFile.document outweighedWorld.files "c.json" = .ok (.map file) := by
    decide +kernel
  have hkeeps (raw : List (Value × Value)) (hfile : FileHolds outweighedWorld (some "c.json") raw) :
      KeepsSections raw := by
    cases hdocument.symm.trans hfile
    intro part es hes
    have hes := Value.mem_of_lookup hes
    cases part <;> simp [file, Section.name] at hes
    subst hes
    decide +kernel
  constructor
  · obtain ⟨c, hc, hshallow⟩ :=
      exists_ok_of_any (r := (load (some "c.json") true true outweighedWorld).1)
        (p := isShallow) (by decide +kernel)
    have hiff := (load_checked_iff outweighedWorld _ true c hkeeps).2.1 (isShallow_iff.mp hshallow)
    exact ⟨c, hc, (hiff.mp hc).2⟩
  · obtain ⟨c, hc, hshallow⟩ :=
      exists_ok_of_any (r := (load (some "c.json") false false outweighedWorld).1)
        (p := isShallow) (by decide +kernel)
    have hiff := (load_checked_iff outweighedWorld _ false c hkeeps).2.1 (isShallow_iff.mp hshallow)
    refine ⟨c, hc, fun hcheck => ?_⟩
    have hchecked := hiff.mpr ⟨hc, hcheck⟩
    have hrefused :
        (load (some "c.json") false true outweighedWorld).1.toOption.isSome = false := by
      decide +kernel
    rw [hchecked] at hrefused
    cases hrefused

/-- A title that is a list of itself is loaded with the check, and does not pass it afterwards. -/
theorem title_in_itself_unchecked :
    let w : World :=
      { files := { entries := [(["c.yaml"], .file (.bytes (Text.encodeUtf8
          "output: \x7btitle: &a [*a]\x7d")))] } }
    ∃ c, (load (some "c.yaml") false true w).1 = .ok c ∧ c.check = .error .endless := by
  intro w
  obtain ⟨c, hc, hcheck⟩ := exists_ok_of_any (r := (load (some "c.yaml") false true w).1)
    (p := fun c => c.check = .error .endless) (by decide +kernel)
  exact ⟨c, hc, of_decide_eq_true hcheck⟩

/-! ## Sections that are no mappings -/

/-- Whether a value can stand for a section of a file: a mapping, or nothing. -/
def isSection : Value → Bool
  | .null => true
  | v => v.isMap

def isMisshapen (raw : List (Value × Value)) (part : Section) : Bool :=
  (lookup (.str part.name) raw).any fun v => !isSection v

def givesSetting (vars : List (String × String)) (part : Section) : Bool :=
  part.settings.any fun s => (environmentValue? vars s).isSome

/-- The first misshapen section of a file that the environment gives no value to. -/
def exposed? (vars : List (String × String)) (raw : List (Value × Value)) : Option Section :=
  [Section.analysis, .output].find? fun part => isMisshapen raw part && !givesSetting vars part

theorem isBent_filled (raw : List (Value × Value)) (part : Section) :
    isBent (filled raw) part = isMisshapen raw part := by
  unfold isBent isMisshapen
  rw [lookup_filled]
  cases lookup (.str part.name) raw with
  | none => rfl
  | some v => cases v <;> rfl

theorem isEmpty_environmentEntries (vars : List (String × String)) (part : Section) :
    (environmentEntries vars part.settings).isEmpty = !givesSetting vars part := by
  unfold environmentEntries givesSetting
  induction part.settings with
  | nil => rfl
  | cons s settings ih =>
      rw [List.flatMap_cons, List.any_cons]
      cases environmentValue? vars s with
      | none => exact ih
      | some v => rfl

theorem isBent_merged (hnodup : (textKeys file).Nodup) (vars : List (String × String))
    (part : Section) :
    isBent (mergeEntries (mergeEntries [] file) (environmentMapping vars)) part =
      (isBent file part && !givesSetting vars part) := by
  unfold isBent
  rw [lookup_merged_environment vars hnodup, isEmpty_environmentEntries]
  cases givesSetting vars part with
  | false => exact (Bool.and_true _).symm
  | true =>
      rw [Bool.not_true, Bool.and_false]
      cases lookup (.str part.name) file with
      | none => rfl
      | some v => cases v <;> rfl

theorem find?_isBent_merged (hfile : FileHolds w path raw) (vars : List (String × String)) :
    [Section.analysis, .output].find?
      (isBent (mergeEntries (mergeEntries [] (filled raw)) (environmentMapping vars))) =
      exposed? vars raw := by
  unfold exposed?
  congr 1
  funext part
  rw [isBent_merged (nodup_filled hfile.uniqueKeys.nodup), isBent_filled]

/-! ### Other failures -/

theorem fault?_ne_notMapping {s : Setting} {v : Value} {f : Failure} (h : fault? s v = some f)
    (part : Section) :
    f ≠ notMapping part := by
  have hother : ∀ message ∈ faultMessages s, message ≠ part.name ++ " must be a mapping" := by
    cases s <;> cases part <;> decide +kernel
  rcases fault?_eq_some h with ⟨message, hmessage, rfl⟩ | ⟨-, htext⟩
  · intro hsame
    exact hother message hmessage (Failure.configuration.inj hsame)
  · unfold Value.textOrFailure at htext
    split at htext
    · cases htext
      exact Failure.noConfusion
    · split at htext
      · cases htext
      · rw [← Except.error.inj htext]
        exact Failure.noConfusion

theorem notMapping_injective : Function.Injective notMapping := by
  intro part part' h
  revert h
  cases part <;> cases part' <;> decide +kernel

theorem checked_eq_notMapping_iff :
    (checkData (.map data) >>= fun _ => ofEntries data) = .error (notMapping part) ↔
      [Section.analysis, .output].find? (isBent data) = some part := by
  cases hbent : [Section.analysis, .output].find? (isBent data) with
  | none =>
      have hfails :
          FailsOnly (· ≠ notMapping part) (checkData (.map data) >>= fun _ => ofEntries data) := by
        refine .bind (checkData_failsOnly_of (fun part' hpart => ?_) fun s v f _ hf =>
          fault?_ne_notMapping hf part)
          fun _ _ => ofEntries_failsOnly (fun _ => Failure.noConfusion)
            (fun _ => Failure.noConfusion) data
        exact absurd hpart (List.find?_eq_none.mp hbent part' (mem_sections part'))
      constructor
      · intro h
        exact absurd rfl (hfails _ h)
      · intro h
        cases h
  | some part' =>
      rw [checkData_eq, hbent]
      constructor
      · intro h
        exact congrArg some (notMapping_injective (Except.error.inj h))
      · intro h
        cases h
        rfl

/-- Without its misshapen sections a file has the same sections once the environment is over it, if
that gives a value to each of them. -/
theorem sameSections_of_not_exposed (hfile : FileHolds w path raw)
    (hfile' : FileHolds w' path' raw') {vars : List (String × String)}
    (hexposed : exposed? vars raw = none) (hrest : ∀ part : Section, lookup (.str part.name) raw' =
      if isMisshapen raw part then none else lookup (.str part.name) raw) :
    SameSections (mergeEntries (mergeEntries [] (filled raw)) (environmentMapping vars))
      (mergeEntries (mergeEntries [] (filled raw')) (environmentMapping vars)) := by
  intro part
  left
  have hnot : (isMisshapen raw part && !givesSetting vars part) = false := by
    simpa using List.find?_eq_none.mp hexposed part (mem_sections part)
  have hfilled : lookup (.str part.name) (filled raw') =
      if isMisshapen raw part then none else lookup (.str part.name) (filled raw) := by
    rw [lookup_filled raw', hrest part, lookup_filled raw]
    cases isMisshapen raw part <;> rfl
  rw [lookup_merged_environment vars (nodup_filled hfile.uniqueKeys.nodup),
    lookup_merged_environment vars (nodup_filled hfile'.uniqueKeys.nodup),
    isEmpty_environmentEntries, hfilled]
  cases hshape : isMisshapen raw part with
  | false => rfl
  | true =>
      -- The environment gives this section a value, and its mapping stands for the section of the
      -- file.
      rw [hshape, Bool.true_and] at hnot
      rw [hnot]
      rw [← isBent_filled] at hshape
      unfold isBent at hshape
      cases hlookup : lookup (.str part.name) (filled raw) with
      | none => rfl
      | some v =>
          rw [hlookup] at hshape
          cases v with
          | map es => cases hshape
          | _ => rfl

/-- A section of the file that is there and is neither a mapping nor nothing is reported exactly if
the environment gives no value to any of its settings, the first such section alone. If there is
none, the environment takes the place of those sections: what is loaded is what would be loaded
without them. Without the environment such a file is never loaded. -/
theorem misshapen_section_reported_iff (hfile : FileHolds w path raw) (useEnvironment : Bool) :
    (∀ part, (load path useEnvironment true w).1 = .error (notMapping part) ↔
      exposed? (if useEnvironment then w.environment else []) raw = some part) ∧
    (exposed? (if useEnvironment then w.environment else []) raw = none →
      ∀ (w' : World) (path' : Option String) (raw' : List (Value × Value)),
        FileHolds w' path' raw' →
        w'.environment = w.environment →
        (∀ part : Section, lookup (.str part.name) raw' =
          if isMisshapen raw part then none else lookup (.str part.name) raw) →
        ∀ validate,
          (load path useEnvironment validate w).1 = (load path' useEnvironment validate w').1) ∧
    ((∃ part, isMisshapen raw part = true) →
      ∃ part, (load path false true w).1 = .error (notMapping part)) := by
  have hreported (useEnvironment : Bool) (part : Section) :
      (load path useEnvironment true w).1 = .error (notMapping part) ↔
      exposed? (if useEnvironment then w.environment else []) raw = some part := by
    obtain ⟨logs, hload⟩ := load_apply w path useEnvironment true
    rw [hload, fileMapping_of_holds hfile, ← find?_isBent_merged hfile, ← checked_eq_notMapping_iff]
    show ofLayers true _ = _ ↔ _
    rw [ofLayers_two, if_pos rfl]
  refine ⟨hreported useEnvironment, ?_, ?_⟩
  · intro hexposed w' path' raw' hfile' henv hrest validate
    exact load_eq_of_merged hfile hfile' henv.symm useEnvironment validate fun vars hvars =>
      sameSections_of_not_exposed hfile hfile' (hvars ▸ hexposed) hrest
  · rintro ⟨part, hpart⟩
    have hsome : (exposed? [] raw).isSome := by
      rw [exposed?, List.find?_isSome]
      refine ⟨part, mem_sections part, ?_⟩
      rw [hpart]
      cases part <;> rfl
    obtain ⟨first, hfirst⟩ := Option.isSome_iff_exists.mp hsome
    exact ⟨first, (hreported false first).mpr hfirst⟩

def coveredWorld : World :=
  { files := { workingDirectory := []
               entries := [(["c.json"], .file (.bytes (Text.encodeUtf8
                 "\x7b\"analysis\":[\"java\"]\x7d")))] }
    environment := [("IMPORTLENS_MAX_WORKERS", "2")] }

/-- The list is reported without the environment; with it the file is loaded as
if there was none. -/
theorem misshapen_section_covered :
    (load (some "c.json") false true coveredWorld).1 =
      .error (.configuration "analysis must be a mapping") ∧
      (load (some "c.json") true true coveredWorld).1 =
        (load none true true { coveredWorld with files := {} }).1 ∧
      ∃ c, (load (some "c.json") true true coveredWorld).1 = .ok c ∧ c.get .workers = .int 2 := by
  have hfile : FileHolds coveredWorld (some "c.json") [(.str "analysis", .list [.str "java"])] := by
    show ConfigFile.document coveredWorld.files "c.json" = _
    decide +kernel
  have hrest (part : Section) : lookup (.str part.name) [] =
      if isMisshapen [(.str "analysis", .list [.str "java"])] part then none
      else lookup (.str part.name) [(.str "analysis", .list [.str "java"])] := by
    cases part <;> decide +kernel
  have hexposed : exposed? coveredWorld.environment [(.str "analysis", .list [.str "java"])] =
      none := by decide +kernel
  have hnone : FileHolds { coveredWorld with files := {} } none [] := by
    have hchosen : chosen? { coveredWorld with files := {} } none = none := by decide +kernel
    unfold FileHolds
    rw [hchosen]
  have hcovered :=
    (misshapen_section_reported_iff hfile true).2.1 hexposed { coveredWorld with files := {} }
      none [] hnone rfl
    hrest true
  refine ⟨((misshapen_section_reported_iff hfile false).1 .analysis).mpr
    (by decide +kernel), hcovered, ?_⟩
  obtain ⟨c, hc, hworkers⟩ :=
    exists_ok_of_any (r := (load (some "c.json") true true coveredWorld).1)
      (p := fun c => c.get .workers = .int 2) (by decide +kernel)
  exact ⟨c, hc, of_decide_eq_true hworkers⟩

end Loading

end Settings

end ImportAudit
