import ImportAudit.CommandLine.Run
import ImportAudit.Proofs.Settings.Environment
import ImportAudit.Proofs.Settings.Reading

/-!
# Where settings come from

A setting has the value that the command line gives it, or else the environment, or else
the configuration file, or else its default. Which layer gives a value to one setting does
not depend on the other settings.
-/

namespace ImportAudit

open Value (lookup mergeEntries mergeOver textKeys)

def Setting.part : Setting → Section
  | extensions | excludedDirectories | workers | timeout => .analysis
  | directory | title | format => .output

theorem Section.setting?_eq_some_iff {part : Section} {name : String} {s : Setting} :
    part.setting? name = some s ↔ s.part = part ∧ s.name = name := by
  constructor
  · intro h
    unfold Section.setting? at h
    have hname : s.name = name := by simpa using List.find?_some h
    have hmem : s ∈ part.settings := List.mem_of_find?_eq_some h
    refine ⟨?_, hname⟩
    revert hmem
    cases part <;> cases s <;> decide
  · rintro ⟨rfl, rfl⟩
    cases s <;> rfl

namespace Settings

def valueIn? (data : List (Value × Value)) (s : Setting) : Option Value :=
  match lookup (.str s.part.name) data with
  | some (.map es) => lookup (.str s.name) es
  | _ => none

/-! ## Taking over the entries of a section -/

section Assigning

variable {part : Section} {c d : Settings} {e : Value × Value} {es data : List (Value × Value)}

def IsComplete (c : Settings) : Prop :=
  ∀ s, c.lacks s = false

theorem IsComplete.set (hc : c.IsComplete) (s : Setting) (v : Value) : (c.set s v).IsComplete := by
  intro t
  have ht := hc t
  cases s <;> cases t <;> first | rfl | exact ht

theorem requireFinite_eq_ok_iff {s : Setting} :
    c.requireFinite s = .ok () ↔ c.lacks s = false ∧ (c.get s).isEndless = false := by
  unfold requireFinite require
  cases c.lacks s with
  | true => simp [bind, Except.bind]
  | false =>
      cases (c.get s).isEndless <;>
        simp [bind, Except.bind, pure, Except.pure, throw, throwThe, MonadExceptOf.throw]

theorem complete_eq_ok_iff {v : Value} : c.complete = .ok v ↔
    c.IsComplete ∧ (∀ s, (c.get s).isEndless = false) ∧ v = c.toValue := by
  have hall : (∀ s ∈ Section.analysis.settings ++ Section.output.settings,
      c.requireFinite s = .ok ()) ↔ c.IsComplete ∧ ∀ s, (c.get s).isEndless = false := by
    simp only [requireFinite_eq_ok_iff, IsComplete, ← forall_and]
    refine forall_congr' fun s => ⟨fun h => h ?_, fun h _ => h⟩
    cases s <;> decide
  unfold complete
  rw [bind_eq_ok_iff, ← and_assoc, ← hall, ← forM_eq_ok_iff]
  constructor
  · rintro ⟨_, hforM, hv⟩
    exact ⟨hforM, (Except.ok.inj hv).symm⟩
  · rintro ⟨hforM, rfl⟩
    exact ⟨(), hforM, rfl⟩

theorem assign_spec (hc : c.IsComplete) (hkey : e.1.textKey? ≠ some "__dict__")
    (h : assign part c e = .ok d) :
    d.IsComplete ∧
      ∀ s, d.get s = if s.part = part ∧ e.1.textKey? = some s.name then e.2 else c.get s := by
  obtain ⟨k, v⟩ := e
  cases k with
  | str name =>
      unfold assign at h
      dsimp only at h
      cases hsetting : part.setting? name with
      | some t =>
          rw [hsetting] at h
          simp only [hc t, Bool.false_eq_true, if_false] at h
          cases h
          obtain ⟨hpart, hname⟩ := Section.setting?_eq_some_iff.mp hsetting
          refine ⟨hc.set t v, fun s => ?_⟩
          by_cases hst : s = t
          · subst hst
            rw [get_set_self, if_pos ⟨hpart, congrArg some hname.symm⟩]
          · have hother : ¬ (s.part = part ∧ (Value.str name).textKey? = some s.name) := by
              rintro ⟨hs, hn⟩
              have := Section.setting?_eq_some_iff.mpr ⟨hs, (Option.some.inj hn).symm⟩
              exact hst (Option.some.inj (this.symm.trans hsetting))
            rw [get_set_of_ne c v hst, if_neg hother]
      | none =>
          rw [hsetting] at h
          have hd : d = c := by
            dsimp only at h
            unfold assignReserved at h
            split at h
            · cases h
            · exact (hkey rfl).elim
            · cases h
            · exact (Except.ok.inj h).symm
          subst hd
          refine ⟨hc, fun s => (if_neg ?_).symm⟩
          rintro ⟨hs, hn⟩
          have := Section.setting?_eq_some_iff.mpr ⟨hs, (Option.some.inj hn).symm⟩
          rw [hsetting] at this
          cases this
  | torn t =>
      cases h
      refine ⟨hc, fun s => (if_neg ?_).symm⟩
      rintro ⟨-, hn⟩
      cases hn
  | _ => cases h

theorem assign_all_spec (hc : c.IsComplete) (hkeys : (textKeys es).Nodup)
    (hplain : lookup (.str "__dict__") es = none) (h : es.foldlM (assign part) c = .ok d) :
    d.IsComplete ∧ ∀ s, d.get s = if s.part = part then (lookup (.str s.name) es).getD (c.get s)
      else c.get s := by
  induction es generalizing c with
  | nil =>
      cases h
      exact ⟨hc, fun s => by simp⟩
  | cons e es ih =>
      rw [List.foldlM_cons] at h
      obtain ⟨c₁, hfirst, hrest⟩ := bind_eq_ok_iff.mp h
      obtain ⟨hfresh, hnodup⟩ := Value.nodup_textKeys_cons.mp hkeys
      have hkey : e.1.textKey? ≠ some "__dict__" := by
        intro hdict
        rw [Value.lookup_cons_of_eq hdict] at hplain
        cases hplain
      rw [Value.lookup_cons_of_ne hkey] at hplain
      obtain ⟨hc₁, hget₁⟩ := assign_spec hc hkey hfirst
      obtain ⟨hd, hget⟩ := ih hc₁ hnodup hplain hrest
      refine ⟨hd, fun s => ?_⟩
      rw [hget s]
      by_cases hs : s.part = part
      · rw [if_pos hs, if_pos hs, hget₁ s]
        by_cases hname : e.1.textKey? = some s.name
        · have habsent : lookup (.str s.name) es = none :=
            Value.lookup_eq_none_iff.mpr (hfresh _ hname)
          rw [if_pos ⟨hs, hname⟩, habsent, Value.lookup_cons_of_eq hname]
          rfl
        · rw [if_neg (fun h => hname h.2), Value.lookup_cons_of_ne hname]
      · rw [if_neg hs, if_neg hs, hget₁ s, if_neg (fun h => hs h.1)]

def KeepsSections (data : List (Value × Value)) : Prop :=
  ∀ (part : Section) (es : List (Value × Value)), lookup (.str part.name) data = some (.map es) →
    lookup (.str "__dict__") es = none

def HasUniqueSections (data : List (Value × Value)) : Prop :=
  ∀ (part : Section) (es : List (Value × Value)), lookup (.str part.name) data = some (.map es) →
    (textKeys es).Nodup

theorem assignSection_spec (hc : c.IsComplete) (hkeys : HasUniqueSections data)
    (hkeeps : KeepsSections data) (h : assignSection data c part = .ok d) :
    d.IsComplete ∧ ∀ s, d.get s = if s.part = part then (valueIn? data s).getD (c.get s)
      else c.get s := by
  unfold assignSection at h
  have hvalue (s : Setting) (hs : s.part = part) : valueIn? data s =
      match lookup (.str part.name) data with
      | some (.map es) => lookup (.str s.name) es
      | _ => none := by
    subst hs
    rfl
  split at h
  · rename_i hnone
    cases h
    refine ⟨hc, fun s => ?_⟩
    by_cases hs : s.part = part
    · rw [if_pos hs, hvalue s hs, hnone]
      rfl
    · rw [if_neg hs]
  · rename_i es hes
    obtain ⟨hd, hget⟩ := assign_all_spec hc (hkeys part es hes) (hkeeps part es hes) h
    refine ⟨hd, fun s => ?_⟩
    rw [hget s]
    by_cases hs : s.part = part
    · rw [if_pos hs, if_pos hs, hvalue s hs, hes]
    · rw [if_neg hs, if_neg hs]
  · cases h

theorem ofEntries_spec (hkeys : HasUniqueSections data) (hkeeps : KeepsSections data)
    (h : ofEntries data = .ok d) :
    d.IsComplete ∧ ∀ s, d.get s = (valueIn? data s).getD (({} : Settings).get s) := by
  unfold ofEntries at h
  rw [List.foldlM_cons] at h
  obtain ⟨c₁, hfirst, h⟩ := bind_eq_ok_iff.mp h
  rw [List.foldlM_cons] at h
  obtain ⟨c₂, hsecond, h⟩ := bind_eq_ok_iff.mp h
  cases h
  obtain ⟨hc₁, hget₁⟩ := assignSection_spec (fun t => by cases t <;> rfl) hkeys hkeeps hfirst
  obtain ⟨hc₂, hget₂⟩ := assignSection_spec hc₁ hkeys hkeeps hsecond
  refine ⟨hc₂, fun s => ?_⟩
  rw [hget₂ s, hget₁ s]
  cases hs : s.part with
  | analysis => rw [if_neg nofun, if_pos rfl]
  | output => rw [if_pos rfl, if_neg nofun]

theorem ofEntries_failsOnly {P : Failure → Prop} (htype : ∀ message, P (.wrongType message))
    (hmember : ∀ message, P (.noAttribute message)) (data : List (Value × Value)) :
    FailsOnly P (ofEntries data) := by
  have hassign (part : Section) (c : Settings) (e : Value × Value) :
      FailsOnly P (assign part c e) := by
    unfold assign
    split
    · split
      · exact .ok _
      · unfold assignReserved
        split
        · exact .error (htype _)
        · split
          · exact .ok _
          · exact .error (htype _)
        · exact .error (hmember _)
        · exact .ok _
    · exact .ok _
    · exact .error (htype _)
  refine .foldlM (fun c part => ?_) _ _
  unfold assignSection
  split
  · exact .ok _
  · exact .foldlM (hassign part) _ _
  · exact .error (hmember _)

end Assigning

/-! ## Putting the layers over each other -/

section Merging

variable {file env : List (Value × Value)}

theorem merge_two (a b : List (Value × Value)) :
    Value.merge [.map a, .map b] = .ok (mergeEntries (mergeEntries [] a) b) := by
  cases a <;> cases b <;> rfl

theorem ofLayers_two (validate : Bool) (a b : List (Value × Value)) :
    ofLayers validate [a, b] =
      (if validate then checkData (.map (mergeEntries (mergeEntries [] a) b)) else .ok ())
        >>= fun _ => ofEntries (mergeEntries (mergeEntries [] a) b) := by
  unfold ofLayers
  rw [List.map_cons, List.map_cons, List.map_nil, merge_two]
  cases validate <;> rfl

theorem lookup_merged (hfile : (textKeys file).Nodup) (henv : (textKeys env).Nodup) (s : String) :
    lookup (.str s) (mergeEntries (mergeEntries [] file) env) =
      ((lookup (.str s) env).map (mergeOver (lookup (.str s) file))).or (lookup (.str s) file) := by
  rw [Value.lookup_mergeEntries henv, Value.lookup_mergeEntries_nil hfile]

variable (vars : List (String × String))

theorem lookup_merged_environment (hfile : (textKeys file).Nodup) (part : Section) :
    lookup (.str part.name) (mergeEntries (mergeEntries [] file) (environmentMapping vars)) =
      if (environmentEntries vars part.settings).isEmpty then lookup (.str part.name) file
      else
        some
          (mergeOver (lookup (.str part.name) file)
            (.map (environmentEntries vars part.settings))) := by
  rw [lookup_merged hfile (nodup_environmentMapping vars), lookup_environmentMapping]
  cases (environmentEntries vars part.settings).isEmpty <;> rfl

theorem nodup_settings (part : Section) : part.settings.Nodup := by
  cases part <;> decide

theorem mem_settings_part (s : Setting) : s ∈ s.part.settings := by
  cases s <;> decide

theorem environmentEntries_ne_map {settings : List Setting} {e : Value × Value}
    (he : e ∈ environmentEntries vars settings) (es : List (Value × Value)) : e.2 ≠ .map es := by
  obtain ⟨s, -, -, hvalue⟩ := mem_environmentEntries vars he
  exact environmentValue?_ne_map vars hvalue es

theorem lookup_environmentEntries_over (old : List (Value × Value)) (part : Section)
    (key : String) :
    lookup (.str key) (mergeEntries old (environmentEntries vars part.settings)) =
      (lookup (.str key) (environmentEntries vars part.settings)).or (lookup (.str key) old) :=
  Value.lookup_mergeEntries_of_scalars (nodup_environmentEntries vars (nodup_settings part))
    (fun _ he => environmentEntries_ne_map vars he) old key

theorem lookup_environmentEntries_dict (settings : List Setting) :
    lookup (.str "__dict__") (environmentEntries vars settings) = none := by
  rw [Value.lookup_eq_none_iff, textKeys_environmentEntries, List.mem_map]
  rintro ⟨s, -, h⟩
  revert h
  cases s <;> decide

theorem valueIn?_merged (hfile : (textKeys file).Nodup) (s : Setting) :
    valueIn? (mergeEntries (mergeEntries [] file) (environmentMapping vars)) s
      = (environmentValue? vars s).or (valueIn? file s) := by
  have henv :
      lookup (.str s.name) (environmentEntries vars s.part.settings) = environmentValue? vars s :=
    lookup_environmentEntries vars (nodup_settings s.part) (mem_settings_part s)
  unfold valueIn?
  rw [lookup_merged_environment vars hfile]
  cases hempty : (environmentEntries vars s.part.settings).isEmpty with
  | true =>
      rw [List.isEmpty_iff.mp hempty] at henv
      rw [← henv]
      rfl
  | false =>
      rw [← henv]
      cases lookup (.str s.part.name) file with
      | none => exact (Option.or_none).symm
      | some v =>
          cases v with
          | map old => exact lookup_environmentEntries_over vars old s.part s.name
          | _ => exact (Option.or_none).symm

theorem valueIn?_environmentMapping (s : Setting) :
    valueIn? (environmentMapping vars) s = environmentValue? vars s := by
  have h := @valueIn?_merged [] vars List.nodup_nil s
  have hnil : valueIn? [] s = none := rfl
  rw [hnil, Option.or_none] at h
  rw [← h]
  unfold valueIn?
  rw [Value.mergeEntries, Value.lookup_mergeEntries_nil (nodup_environmentMapping vars)]

theorem keepsSections_merged (hfile : (textKeys file).Nodup) (hkeeps : KeepsSections file) :
    KeepsSections (mergeEntries (mergeEntries [] file) (environmentMapping vars)) := by
  intro part es h
  rw [lookup_merged_environment vars hfile] at h
  split at h
  · exact hkeeps part es h
  · cases hold : lookup (.str part.name) file with
    | none =>
        rw [hold] at h
        cases h
        exact lookup_environmentEntries_dict vars part.settings
    | some v =>
        rw [hold] at h
        cases v with
        | map old =>
            cases h
            rw [lookup_environmentEntries_over, lookup_environmentEntries_dict,
              hkeeps part old hold]
            rfl
        | _ =>
            cases h
            exact lookup_environmentEntries_dict vars part.settings

theorem hasUniqueSections_merged (hfile : (textKeys file).Nodup) (hkeys : HasUniqueSections file) :
    HasUniqueSections (mergeEntries (mergeEntries [] file) (environmentMapping vars)) := by
  have henv (part : Section) := nodup_environmentEntries vars (nodup_settings part)
  intro part es h
  rw [lookup_merged_environment vars hfile] at h
  split at h
  · exact hkeys part es h
  · cases hold : lookup (.str part.name) file with
    | none =>
        rw [hold] at h
        cases h
        exact henv part
    | some v =>
        rw [hold] at h
        cases v with
        | map old =>
            cases h
            exact Value.nodup_mergeEntries (hkeys part old hold) _
        | _ =>
            cases h
            exact henv part

theorem ofLayers_eq_ok {validate : Bool} {a b : List (Value × Value)} {c : Settings}
    (h : ofLayers validate [a, b] = .ok c) :
    ofEntries (mergeEntries (mergeEntries [] a) b) = .ok c := by
  rw [ofLayers_two] at h
  obtain ⟨-, -, h⟩ := bind_eq_ok_iff.mp h
  exact h

end Merging

/-! ## Loading -/

section Loading

variable {w w' : World} {path : Option String} {raw : List (Value × Value)}

/-- The configuration file that is read: the one that is given, or else the first that is found. -/
def chosen? (w : World) (path : Option String) : Option String :=
  (path.filter (· != "")).or (ConfigFile.find? w.files (ConfigFile.defaultPaths w.home))

/-- The configuration file in use stands for a mapping, an empty one if there is no file. -/
def FileHolds (w : World) (path : Option String) (raw : List (Value × Value)) : Prop :=
  match chosen? w path with
  | none => raw = []
  | some p => ConfigFile.document w.files p = .ok (.map raw)

def fileMapping (w : World) (path : Option String) : Except Failure (List (Value × Value)) :=
  match chosen? w path with
  | none => .ok []
  | some p => ConfigFile.read w.files p

theorem fileLayer_apply (w : World) (path : Option String) :
    ∃ logs, fileLayer path w = (fileMapping w path, { w with logs }) := by
  unfold fileLayer fileMapping chosen?
  rw [Action.bind_of_ok (show (getThe World : Action World) w = (.ok w, w) from rfl)]
  cases path.filter (· != "") with
  | some p => exact ⟨w.logs, Action.ofExcept_apply (ConfigFile.read w.files p) w⟩
  | none =>
      cases ConfigFile.find? w.files (ConfigFile.defaultPaths w.home) with
      | none => exact ⟨w.logs, rfl⟩
      | some p =>
          rw [Option.none_or]
          dsimp only
          cases ConfigFile.read w.files p with
          | error f => exact ⟨w.logs, rfl⟩
          | ok es =>
              have hlog :
                  Action.Logs (Action.log .info logSource ("Loaded configuration from: " ++ p) >>=
                    fun _ => pure es) es :=
                (Action.Logs.log _ _ _).bind (Action.Logs.pure es)
              exact hlog w

theorem load_apply (w : World) (path : Option String) (useEnvironment validate : Bool) :
    ∃ logs, load path useEnvironment validate w =
      (fileMapping w path >>= fun file =>
        ofLayers validate [file, environmentMapping (if useEnvironment then w.environment else [])],
          { w with logs }) := by
  obtain ⟨logs, hfile⟩ := fileLayer_apply w path
  unfold load
  cases hmapping : fileMapping w path with
  | error f =>
      rw [hmapping] at hfile
      exact ⟨logs, Action.bind_of_error hfile⟩
  | ok file =>
      rw [hmapping] at hfile
      rw [Action.bind_of_ok hfile]
      cases useEnvironment with
      | false =>
          exact ⟨logs, Action.ofExcept_apply (ofLayers validate [file, environmentMapping []]) _⟩
      | true =>
          obtain ⟨more, henv⟩ := consults_environmentLayer { w with logs }
          exact ⟨more, (Action.bind_of_ok henv).trans (Action.ofExcept_apply _ _)⟩

/-! ### The file -/

/-- A mapping with an empty section where there was nothing in one. -/
def filled (raw : List (Value × Value)) : List (Value × Value) :=
  ["analysis", "output"].foldl ConfigFile.fillSection raw

theorem fileMapping_of_holds (h : FileHolds w path raw) :
    fileMapping w path = .ok (filled raw) := by
  unfold FileHolds at h
  unfold fileMapping
  split at h
  · subst h
    rfl
  · exact bind_eq_ok_iff.mpr ⟨_, h, rfl⟩

theorem FileHolds.uniqueKeys (h : FileHolds w path raw) : (Value.map raw).HasUniqueKeys := by
  unfold FileHolds at h
  split at h
  · subst h
    exact .map List.nodup_nil fun _ he => absurd he List.not_mem_nil
  · unfold ConfigFile.document at h
    split at h
    · cases h
    · split at h
      · exact ConfigFile.documentOf_uniqueKeys h
      all_goals cases h

theorem FileHolds.uniqueSections (h : FileHolds w path raw) : HasUniqueSections raw :=
  fun _ _ hes => (h.uniqueKeys.value (Value.mem_of_lookup hes)).nodup

theorem lookup_fillSection_same (es : List (Value × Value)) (name : String) :
    lookup (.str name) (ConfigFile.fillSection es name) =
      match lookup (.str name) es with
      | some .null => some (.map [])
      | v? => v? := by
  unfold ConfigFile.fillSection
  cases hv : lookup (.str name) es with
  | none => exact hv
  | some v =>
      cases v with
      | null => exact Value.lookup_put_same name _ es
      | _ => exact hv

theorem lookup_fillSection_of_ne (es : List (Value × Value)) {name key : String} (h : name ≠ key) :
    lookup (.str key) (ConfigFile.fillSection es name) = lookup (.str key) es := by
  unfold ConfigFile.fillSection
  split
  · have hkey : (Value.str name).textKey? ≠ some key := fun hkey => h (Option.some.inj hkey)
    exact Value.lookup_put_of_ne hkey _ es
  · rfl

theorem lookup_filled (raw : List (Value × Value)) (part : Section) :
    lookup (.str part.name) (filled raw) =
      match lookup (.str part.name) raw with
      | some .null => some (.map [])
      | v? => v? := by
  unfold filled
  rw [List.foldl_cons, List.foldl_cons, List.foldl_nil]
  cases part with
  | analysis =>
      exact (lookup_fillSection_of_ne _ (by decide)).trans (lookup_fillSection_same raw "analysis")
  | output =>
      have hother := lookup_fillSection_of_ne raw (show "analysis" ≠ "output" by decide)
      exact (lookup_fillSection_same _ "output").trans (by rw [hother]; rfl)

theorem nodup_fillSection {es : List (Value × Value)} (h : (textKeys es).Nodup) (name : String) :
    (textKeys (ConfigFile.fillSection es name)).Nodup := by
  unfold ConfigFile.fillSection
  split
  · exact Value.nodup_put h _ _
  · exact h

theorem nodup_filled (h : (textKeys raw).Nodup) : (textKeys (filled raw)).Nodup :=
  nodup_fillSection (nodup_fillSection h _) _

theorem section_of_filled {part : Section} {es : List (Value × Value)}
    (h : lookup (.str part.name) (filled raw) = some (.map es)) :
    es = [] ∨ lookup (.str part.name) raw = some (.map es) := by
  rw [lookup_filled] at h
  split at h
  · cases h
    exact .inl rfl
  · exact .inr h

theorem valueIn?_filled (raw : List (Value × Value)) (s : Setting) :
    valueIn? (filled raw) s = valueIn? raw s := by
  unfold valueIn?
  rw [lookup_filled]
  cases lookup (.str s.part.name) raw with
  | none => rfl
  | some v => cases v <;> rfl

theorem KeepsSections.filled (h : KeepsSections raw) : KeepsSections (filled raw) := by
  intro part es hes
  rcases section_of_filled hes with rfl | hes
  · rfl
  · exact h part es hes

theorem HasUniqueSections.filled (h : HasUniqueSections raw) : HasUniqueSections (filled raw) := by
  intro part es hes
  rcases section_of_filled hes with rfl | hes
  · exact List.nodup_nil
  · exact h part es hes

/-- A setting has the value of the environment, or else that of the file, or else its default. -/
theorem get_of_load {useEnvironment validate : Bool} {c : Settings} (hfile : FileHolds w path raw)
    (hkeeps : KeepsSections raw) (h : load path useEnvironment validate w = (.ok c, w'))
    (s : Setting) :
    c.get s = ((environmentValue? (if useEnvironment then w.environment else []) s).or
      (valueIn? raw s)).getD (({} : Settings).get s) := by
  obtain ⟨logs, hload⟩ := load_apply w path useEnvironment validate
  rw [fileMapping_of_holds hfile] at hload
  have hlayers := (Prod.ext_iff.mp (hload.symm.trans h)).1
  have hnodup := nodup_filled hfile.uniqueKeys.nodup
  rw [(ofEntries_spec (hasUniqueSections_merged _ hnodup hfile.uniqueSections.filled)
    (keepsSections_merged _ hnodup hkeeps.filled) (ofLayers_eq_ok hlayers)).2,
    valueIn?_merged _ hnodup, valueIn?_filled]

end Loading

/-! ## Keys without effect -/

section Idle

variable {part : Section} {es fs : List (Value × Value)}

/-- The names under which a section has what it is made of. -/
def madeOf : List String := ["__class__", "__dict__", "__weakref__", "__dataclass_fields__"]

/-- Whether a key of a section is a text that names no setting of it, and
nothing that it is made of. -/
def isIdle (part : Section) : Value → Bool
  | .str name => (part.setting? name).isNone && !madeOf.contains name
  | .torn _ => true
  | _ => false

def effective (part : Section) (es : List (Value × Value)) : List (Value × Value) :=
  es.filter fun e => !isIdle part e.1

/-- The sections of two mappings differ in keys without effect only. -/
def SameSections (data data' : List (Value × Value)) : Prop :=
  ∀ part : Section, lookup (.str part.name) data = lookup (.str part.name) data' ∨
    ∃ es fs, lookup (.str part.name) data = some (.map es) ∧
      lookup (.str part.name) data' = some (.map fs) ∧
      effective part es = effective part fs

theorem isIdle_name (s : Setting) : isIdle s.part (.str s.name) = false := by
  have h : s.part.setting? s.name = some s := Section.setting?_eq_some_iff.mpr ⟨rfl, rfl⟩
  simp [isIdle, h]

theorem assign_of_isIdle {e : Value × Value} (h : isIdle part e.1 = true) (c : Settings) :
    assign part c e = .ok c := by
  obtain ⟨k, v⟩ := e
  cases k with
  | str name =>
      simp only [isIdle, Bool.and_eq_true, Option.isNone_iff_eq_none, Bool.not_eq_true'] at h
      obtain ⟨hsetting, hother⟩ := h
      unfold assign
      dsimp only
      rw [hsetting]
      dsimp only
      unfold assignReserved
      split
      · cases hother
      · cases hother
      · cases hother
      · rfl
  | torn t => rfl
  | _ => cases h

theorem foldlM_effective (part : Section) (es : List (Value × Value)) (c : Settings) :
    (effective part es).foldlM (assign part) c = es.foldlM (assign part) c := by
  induction es generalizing c with
  | nil => rfl
  | cons e es ih =>
      unfold effective
      cases hidle : isIdle part e.1 with
      | true =>
          rw [List.filter_cons_of_neg (by simp [hidle]), List.foldlM_cons, assign_of_isIdle hidle]
          exact ih c
      | false =>
          rw [List.filter_cons_of_pos (by simp [hidle]), List.foldlM_cons, List.foldlM_cons]
          exact congrArg _ (funext ih)

theorem lookup_effective {key : String} (h : isIdle part (.str key) = false)
    (es : List (Value × Value)) :
    lookup (.str key) (effective part es) = lookup (.str key) es := by
  induction es with
  | nil => rfl
  | cons e es ih =>
      unfold effective
      by_cases hkey : e.1.textKey? = some key
      · have hkept : isIdle part e.1 = false := by rw [Value.textKey?_eq_some_iff.mp hkey, h]
        rw [List.filter_cons_of_pos (by simp [hkept]), Value.lookup_cons_of_eq hkey,
          Value.lookup_cons_of_eq hkey]
      · rw [Value.lookup_cons_of_ne hkey, ← ih]
        cases hidle : isIdle part e.1 with
        | true =>
            rw [List.filter_cons_of_neg (by simp [hidle])]
            rfl
        | false =>
            rw [List.filter_cons_of_pos (by simp [hidle]), Value.lookup_cons_of_ne hkey]
            rfl

theorem effective_put {key : String} (h : isIdle part (.str key) = false) (v : Value)
    (es : List (Value × Value)) :
    effective part (Value.put (.str key) v es) = Value.put (.str key) v (effective part es) := by
  unfold effective
  induction es with
  | nil => simp [Value.put, h]
  | cons e es ih =>
      rw [Value.put_cons]
      by_cases hkey : e.1.textKey? = some key
      · have hkept : isIdle part e.1 = false := by rw [Value.textKey?_eq_some_iff.mp hkey, h]
        rw [if_pos (Value.same_str_iff.mpr hkey), List.filter_cons_of_pos (by simp [hkept]),
          List.filter_cons_of_pos (by simp [hkept]), Value.put_cons,
          if_pos (Value.same_str_iff.mpr hkey)]
      · have hdiffers := mt Value.same_str_iff.mp hkey
        rw [if_neg hdiffers]
        cases hidle : isIdle part e.1 with
        | true =>
            rw [List.filter_cons_of_neg (by simp [hidle]),
              List.filter_cons_of_neg (by simp [hidle]), ih]
        | false =>
            rw [List.filter_cons_of_pos (by simp [hidle]),
              List.filter_cons_of_pos (by simp [hidle]), ih, Value.put_cons,
              if_neg hdiffers]

theorem effective_mergeEntries
    (hfs : ∀ e ∈ fs, ∃ key, e.1 = .str key ∧ isIdle part (.str key) = false)
    (es : List (Value × Value)) :
    effective part (mergeEntries es fs) = mergeEntries (effective part es) fs := by
  induction fs generalizing es with
  | nil => rfl
  | cons e fs ih =>
      obtain ⟨key, hkey, hidle⟩ := hfs e List.mem_cons_self
      rw [Value.mergeEntries_cons, Value.mergeEntries_cons, ih fun d hd =>
        hfs d (List.mem_cons_of_mem e hd), hkey, effective_put hidle, lookup_effective hidle]

theorem environmentEntries_effective (vars : List (String × String)) (part : Section) :
    ∀ e ∈ environmentEntries vars part.settings, ∃ key, e.1 = .str key ∧
      isIdle part (.str key) = false := by
  intro e he
  obtain ⟨s, hs, hkey, -⟩ := mem_environmentEntries vars he
  have hpart : s.part = part := by
    revert hs
    cases part <;> cases s <;> decide
  exact ⟨s.name, hkey, hpart ▸ isIdle_name s⟩

/-! ### What depends on the sections -/

variable {data data' : List (Value × Value)}

theorem checkSection_effective (part : Section) (es : List (Value × Value)) :
    checkSection part (effective part es) = checkSection part es := by
  have hchecked : ∀ s ∈ checked part, s.part = part := by cases part <;> decide
  refine forM_congr fun s hs => ?_
  have hidle : isIdle part (.str s.name) = false := hchecked s hs ▸ isIdle_name s
  unfold checkSetting
  rw [lookup_effective hidle]

theorem SameSections.checkData_eq (h : SameSections data data') :
    checkData (.map data) = checkData (.map data') := by
  have hshape : ∀ part, checkShape (.map data) part = checkShape (.map data') part := by
    intro part
    unfold checkShape Value.member?
    dsimp only
    rcases h part with h | ⟨es, fs, hes, hfs, -⟩
    · rw [h]
    · rw [hes, hfs]
      rfl
  have hpart : ∀ part, checkPart (.map data) part = checkPart (.map data') part := by
    intro part
    unfold checkPart Value.get?
    dsimp only
    rcases h part with h | ⟨es, fs, hes, hfs, heffective⟩
    · rw [h]
    · rw [hes, hfs]
      dsimp only
      rw [← checkSection_effective part es, heffective, checkSection_effective]
  unfold checkData
  rw [funext hshape, funext hpart]

theorem SameSections.ofEntries_eq (h : SameSections data data') :
    ofEntries data = ofEntries data' := by
  have hsection : ∀ c part, assignSection data c part = assignSection data' c part := by
    intro c part
    unfold assignSection
    rcases h part with h | ⟨es, fs, hes, hfs, heffective⟩
    · rw [h]
    · rw [hes, hfs]
      dsimp only
      rw [← foldlM_effective part es, heffective, foldlM_effective]
  unfold ofEntries
  rw [funext fun c => funext (hsection c)]

theorem SameSections.filled (h : SameSections data data') :
    SameSections (filled data) (Settings.filled data') := by
  intro part
  rw [lookup_filled, lookup_filled]
  rcases h part with h | ⟨es, fs, hes, hfs, heffective⟩
  · rw [h]
    exact .inl rfl
  · rw [hes, hfs]
    exact .inr ⟨es, fs, rfl, rfl, heffective⟩

theorem SameSections.merged (h : SameSections data data') (hdata : (textKeys data).Nodup)
    (hdata' : (textKeys data').Nodup) (vars : List (String × String)) :
    SameSections (mergeEntries (mergeEntries [] data) (environmentMapping vars))
      (mergeEntries (mergeEntries [] data') (environmentMapping vars)) := by
  intro part
  rw [lookup_merged_environment vars hdata, lookup_merged_environment vars hdata']
  cases (environmentEntries vars part.settings).isEmpty with
  | true => exact h part
  | false =>
      rcases h part with h | ⟨es, fs, hes, hfs, heffective⟩
      · rw [h]
        exact .inl rfl
      · rw [hes, hfs]
        refine .inr ⟨_, _, rfl, rfl, ?_⟩
        have hkept := environmentEntries_effective vars part
        rw [effective_mergeEntries hkept, effective_mergeEntries hkept, heffective]

/-- What is loaded depends on the sections of the merged mapping only. -/
theorem load_eq_of_merged {w w' : World} {path path' : Option String}
    {raw raw' : List (Value × Value)} (hfile : FileHolds w path raw)
    (hfile' : FileHolds w' path' raw') (henv : w.environment = w'.environment)
    (useEnvironment validate : Bool)
    (hmerged : ∀ vars, vars = (if useEnvironment then w.environment else []) →
      SameSections (mergeEntries (mergeEntries [] (filled raw)) (environmentMapping vars))
        (mergeEntries (mergeEntries [] (filled raw')) (environmentMapping vars))) :
    (load path useEnvironment validate w).1 = (load path' useEnvironment validate w').1 := by
  obtain ⟨logs, hload⟩ := load_apply w path useEnvironment validate
  obtain ⟨logs', hload'⟩ := load_apply w' path' useEnvironment validate
  have hmerged := hmerged _ rfl
  rw [hload, hload', fileMapping_of_holds hfile, fileMapping_of_holds hfile', ← henv]
  show ofLayers validate _ = ofLayers validate _
  rw [ofLayers_two, ofLayers_two, hmerged.checkData_eq, hmerged.ofEntries_eq]

theorem SameSections.load_eq {w w' : World} {path path' : Option String}
    (h : SameSections data data') (hfile : FileHolds w path data)
    (hfile' : FileHolds w' path' data') (henv : w.environment = w'.environment)
    (useEnvironment validate : Bool) :
    (load path useEnvironment validate w).1 = (load path' useEnvironment validate w').1 :=
  load_eq_of_merged hfile hfile' henv useEnvironment validate fun vars _ =>
    h.filled.merged (nodup_filled hfile.uniqueKeys.nodup)
      (nodup_filled hfile'.uniqueKeys.nodup) vars

end Idle

end Settings

/-! ## The command line -/

namespace CommandLine

open Settings

theorem get_override_self (a : Arguments) (c : Settings) (s : Setting) :
    (override a c s).get s = (override? a s).getD (c.get s) := by
  unfold override
  cases override? a s with
  | none => rfl
  | some v => exact get_set_self c s v

theorem get_override_of_ne (a : Arguments) (c : Settings) {s t : Setting} (h : t ≠ s) :
    (override a c s).get t = c.get t := by
  unfold override
  cases override? a s with
  | none => rfl
  | some v => exact get_set_of_ne c v h

theorem get_override_all (a : Arguments) {settings : List Setting} (h : settings.Nodup)
    (c : Settings) (s : Setting) :
    (settings.foldl (override a) c).get s = if s ∈ settings then (override? a s).getD (c.get s)
      else c.get s := by
  induction settings generalizing c with
  | nil => rfl
  | cons t settings ih =>
      obtain ⟨hfresh, hnodup⟩ := List.nodup_cons.mp h
      rw [List.foldl_cons, ih hnodup]
      by_cases hst : s = t
      · subst hst
        rw [if_neg hfresh, if_pos List.mem_cons_self, get_override_self]
      · simp only [get_override_of_ne a c hst, List.mem_cons, hst, false_or]

theorem get_overridden (a : Arguments) (c : Settings) (s : Setting) :
    (overridden a c).get s = (override? a s).getD (c.get s) := by
  have hmem : s ∈ Section.analysis.settings ++ Section.output.settings := by cases s <;> decide
  unfold overridden
  rw [get_override_all a (by decide), if_pos hmem]

theorem eq_overridden {a : Arguments} {c used : Settings} {w w' : World}
    (h : withOverrides a c w = (.ok used, w')) :
    used = overridden a c := by
  unfold withOverrides at h
  cases hcheck : (overridden a c).check with
  | error f =>
      rw [Action.bind_of_error (show Action.ofExcept _ w = (.error f, w) by rw [hcheck]; rfl)] at h
      cases h
  | ok =>
      rw [Action.bind_of_ok (show Action.ofExcept _ w = (.ok (), w) by rw [hcheck]; rfl)] at h
      cases h
      rfl

theorem perform_analyze {a : Arguments} (hcommand : a.command = .analyze) {w w₁ w₂ : World}
    {loaded used : Settings} (hload : Settings.load a.configFile true true w = (.ok loaded, w₁))
    (hcheck : withOverrides a loaded w₁ = (.ok used, w₂)) (c : Console) (duration : Path → Nat) :
    perform a c duration w = analyze a used c duration w₂ := by
  unfold perform
  rw [Action.bind_of_ok hload, hcommand]
  exact Action.bind_of_ok hcheck

/-- The settings that an analysis uses are, each on its own, those of the highest layer that gives a
value: the command line, the environment, the configuration file, the defaults. A file that is
loaded alone is the same without the environment. Keys that name no setting change nothing, and
neither does a variable that is empty or malformed. -/
theorem settings_of_highest_layer :
    (∀ (a : Arguments) (w w₁ w₂ : World) (file : List (Value × Value)) (loaded used : Settings),
      FileHolds w a.configFile file → KeepsSections file →
      Settings.load a.configFile true true w = (.ok loaded, w₁) →
        withOverrides a loaded w₁ = (.ok used, w₂) →
      (∀ s, used.get s =
        (((override? a s).or (environmentValue? w.environment s)).or (valueIn? file s)).getD
          (({} : Settings).get s)) ∧
      (a.command = .analyze →
        ∀ c duration, perform a c duration w = analyze a used c duration w₂)) ∧
    (∀ (path : String) (w w₁ : World) (file : List (Value × Value)) (loaded : Settings),
      FileHolds w (some path) file → KeepsSections file →
        Settings.loadFile path w = (.ok loaded, w₁) →
      ∀ s, loaded.get s = (valueIn? file s).getD (({} : Settings).get s)) ∧
    (∀ w, ∃ layer w₁, environmentLayer w = (.ok layer, w₁) ∧ ∀ s,
      valueIn? layer s = environmentValue? w.environment s) ∧
    (∀ (path path' : Option String) (w w' : World) (file file' : List (Value × Value))
      (useEnvironment validate : Bool), FileHolds w path file → FileHolds w' path' file' →
        SameSections file file' → w.environment = w'.environment →
      (Settings.load path useEnvironment validate w).1 =
        (Settings.load path' useEnvironment validate w').1) ∧
    (∀ (path : Option String) (w : World) (validate : Bool) (s : Setting) (text : String),
      (w.environment.find? fun e => e.1 == s.variableName).map (·.2) = some text →
        text = "" ∨ IsMalformed s text →
      (Settings.load path true validate w).1 = (Settings.load path true validate
        { w with environment := w.environment.filter fun e => e.1 != s.variableName }).1) := by
  refine ⟨fun a w w₁ w₂ file loaded used hfile hkeeps hload hcheck =>
    ⟨fun s => ?_, fun hcommand c duration => ?_⟩, fun path w w₁ file loaded hfile hkeeps hload s =>
      ?_, fun w => ?_,
    fun path path' w w' file file' useEnvironment validate hfile hfile' hsame henv =>
      hsame.load_eq hfile hfile' henv useEnvironment validate,
      fun path w validate s text hvariable htext => ?_⟩
  · have hloaded := get_of_load hfile hkeeps hload s
    rw [if_pos rfl] at hloaded
    rw [eq_overridden hcheck, get_overridden, hloaded]
    cases override? a s <;> rfl
  · exact perform_analyze hcommand hload hcheck c duration
  · exact get_of_load hfile hkeeps hload s
  · obtain ⟨logs, hlayer⟩ := consults_environmentLayer w
    exact ⟨_, _, hlayer, valueIn?_environmentMapping w.environment⟩
  · obtain ⟨logs, hload⟩ := load_apply w path true validate
    obtain ⟨logs', hload'⟩ :=
      load_apply { w with environment := w.environment.filter fun e => e.1 != s.variableName }
      path true validate
    rw [hload, hload', if_pos rfl, if_pos rfl,
      environmentMapping_congr (environmentValue?_without hvariable htext)]
    rfl

def layeredWorld : World :=
  { files := { workingDirectory := []
               entries := [(["c.json"], .file (.bytes (Text.encodeUtf8
                 "\x7b\"analysis\":\x7b\"max_workers\":3,\"exclude_dirs\":[],\"x\":1\x7d\x7d")))] }
    environment :=
      [("IMPORTLENS_MAX_WORKERS", "5"), ("IMPORTLENS_TITLE", "E"), ("IMPORTLENS_FORMAT", "pdf")] }

/-- The title is from the command line, the number of workers from the environment, the excluded
directories from the file, and the format is the default. -/
theorem settings_of_four_layers :
    ∃ loaded used w₁ w₂, Settings.load (some "c.json") true true layeredWorld = (.ok loaded, w₁) ∧
      withOverrides { configFile := some "c.json", title := some "T" } loaded w₁ = (.ok used, w₂) ∧
      used.get .title = .str "T" ∧ used.get .workers = .int 5 ∧
        used.get .excludedDirectories = .list [] ∧
      used.get .format = .str "xlsx" := by
  let a : Arguments := { configFile := some "c.json", title := some "T" }
  let file : List (Value × Value) :=
    [(.str "analysis", .map [(.str "max_workers", .int 3), (.str "exclude_dirs", .list []),
    (.str "x", .int 1)])]
  have hfile : FileHolds layeredWorld a.configFile file := by
    show ConfigFile.document layeredWorld.files "c.json" = .ok (.map file)
    decide +kernel
  have hkeeps : KeepsSections file := by
    intro part es hes
    have hes := Value.mem_of_lookup hes
    cases part <;> simp [file, Section.name] at hes
    subst hes
    decide +kernel
  have hresult {r : Except Failure Settings × World} (h : r.1.toOption.isSome) :
      r = (.ok (r.1.toOption.getD {}), r.2) := by
    obtain ⟨x | c, w⟩ := r
    · cases h
    · rfl
  have hload := hresult
    (show (Settings.load a.configFile true true layeredWorld).1.toOption.isSome by decide +kernel)
  have hcheck := hresult
    (show (withOverrides a
        ((Settings.load a.configFile true true layeredWorld).1.toOption.getD {})
        (Settings.load a.configFile true true layeredWorld).2).1.toOption.isSome by decide +kernel)
  have hused :=
    (settings_of_highest_layer.1 a layeredWorld _ _ file _ _ hfile hkeeps hload hcheck).1
  exact ⟨_, _, _, _, hload, hcheck, (hused .title).trans (by decide +kernel),
    (hused .workers).trans (by decide +kernel),
    (hused .excludedDirectories).trans (by decide +kernel),
    (hused .format).trans (by decide +kernel)⟩

end CommandLine

end ImportAudit
