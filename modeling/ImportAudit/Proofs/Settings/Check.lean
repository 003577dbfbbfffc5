import ImportAudit.Proofs.Settings.RoundTrip
import ImportAudit.Proofs.Table
import ImportAudit.Report.Writer

/-!
# What the check admits

The check admits settings one by one: it passes exactly if every setting has a value and no
value has a fault. A command line puts only values of the right types over others, so that what
it adds is admitted or reported.
-/

namespace ImportAudit

namespace Settings

open Value (lookup)

variable {c : Settings} {data : List (Value × Value)} {P : Failure → Prop}

/-! ## What is reported -/

def faultMessages : Setting → List String
  | .extensions =>
      ["extensions must contain non-empty strings", "extensions must be a non-empty list"]
  | .excludedDirectories => ["exclude_dirs must be a list"]
  | .workers => ["max_workers must be a positive integer"]
  | .timeout => ["parse_timeout must be a positive number of seconds"]
  | .format => ["format must be one of: " ++ (Value.list (formats.map .str)).shown]
  | .directory => ["directory must not be empty"]
  | .title => []

/-- A fault is reported with a message of its setting, but for a directory that has no text. -/
theorem fault?_eq_some {s : Setting} {v : Value} {f : Failure} (h : fault? s v = some f) :
    (∃ message ∈ faultMessages s, f = .configuration message) ∨ s = .directory ∧
      v.textOrFailure = .error f := by
  have hreported {message : String} (hmem : message ∈ faultMessages s)
      (h : some (Failure.configuration message) = some f) :
      (∃ message ∈ faultMessages s, f = .configuration message) ∨ s = .directory ∧
        v.textOrFailure = .error f :=
    .inl ⟨message, hmem, (Option.some.inj h).symm⟩
  cases s
  all_goals
    unfold fault? at h
    dsimp only at h
  case extensions =>
    split at h
    · split at h
      · cases h
      · exact hreported List.mem_cons_self h
    · exact hreported (List.mem_cons_of_mem _ List.mem_cons_self) h
  case directory =>
    split at h
    · cases h
    · split at h
      · split at h
        · exact hreported List.mem_cons_self h
        · cases h
      · rename_i e herror
        cases h
        exact .inr ⟨rfl, herror⟩
  case title => cases h
  case workers | timeout =>
    split at h
    · cases h
    · split at h
      · cases h
      · exact hreported List.mem_cons_self h
  all_goals
    split at h
    · cases h
    · exact hreported List.mem_cons_self h

/-! ## The check of a mapping -/

theorem part_of_checked {part : Section} {s : Setting} (h : s ∈ checked part) : s.part = part := by
  cases part <;> cases s <;> first | rfl | simp [checked] at h

def isBent (data : List (Value × Value)) (part : Section) : Bool :=
  (lookup (.str part.name) data).any fun v => !v.isMap

def notMapping (part : Section) : Failure :=
  .configuration (part.name ++ " must be a mapping")

def entriesOf (data : List (Value × Value)) (part : Section) : List (Value × Value) :=
  match lookup (.str part.name) data with
  | some (.map es) => es
  | _ => []

theorem valueIn?_eq (data : List (Value × Value)) (s : Setting) :
    valueIn? data s = lookup (.str s.name) (entriesOf data s.part) := by
  unfold valueIn? entriesOf
  cases lookup (.str s.part.name) data with
  | none => rfl
  | some v => cases v <;> rfl

theorem checkShape_eq (data : List (Value × Value)) (part : Section) :
    checkShape (.map data) part = if isBent data part then .error (notMapping part)
      else .ok () := by
  unfold checkShape Value.member? isBent
  dsimp only
  cases lookup (.str part.name) data with
  | none => rfl
  | some v => cases v <;> rfl

theorem checkPart_eq (data : List (Value × Value)) (part : Section) :
    checkPart (.map data) part = checkSection part (entriesOf data part) := by
  have hempty : checkSection part [] = .ok () := by cases part <;> rfl
  unfold checkPart Value.get? entriesOf
  dsimp only
  cases lookup (.str part.name) data with
  | none => exact hempty.symm
  | some v =>
      cases v with
      | map es => rfl
      | _ => exact hempty.symm

/-- The first section that is no mapping is reported before any setting is looked at. -/
theorem checkData_eq (data : List (Value × Value)) :
    checkData (.map data) = ([Section.analysis, .output].find? (isBent data)).elim
      ([Section.analysis, .output].forM fun part => checkSection part (entriesOf data part))
      fun part => .error (notMapping part) := by
  unfold checkData
  rw [funext (checkShape_eq data), forM_ite_error, funext (checkPart_eq data)]
  cases [Section.analysis, .output].find? (isBent data) <;> rfl

theorem mem_sections (part : Section) : part ∈ [Section.analysis, .output] := by
  cases part <;> decide

theorem checkSetting_eq_ok_iff {es : List (Value × Value)} {s : Setting} :
    checkSetting es s = .ok () ↔ (lookup (.str s.name) es).bind (fault? s) = none := by
  unfold checkSetting
  cases (lookup (.str s.name) es).bind (fault? s) <;> simp

theorem checkData_eq_ok_iff :
    checkData (.map data) = .ok () ↔
      (∀ part, isBent data part = false) ∧ ∀ s, (valueIn? data s).bind (fault? s) = none := by
  have hsettings :
      (∀ part ∈ [Section.analysis, .output], checkSection part (entriesOf data part) = .ok ()) ↔
      ∀ s, (valueIn? data s).bind (fault? s) = none := by
    constructor
    · intro h s
      rw [valueIn?_eq]
      by_cases hs : s ∈ checked s.part
      · exact checkSetting_eq_ok_iff.mp (forM_eq_ok_iff.mp (h s.part (mem_sections s.part)) s hs)
      · -- Only the title is not checked.
        cases s with
        | title => cases lookup _ (entriesOf data _) <;> rfl
        | _ => exact absurd (by decide) hs
    · intro h part _
      refine forM_eq_ok_iff.mpr fun s hs => checkSetting_eq_ok_iff.mpr ?_
      rw [← part_of_checked hs, ← valueIn?_eq]
      exact h s
  rw [checkData_eq, ← hsettings, ← forM_eq_ok_iff]
  cases hbent : [Section.analysis, .output].find? (isBent data) with
  | none =>
      have hnone (part : Section) : isBent data part = false := by
        simpa using List.find?_eq_none.mp hbent part (mem_sections part)
      exact ⟨fun h => ⟨hnone, h⟩, And.right⟩
  | some part =>
      constructor
      · intro h
        cases h
      · intro h
        have hpart := List.find?_some hbent
        rw [h.1 part] at hpart
        cases hpart

theorem checkData_failsOnly_of (hshape : ∀ part, isBent data part = true → P (notMapping part))
    (hfault : ∀ s v f, valueIn? data s = some v → fault? s v = some f → P f) :
    FailsOnly P (checkData (.map data)) := by
  rw [checkData_eq]
  cases hbent : [Section.analysis, .output].find? (isBent data) with
  | some part => exact .error (hshape part (List.find?_some hbent))
  | none =>
      refine .forM fun part _ => .forM fun s hs => ?_
      unfold checkSetting
      split
      · rename_i f hf
        obtain ⟨v, hv, hf⟩ := Option.bind_eq_some_iff.mp hf
        rw [← part_of_checked hs, ← valueIn?_eq] at hv
        exact .error (hfault s v f hv hf)
      · exact .ok _

/-! ## Settings one by one -/

theorem valueIn?_entries (c : Settings) (s : Setting) : valueIn? c.entries s = some (c.get s) := by
  cases s <;> rfl

theorem isBent_entries (c : Settings) (part : Section) : isBent c.entries part = false := by
  cases part <;> rfl

theorem fault?_of_check (h : c.check = .ok ()) (s : Setting) : fault? s (c.get s) = none := by
  obtain ⟨-, -, hdata⟩ := complete_of_check h
  have hfault := (checkData_eq_ok_iff.mp hdata).2 s
  rwa [valueIn?_entries] at hfault

/-- The check fails only with the fault of a setting, if every setting has a value and
none of them contains itself. -/
theorem check_of_complete (hc : c.IsComplete) (hfinite : ∀ s, (c.get s).isEndless = false)
    (h : ∀ s f, fault? s (c.get s) = some f → P f) : FailsOnly P c.check := by
  have hcheck : c.check = checkData (.map c.entries) := by
    rw [check, complete_eq_ok_iff.mpr ⟨hc, hfinite, rfl⟩]
    rfl
  rw [hcheck]
  refine checkData_failsOnly_of (fun part hpart => ?_) fun s v f hv hf => ?_
  · rw [isBent_entries] at hpart
    cases hpart
  · rw [valueIn?_entries] at hv
    cases hv
    exact h s f hf

/-! ## Admitted values -/

theorem isText_of_isExtension {v : Value} (h : v.isExtension = true) : v.isText = true := by
  cases v <;> first | rfl | cases h

theorem ofValue_of_texts {vs : List Value} (h : ∀ v ∈ vs, v.isText = true) :
    ∃ es, Extensions.ofValue (.list vs) = .ok es ∧
      Extensions.normalize es = Extensions.normalize (vs.filterMap Value.textKey?) := by
  have hmapM : ∃ es, vs.mapM Extensions.text = .ok es ∧
      es.filterMap Extensions.normal? =
        (vs.filterMap Value.textKey?).filterMap Extensions.normal? := by
    induction vs with
    | nil => exact ⟨[], rfl, rfl⟩
    | cons v vs ih =>
        obtain ⟨hv, hvs⟩ := List.forall_mem_cons.mp h
        obtain ⟨es, hes, hforms⟩ := ih hvs
        cases v with
        | str s =>
            refine ⟨s :: es, by rw [List.mapM_cons, hes]; rfl, ?_⟩
            simp only [List.filterMap_cons, Value.textKey?, hforms]
        | torn t =>
            have hempty : Extensions.normal? "" = none := by decide +kernel
            refine ⟨"" :: es, by rw [List.mapM_cons, hes]; rfl, ?_⟩
            simp only [List.filterMap_cons, Value.textKey?, hempty, hforms]
        | _ => cases hv
  obtain ⟨es, hes, hforms⟩ := hmapM
  refine ⟨es, ?_, by rw [Extensions.normalize, hforms, Extensions.normalize]⟩
  rw [Extensions.ofValue]
  exact hes

theorem extensions_of_check (h : c.check = .ok ()) :
    ∃ vs, c.analysis.extensions = .list vs ∧ ∀ v ∈ vs, v.isText = true := by
  have hfault : fault? .extensions c.analysis.extensions = none := fault?_of_check h .extensions
  unfold fault? at hfault
  dsimp only at hfault
  split at hfault
  · rename_i x xs hvalue
    split at hfault
    · rename_i hall
      exact ⟨_, hvalue, fun v hv => isText_of_isExtension (List.all_eq_true.mp hall v hv)⟩
    · cases hfault
  · cases hfault

theorem excluded_of_check (h : c.check = .ok ()) :
    ∃ xs, c.analysis.excludedDirectories = .list xs := by
  have hfault : fault? .excludedDirectories c.analysis.excludedDirectories = none :=
    fault?_of_check h .excludedDirectories
  unfold fault? at hfault
  dsimp only at hfault
  split at hfault
  · rename_i hlist
    cases hvalue : c.analysis.excludedDirectories with
    | list xs => exact ⟨xs, rfl⟩
    | _ =>
        rw [hvalue] at hlist
        cases hlist
  · cases hfault

theorem format_of_check (h : c.check = .ok ()) :
    ∃ name format, c.output.format = .str name ∧ Writer.format? name = some format := by
  have hfault : fault? .format c.output.format = none := fault?_of_check h .format
  unfold fault? at hfault
  dsimp only at hfault
  split at hfault
  · rename_i hany
    obtain ⟨name, hname, hsame⟩ := List.any_eq_true.mp hany
    have hformat : c.output.format = .str name :=
      Value.textKey?_eq_some_iff.mp (Value.str_same_iff.mp hsame)
    rcases List.mem_cons.mp hname with rfl | hname
    · exact ⟨_, .xlsx, hformat, by decide⟩
    · obtain rfl := List.mem_singleton.mp hname
      exact ⟨_, .json, hformat, by decide⟩
  · cases hfault

theorem workers_of_check (h : c.check = .ok ()) : c.analysis.workers = .null ∨
    c.analysis.workers.isPositiveWhole = true := by
  have hfault : fault? .workers c.analysis.workers = none := fault?_of_check h .workers
  unfold fault? at hfault
  dsimp only at hfault
  split at hfault
  · rename_i hnull
    exact .inl hnull
  · split at hfault
    · rename_i hpositive
      exact .inr hpositive
    · cases hfault

theorem timeout_of_check (h : c.check = .ok ()) : c.analysis.timeout = .null ∨
    c.analysis.timeout.isPositive = true := by
  have hfault : fault? .timeout c.analysis.timeout = none := fault?_of_check h .timeout
  unfold fault? at hfault
  dsimp only at hfault
  split at hfault
  · rename_i hnull
    exact .inl hnull
  · split at hfault
    · rename_i hpositive
      exact .inr hpositive
    · cases hfault

end Settings

/-! ## Values of the command line -/

namespace CommandLine

open Settings

variable {c : Settings}

theorem fault?_override {a : Arguments} {s : Setting} {v : Value}
    (h : override? a s = some v) {f : Failure} (hfault : fault? s v = some f) :
    f.kind = .configuration := by
  rcases fault?_eq_some hfault with ⟨message, -, rfl⟩ | ⟨rfl, htext⟩
  · rfl
  · -- A directory of the command line is a text.
    obtain ⟨text, -, rfl⟩ := Option.map_eq_some_iff.mp h
    cases htext

theorem isComplete_overridden (a : Arguments) (hc : c.IsComplete) :
    (overridden a c).IsComplete := by
  unfold overridden
  generalize Section.analysis.settings ++ Section.output.settings = settings
  induction settings generalizing c with
  | nil => exact hc
  | cons s settings ih =>
      refine ih ?_
      unfold override
      split
      · exact hc.set s _
      · exact hc

theorem finite_overridden (a : Arguments) (hc : ∀ s, (c.get s).isEndless = false) (s : Setting) :
    ((overridden a c).get s).isEndless = false := by
  have htexts (names : List String) : Value.anyEndless (names.map .str) = false := by
    induction names with
    | nil => rfl
    | cons name names ih => exact ih
  rw [get_overridden]
  cases hgiven : override? a s with
  | none => exact hc s
  | some v =>
      show v.isEndless = false
      cases s with
      | extensions =>
          unfold override? at hgiven
          dsimp only at hgiven
          split at hgiven
          · cases hgiven
          · rw [← Option.some.inj hgiven]
            exact htexts a.extensions
      | excludedDirectories => cases hgiven
      | _ =>
          obtain ⟨x, -, rfl⟩ := Option.map_eq_some_iff.mp hgiven
          rfl

/-- What a command line puts over checked settings is admitted or reported. -/
theorem check_overridden (a : Arguments) (h : c.check = .ok ()) :
    FailsOnly (fun f => f.kind = .configuration) (overridden a c).check := by
  refine check_of_complete (isComplete_overridden a (complete_of_check h).1)
    (finite_overridden a (finite_of_check h)) fun s f hfault => ?_
  rw [get_overridden] at hfault
  cases hgiven : override? a s with
  | none =>
      rw [hgiven, Option.getD_none, fault?_of_check h s] at hfault
      cases hfault
  | some v =>
      rw [hgiven, Option.getD_some] at hfault
      exact fault?_override hgiven hfault

end CommandLine

end ImportAudit
