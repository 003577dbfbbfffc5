import ImportAudit.Proofs.Action
import ImportAudit.Proofs.Value
import ImportAudit.Settings.Environment

/-!
# What the environment gives to the settings

The environment is read variable by variable. The mapping that comes of it has, for each setting,
the value of its variable and nothing else.
-/

namespace ImportAudit

open Value (lookup textKeys)

theorem Setting.name_injective : Function.Injective Setting.name := by
  intro s t h
  revert h
  cases s <;> cases t <;> decide

theorem Setting.variableName_injective : Function.Injective Setting.variableName := by
  intro s t h
  revert h
  cases s <;> cases t <;> decide

namespace Settings

def environmentValue? (env : List (String × String)) (s : Setting) : Option Value :=
  (((env.find? fun e => e.1 == s.variableName).map (·.2)).filter (· != "")).bind s.read?

def environmentEntries (env : List (String × String)) (settings : List Setting) :
    List (Value × Value) :=
  settings.flatMap fun s => ((environmentValue? env s).map fun v => (Value.str s.name, v)).toList

def environmentMapping (env : List (String × String)) : List (Value × Value) :=
  [Section.analysis, .output].filterMap fun part =>
    if (environmentEntries env part.settings).isEmpty then none
    else some (.str part.name, .map (environmentEntries env part.settings))

theorem consults_environmentEntry (s : Setting) :
    (environmentEntry s).Consults fun env =>
      ((environmentValue? env s).map fun v => (Value.str s.name, v)).toList := by
  suffices h : ∀ text? : Option String, Action.Logs _ (((text?.filter (· != "")).bind s.read?).map
      fun v => (Value.str s.name, v)).toList from
    (Action.Consults.environmentVariable? s.variableName).bind fun text? =>
      Action.Consults.of_logs (h text?)
  intro text?
  cases text?.filter (· != "") with
  | none => exact Action.Logs.pure []
  | some text =>
      dsimp only [Option.bind_some]
      cases s.read? text with
      | none => exact (Action.Logs.log _ _ _).bind (Action.Logs.pure [])
      | some v => exact Action.Logs.pure _

theorem consults_environmentLayer : environmentLayer.Consults environmentMapping := by
  have hpart (part : Section) := (Action.Consults.mapM consults_environmentEntry part.settings).bind
    fun entries =>
    Action.Consults.of_logs (Action.Logs.pure (part, entries.flatten))
  have hall := (Action.Consults.mapM hpart [Section.analysis, .output]).bind fun sections =>
    Action.Consults.of_logs (Action.Logs.pure (sections.filterMap fun given =>
      if given.2.isEmpty then none else some (Value.str given.1.name, Value.map given.2)))
  exact hall

/-! ## The values in the mapping -/

section Mapping

variable (env : List (String × String))

theorem textKeys_environmentEntries (settings : List Setting) :
    textKeys (environmentEntries env settings)
      = (settings.filter fun s => (environmentValue? env s).isSome).map Setting.name := by
  induction settings with
  | nil => rfl
  | cons s settings ih =>
      have hsplit : environmentEntries env (s :: settings)
          = ((environmentValue? env s).map fun v => (Value.str s.name, v)).toList ++
            environmentEntries env settings := rfl
      rw [hsplit]
      cases hvalue : environmentValue? env s with
      | none => simpa [hvalue] using ih
      | some v =>
          rw [List.filter_cons_of_pos (by rw [hvalue]; rfl), List.map_cons, ← ih]
          rfl

theorem nodup_environmentEntries {settings : List Setting} (h : settings.Nodup) :
    (textKeys (environmentEntries env settings)).Nodup := by
  rw [textKeys_environmentEntries]
  exact (h.filter _).map Setting.name_injective

theorem lookup_environmentEntries {settings : List Setting} (h : settings.Nodup) {s : Setting}
    (hs : s ∈ settings) :
    lookup (.str s.name) (environmentEntries env settings) = environmentValue? env s := by
  induction settings with
  | nil => cases hs
  | cons t settings ih =>
      have hsplit : environmentEntries env (t :: settings)
          = ((environmentValue? env t).map fun v => (Value.str t.name, v)).toList ++
            environmentEntries env settings := rfl
      obtain ⟨hfresh, hnodup⟩ := List.nodup_cons.mp h
      rw [hsplit]
      by_cases hst : s = t
      · subst hst
        cases hvalue : environmentValue? env s with
        | none =>
            refine Value.lookup_eq_none_iff.mpr ?_
            rw [Option.map_none, Option.toList_none, List.nil_append,
              textKeys_environmentEntries, List.mem_map]
            rintro ⟨u, hu, hname⟩
            exact hfresh (Setting.name_injective hname ▸ List.mem_of_mem_filter hu)
        | some v => exact Value.lookup_cons_of_eq rfl _
      · have hrest := ih hnodup ((List.mem_cons.mp hs).resolve_left hst)
        cases environmentValue? env t with
        | none => exact hrest
        | some v =>
            have hne : (Value.str t.name).textKey? ≠ some s.name := by
              intro h
              exact hst (Setting.name_injective (Option.some.inj h)).symm
            exact (Value.lookup_cons_of_ne hne _).trans hrest

theorem mem_environmentEntries {settings : List Setting} {e : Value × Value}
    (h : e ∈ environmentEntries env settings) :
    ∃ s ∈ settings, e.1 = .str s.name ∧ environmentValue? env s = some e.2 := by
  obtain ⟨s, hs, he⟩ := List.mem_flatMap.mp h
  rw [Option.mem_toList, Option.map_eq_some_iff] at he
  obtain ⟨v, hv, rfl⟩ := he
  exact ⟨s, hs, rfl, hv⟩

theorem environmentValue?_ne_map {s : Setting} {v : Value} (h : environmentValue? env s = some v)
    (es : List (Value × Value)) : v ≠ .map es := by
  obtain ⟨text, -, h⟩ := Option.bind_eq_some_iff.mp h
  rintro rfl
  cases s <;> simp [Setting.read?] at h

theorem lookup_environmentMapping (part : Section) :
    lookup (.str part.name) (environmentMapping env) =
      if (environmentEntries env part.settings).isEmpty then none
      else some (.map (environmentEntries env part.settings)) := by
  simp only [environmentMapping, List.filterMap_cons, List.filterMap_nil]
  cases part <;> cases (environmentEntries env Section.analysis.settings).isEmpty <;>
    cases (environmentEntries env Section.output.settings).isEmpty <;>
      simp [Value.lookup_cons, Value.same_str_iff, Value.textKey?, Section.name]

theorem environmentMapping_congr {vars vars' : List (String × String)}
    (h : environmentValue? vars = environmentValue? vars') :
    environmentMapping vars = environmentMapping vars' := by
  unfold environmentMapping environmentEntries
  rw [h]

theorem nodup_environmentMapping : (textKeys (environmentMapping env)).Nodup := by
  simp only [environmentMapping, List.filterMap_cons, List.filterMap_nil]
  cases (environmentEntries env Section.analysis.settings).isEmpty <;>
    cases (environmentEntries env Section.output.settings).isEmpty <;>
      simp [textKeys, Value.textKey?, Section.name]

end Mapping

/-! ## Variables that do not count -/

/-- Whether a text is no value of a setting: no number, or no format of reports. -/
def IsMalformed (s : Setting) (text : String) : Prop :=
  match s with
  | .workers => Decimal.readInt text = none
  | .timeout => Decimal.readDouble text = none
  | .format => Text.lower text ∉ formats
  | _ => False

theorem read?_of_isMalformed {s : Setting} {text : String} (h : IsMalformed s text) :
    s.read? text = none := by
  cases s with
  | workers => exact congrArg (Option.map Value.int) h
  | timeout => exact congrArg (Option.map Value.float) h
  | format =>
      have hno : formats.contains (Text.lower text) = false := by
        rw [List.contains_eq_mem]
        exact decide_eq_false h
      simp only [Setting.read?, hno]
      rfl
  | _ => exact h.elim

/-- A variable that is empty or malformed gives what it gives when it is taken away. -/
theorem environmentValue?_without {env : List (String × String)} {s : Setting} {text : String}
    (hvariable : (env.find? fun e => e.1 == s.variableName).map (·.2) = some text)
    (htext : text = "" ∨ IsMalformed s text) :
    environmentValue? (env.filter fun e => e.1 != s.variableName) = environmentValue? env := by
  funext t
  unfold environmentValue?
  by_cases hts : t = s
  · subst hts
    have hgone : (env.filter fun e => e.1 != t.variableName).find?
        (fun e => e.1 == t.variableName) = none := by
      rw [List.find?_eq_none]
      intro e he
      simpa using (List.mem_filter.mp he).2
    rw [hgone, hvariable]
    rcases htext with rfl | hbad
    · rfl
    · refine (Option.bind_eq_none_iff.mpr fun u hu => ?_).symm
      rw [← Option.some.inj (Option.filter_eq_some_iff.mp hu).1]
      exact read?_of_isMalformed hbad
  · have hkeep : (env.filter fun e => e.1 != s.variableName).find? (fun e => e.1 == t.variableName)
        = env.find? fun e => e.1 == t.variableName := by
      rw [List.find?_filter]
      congr 1
      funext e
      by_cases he : e.1 = t.variableName
      · have hne : t.variableName ≠ s.variableName :=
          fun h => hts (Setting.variableName_injective h)
        simp [he, hne]
      · simp [he]
    rw [hkeep]

end Settings

end ImportAudit
