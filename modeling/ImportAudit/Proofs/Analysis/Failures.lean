import ImportAudit.Analysis.Root
import ImportAudit.Proofs.Analysis.Report
import ImportAudit.Proofs.Discovery

/-!
# What an analysis can fail with

An analysis passes on the failures of its steps that cannot be recovered from. A file that lies
outside the directory of the root is found out in one step only, so that no analysis fails in this
way if every file has its place below.
-/

namespace ImportAudit

variable {fs : FileSystem} {root f : Path} {files : List Path} {extensions : Option Value}
  {excluded : Option (List String)} {context : Option String}

def Failure.NotOutside (e : Failure) : Prop :=
  ∀ path base, e ≠ .outside path base

def Failure.NotSystem (e : Failure) : Prop :=
  e.kind.isSystem = false

/-- Whether a failure comes of a value and is neither reported by the tool nor
one of files or of decoding. -/
def Failure.IsUnforeseen (e : Failure) : Prop :=
  e.kind.isUnforeseen = true

theorem Failure.NotSystem.of_isUnforeseen {e : Failure} (h : e.IsUnforeseen) : e.NotSystem := by
  unfold Failure.IsUnforeseen at h
  unfold Failure.NotSystem
  cases hkind : e.kind <;> simp_all [Kind.isUnforeseen, Kind.isSystem]

def Failure.IsUnencodable (e : Failure) : Prop :=
  ∃ fault, e = .unencodable fault

/-- Whether a failure is about a value, and neither about where a path lies nor
about what is there. -/
def Failure.OfValue (e : Failure) : Prop :=
  e.NotOutside ∧ e.NotSystem

theorem Failure.OfValue.wrongType (message : String) : (Failure.wrongType message).OfValue :=
  ⟨fun _ _ => Failure.noConfusion, rfl⟩

theorem items_failsOnly (v : Value) : FailsOnly Failure.OfValue v.items := by
  unfold Value.items
  split
  all_goals first | exact .ok _ | exact .error (.wrongType _)

theorem extensions_failsOnly (v : Value) :
    FailsOnly Failure.OfValue (Extensions.ofValue v) := by
  refine .bind (items_failsOnly v) fun xs _ => .mapM fun x _ => ?_
  unfold Extensions.text
  split
  · exact .ok _
  · exact .ok _
  · split
    · exact .ok _
    · exact .error (.wrongType _)
  · exact .error ⟨fun _ _ => Failure.noConfusion, rfl⟩

theorem excluded_failsOnly (v : Value) :
    FailsOnly Failure.OfValue (Discovery.excludedOfValue v) := by
  refine .bind (items_failsOnly v) fun xs _ => .bind (.mapM fun x _ => ?_) fun names _ => .ok _
  split
  · exact .error (.wrongType _)
  · split <;> exact .ok _

/-- A failure of looking up a root, or an entry that is met below it. -/
def Failure.OfSearch (fs : FileSystem) (root : Path) (e : Failure) : Prop :=
  (∃ fault, fs.entry root = .error fault ∧ fault.isAbsence = false ∧ e = .file fault root.text) ∨
    ∃ l, fs.entry root = .ok (l, .directory) ∧ Discovery.IsHindered fs root l e

theorem Failure.OfSearch.notOutside {e : Failure} (h : e.OfSearch fs root) : e.NotOutside := by
  rcases h with ⟨fault, -, -, rfl⟩ | ⟨l, -, segments, fault, -, -, rfl⟩ <;>
    exact fun _ _ => Failure.noConfusion

theorem below_failsOnly {l : Location} (h : fs.entry root = .ok (l, .directory))
    (allowed excluded : List String) :
    FailsOnly (Failure.OfSearch fs root) (Discovery.below fs root l allowed excluded) := by
  rcases Discovery.below_cases fs root l allowed excluded with ⟨-, hbelow⟩ | ⟨f, hf, hbelow⟩
  · rw [hbelow]
    exact .ok _
  · rw [hbelow]
    exact .error (.inr ⟨l, h, hf⟩)

/-- A discovery never fails because a file lies outside the root, and because of the file system
only where something cannot be looked up. -/
theorem discover_failsOnly :
    FailsOnly (fun e => e.NotOutside ∧ (e.NotSystem ∨ e.OfSearch fs root))
      (Discovery.discover fs root extensions excluded context) := by
  have hvalue {e : Failure} (h : e.OfValue) : e.NotOutside ∧ (e.NotSystem ∨ e.OfSearch fs root) :=
    ⟨h.1, .inl h.2⟩
  have hsearch {e : Failure} (h : e.OfSearch fs root) :
      e.NotOutside ∧ (e.NotSystem ∨ e.OfSearch fs root) := ⟨h.notOutside, .inr h⟩
  cases hroot : fs.entry root with
  | error fault =>
      rw [Discovery.discover_error hroot]
      refine .error ?_
      cases habsence : fault.isAbsence with
      | true => exact ⟨fun _ _ => Failure.noConfusion, .inl rfl⟩
      | false => exact hsearch (.inl ⟨fault, hroot, habsence, rfl⟩)
  | ok place =>
      obtain ⟨l, e⟩ := place
      simp only [Discovery.discover, hroot]
      cases e with
      | link t => exact absurd rfl ((FileSystem.entry_eq_ok_iff.mp hroot).2.2 t)
      | file c =>
          cases extensions with
          | none => exact .ok _
          | some v => exact .bind ((extensions_failsOnly v).imp fun _ => hvalue) fun _ _ => .ok _
      | directory =>
          have hbelow (allowed excluded : List String) :=
            (below_failsOnly hroot allowed excluded).imp
            fun _ => hsearch
          cases extensions with
          | none => exact hbelow _ _
          | some v =>
              exact .bind ((extensions_failsOnly v).imp fun _ => hvalue) fun _ _ => hbelow _ _

theorem resolvePath_failsOnly (source : Path) :
    FailsOnly Failure.OfValue (resolvePath fs source) := by
  unfold resolvePath
  split
  · exact .error ⟨fun _ _ => Failure.noConfusion, rfl⟩
  · exact .mapError (fun _ => ⟨fun _ _ => Failure.noConfusion, rfl⟩) _

theorem resolvePath_eq_ok_iff {source resolved : Path} : resolvePath fs source = .ok resolved ↔
    source.hasNull = false ∧ fs.resolve source = .ok resolved := by
  unfold resolvePath
  cases source.hasNull with
  | true => simp
  | false => simp [mapError_eq_ok_iff]

theorem discoverFiles_failsOnly (settings : AnalysisSettings) (source : Path) :
    FailsOnly (fun e => e.NotOutside ∧
        (e.NotSystem ∨ ∃ resolved, fs.resolve source = .ok resolved ∧ e.OfSearch fs resolved))
      (discoverFiles fs settings source) := by
  refine .bind ((resolvePath_failsOnly source).imp fun _ h => ⟨h.1, .inl h.2⟩)
    fun resolved hresolved => ?_
  refine .bind ((excluded_failsOnly _).imp fun _ h => ⟨h.1, .inl h.2⟩) fun excluded _ => ?_
  refine discover_failsOnly.imp fun e h => ⟨h.1, h.2.imp_right fun hsearch => ?_⟩
  exact ⟨resolved, (resolvePath_eq_ok_iff.mp hresolved).2, hsearch⟩

theorem isAtMostZero_failsOnly (v : Value) : FailsOnly Failure.OfValue v.isAtMostZero := by
  unfold Value.isAtMostZero
  split
  · exact .ok _
  · exact .ok _
  · exact .error (.wrongType _)

theorem seconds_failsOnly (v : Value) : FailsOnly Failure.OfValue v.seconds := by
  unfold Value.seconds
  split
  · split
    · exact .error ⟨fun _ _ => Failure.noConfusion, rfl⟩
    · exact .ok _
  · exact .ok _
  · exact .error (.wrongType _)

theorem limit_ofValue (options : RunOptions) : FailsOnly Failure.OfValue options.limit := by
  unfold RunOptions.limit
  split
  all_goals
    dsimp only
    split
  · exact .ok _
  · refine .bind (isAtMostZero_failsOnly _) fun b _ => ?_
    cases b
    · exact .ok _
    · exact .error ⟨fun _ _ => Failure.noConfusion, rfl⟩
  · exact .bind (seconds_failsOnly _) fun x _ => .ok _
  · refine .bind (isAtMostZero_failsOnly _) fun b _ => ?_
    cases b
    · exact .bind (seconds_failsOnly _) fun x _ => .ok _
    · exact .error ⟨fun _ _ => Failure.noConfusion, rfl⟩

theorem limit_failsOnly (options : RunOptions) : FailsOnly Failure.NotOutside options.limit :=
  (limit_ofValue options).imp fun _ => And.left

theorem readSource_failsOnly : FailsOnly Failure.NotOutside (readSource fs .utf8 f) := by
  rintro e he path base rfl
  unfold readSource at he
  split at he
  · cases he
  · cases he
  next bs _ =>
    cases hdecode : Text.decode .utf8 bs with
    | ok s => rw [hdecode] at he; cases he
    | error fault => rw [hdecode] at he; cases he

/-! ## Failures that pass through -/

section PassThrough

variable {P : Failure → Prop}

theorem recover_failsOnly {α : Type} {recoverable : Kind → Bool} {stage : Stage}
    {x : Except Failure α} (h : FailsOnly (fun e => recoverable e.kind = true ∨ P e) x) :
    FailsOnly P (recover recoverable stage f x) := by
  unfold recover
  cases x with
  | ok a => exact .ok _
  | error e =>
      dsimp only
      split
      next => exact .ok _
      next hnot => exact .error ((h e rfl).resolve_left hnot)

/-- The analysis of a file fails only where the file cannot be read or does not lie below the
directory of the root. -/
theorem analyzeFile_failures (hdepths : FailsOnly P (pathDepths f root))
    (hread : FailsOnly (fun e => e.kind.isRecoverable = true ∨ P e) (readSource fs .utf8 f)) :
    FailsOnly P (analyzeFile fs f root) := by
  refine .bind (recover_failsOnly hread) fun source _ => ?_
  cases source with
  | error r => exact .ok _
  | ok source =>
      refine .bind (recover_failsOnly fun e he => .inl ?_) fun tree _ => ?_
      · rw [parseSource_kind he]
        rfl
      · cases tree with
        | error r => exact .ok _
        | ok tree =>
            exact .bind hdepths fun depths _ => .ok _

theorem analyzeFile_failsOnly {depths : List (String × String)}
    (hdepths : pathDepths f root = .ok depths)
    (hread : FailsOnly (fun e => e.kind.isRecoverable = true ∨ P e) (readSource fs .utf8 f)) :
    FailsOnly P (analyzeFile fs f root) :=
  analyzeFile_failures (hdepths ▸ .ok depths) hread

theorem outcomes_of_limit_error {options : RunOptions} {duration : Path → Nat} {e : Failure}
    (hne : files ≠ []) (hlimit : options.limit = .error e) :
    outcomes fs options duration files root = .error e := by
  unfold outcomes
  rw [show files.isEmpty = false by simpa using hne, hlimit]
  rfl

theorem outcomes_failsOnly {options : RunOptions} {duration : Path → Nat}
    (hlimit : FailsOnly P options.limit) (h : ∀ f ∈ files, FailsOnly P (analyzeFile fs f root)) :
    FailsOnly P (outcomes fs options duration files root) := by
  by_cases hne : files = []
  · rw [hne]
    exact .ok _
  · cases hoptions : options.limit with
    | error e =>
        rw [outcomes_of_limit_error hne hoptions]
        exact .error (hlimit e hoptions)
    | ok limit =>
        rw [outcomes_eq hne hoptions]
        refine .mapM fun f hf => ?_
        unfold outcomeAfter
        split
        · exact .ok _
        · exact h f hf

end PassThrough

theorem analyzeFile_notSystem (f root : Path) :
    FailsOnly Failure.NotSystem (analyzeFile fs f root) := by
  apply analyzeFile_failures
  · unfold pathDepths
    split
    · exact .ok _
    · exact .error rfl
  · intro e _
    cases hsystem : e.kind.isSystem with
    | false => exact .inr hsystem
    | true => exact .inl (by simp [Kind.isRecoverable, hsystem])

/-! ## Failures that escape -/

/-- Whether the tool does not report a failure as one of its own. -/
def Failure.IsUnreported (e : Failure) : Prop :=
  e.kind.isTool = false

theorem Failure.isUnreported_file (fault : FileFault) (path : String) :
    (Failure.file fault path).IsUnreported := by
  cases fault <;> rfl

theorem Failure.IsUnforeseen.isUnreported {e : Failure} (h : e.IsUnforeseen) : e.IsUnreported := by
  unfold IsUnforeseen at h
  unfold IsUnreported
  cases hkind : e.kind <;> simp_all [Kind.isUnforeseen, Kind.isTool]

section Escapes

variable {α β : Type}

/-- Whether a computation ends with a failure that the tool does not report. -/
def Escapes (x : Except Failure α) : Prop :=
  ∃ e, x = .error e ∧ e.IsUnreported

theorem not_escapes_ok (a : α) : ¬Escapes (.ok a : Except Failure α) := by
  rintro ⟨e, he, -⟩
  cases he

theorem escapes_error {e : Failure} (h : e.IsUnreported) : Escapes (.error e : Except Failure α) :=
  ⟨e, rfl, h⟩

theorem escapes_error_iff {e : Failure} :
    Escapes (.error e : Except Failure α) ↔ e.IsUnreported := by
  refine ⟨?_, escapes_error⟩
  rintro ⟨e', he, hunreported⟩
  cases he
  exact hunreported

/-- A failure escapes from one computation or from the next. -/
theorem escapes_bind {x : Except Failure α} {f : α → Except Failure β} :
    Escapes (x >>= f) ↔ Escapes x ∨ ∃ a, x = .ok a ∧ Escapes (f a) := by
  cases x with
  | ok a =>
      constructor
      · exact fun h => .inr ⟨a, rfl, h⟩
      · rintro (h | ⟨a', ha, h⟩)
        · exact absurd h (not_escapes_ok a)
        · cases ha
          exact h
  | error e =>
      constructor
      · rintro ⟨e', he, hunreported⟩
        cases he
        exact .inl ⟨e, rfl, hunreported⟩
      · rintro (⟨e', he, hunreported⟩ | ⟨a, ha, -⟩)
        · cases he
          exact ⟨e, rfl, hunreported⟩
        · cases ha

theorem escapes_mapM {f : α → Except Failure β} {xs : List α}
    (h : ∀ x ∈ xs, FailsOnly Failure.IsUnreported (f x)) :
    Escapes (xs.mapM f) ↔ ∃ x ∈ xs, Escapes (f x) := by
  induction xs with
  | nil =>
      constructor
      · exact fun h => absurd h (not_escapes_ok _)
      · rintro ⟨x, hx, -⟩
        exact absurd hx List.not_mem_nil
  | cons x xs ih =>
      have hrest := ih fun y hy => h y (List.mem_cons_of_mem x hy)
      rw [List.mapM_cons, escapes_bind]
      constructor
      · rintro (hx | ⟨y, -, hxs⟩)
        · exact ⟨x, List.mem_cons_self, hx⟩
        · rcases escapes_bind.mp hxs with hxs | ⟨ys, -, hys⟩
          · obtain ⟨z, hz, hescapes⟩ := hrest.mp hxs
            exact ⟨z, List.mem_cons_of_mem x hz, hescapes⟩
          · exact absurd hys (not_escapes_ok _)
      · rintro ⟨z, hz, hescapes⟩
        cases hx : f x with
        | error e => exact .inl (escapes_error (h x List.mem_cons_self e hx))
        | ok y =>
            rcases List.mem_cons.mp hz with rfl | hz
            · rw [hx] at hescapes
              exact absurd hescapes (not_escapes_ok y)
            · exact .inr ⟨y, rfl, escapes_bind.mpr (.inl (hrest.mpr ⟨z, hz, hescapes⟩))⟩

theorem Action.escapes_bind {a : Action α} {f : α → Action β} {w : World} :
    Escapes ((a >>= f) w).1 ↔ Escapes (a w).1 ∨ ∃ x w', a w = (.ok x, w') ∧ Escapes (f x w').1 := by
  cases hresult : (a w).1 with
  | ok x =>
      obtain ⟨w', hw'⟩ := exists_world hresult
      rw [bind_of_ok hw']
      constructor
      · exact fun h => .inr ⟨x, w', hw', h⟩
      · rintro (h | ⟨x', w'', hx', h⟩)
        · exact absurd h (not_escapes_ok x)
        · rw [hw'] at hx'
          cases hx'
          exact h
  | error e =>
      obtain ⟨w', hw'⟩ := exists_world hresult
      rw [bind_of_error hw']
      constructor
      · rintro ⟨e', he, hunreported⟩
        cases he
        exact .inl (escapes_error hunreported)
      · rintro (⟨e', he, hunreported⟩ | ⟨x, w'', hx, -⟩)
        · cases he
          exact escapes_error hunreported
        · rw [hw'] at hx
          cases hx

end Escapes

end ImportAudit
