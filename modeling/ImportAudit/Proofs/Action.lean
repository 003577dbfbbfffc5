import ImportAudit.Proofs.Sequencing
import ImportAudit.World

/-!
# Reasoning about actions

An action is run step by step: what one step returns, and the world it leaves, are passed to
the next. Most steps of an analysis only write to the log; such steps are put together
without looking at what they write.
-/

namespace ImportAudit.Action

variable {α β : Type} {a : Action α} {f : α → Action β} {x : α} {y : β} {w w' : World}

theorem bind_of_ok (h : a w = (.ok x, w')) : (a >>= f) w = f x w' := by
  show ExceptT.bindCont f (a w).1 (a w).2 = f x w'
  rw [h]
  rfl

theorem bind_of_error {e : Failure} (h : a w = (.error e, w')) : (a >>= f) w = (.error e, w') := by
  show ExceptT.bindCont f (a w).1 (a w).2 = (.error e, w')
  rw [h]
  rfl

theorem exists_world {r : Except Failure α} (h : (a w).1 = r) : ∃ w', a w = (r, w') :=
  ⟨(a w).2, Prod.ext h rfl⟩

theorem files_apply (w : World) : files w = (.ok w.files, w) := rfl

theorem ofExcept_ok (x : α) (w : World) : ofExcept (.ok x) w = (.ok x, w) := rfl

theorem ofExcept_error (e : Failure) (w : World) :
    (ofExcept (.error e) : Action α) w = (.error e, w) := rfl

theorem ofExcept_apply (r : Except Failure α) (w : World) : ofExcept r w = (r, w) := by
  cases r <;> rfl

theorem modify_apply (g : World → World) (w : World) :
    (modify g : Action PUnit) w = (.ok ⟨⟩, g w) := rfl

theorem outcome_apply (a : Action α) (w : World) : a.outcome w = (.ok (a w).1, (a w).2) := rfl

theorem changeFiles_of_ok {fault : FileFault → Failure}
    {change : FileSystem → Except FileFault FileSystem} {fs : FileSystem}
    (h : change w.files = .ok fs) :
    changeFiles fault change w = (.ok (), { w with files := fs }) := by
  unfold changeFiles
  rw [bind_of_ok (files_apply w), h]
  rfl

theorem changeFiles_of_error {fault : FileFault → Failure}
    {change : FileSystem → Except FileFault FileSystem} {f : FileFault}
    (h : change w.files = .error f) : changeFiles fault change w = (.error (fault f), w) := by
  unfold changeFiles
  rw [bind_of_ok (files_apply w), h]
  rfl

theorem removeFile_of_ok {p : Path} {fs : FileSystem} (h : w.files.remove p = .ok fs) :
    removeFile p w = (.ok (), { w with files := fs }) := by
  unfold removeFile
  rw [bind_of_ok (files_apply w), h]
  rfl

theorem removeFile_of_error {p : Path} {f : FileFault} (h : w.files.remove p = .error f) :
    removeFile p w = (if f = .notFound then .ok () else .error (.file f p.text), w) := by
  unfold removeFile
  rw [bind_of_ok (files_apply w), h]
  cases f <;> rfl

/-! ## What is done when files fail -/

section SystemFailures

variable {b : Failure → Action α} {e : Failure}

theorem orOnSystemFailure_of_ok (h : a w = (.ok x, w')) :
    a.orOnSystemFailure b w = (.ok x, w') := by
  have houtcome : a.outcome w = (.ok (.ok x), w') := by rw [outcome_apply, h]
  exact bind_of_ok houtcome

theorem orOnSystemFailure_of_error (h : a w = (.error e, w')) :
    a.orOnSystemFailure b w = if e.kind.isSystem then b e w' else (.error e, w') := by
  have houtcome : a.outcome w = (.ok (.error e), w') := by rw [outcome_apply, h]
  unfold orOnSystemFailure
  rw [bind_of_ok houtcome]
  dsimp only
  split <;> rfl

end SystemFailures

/-! ## Actions that only log -/

/-- An action that leaves everything but the log as it is and returns a given result. -/
def Logs (a : Action α) (x : α) : Prop :=
  ∀ w, ∃ logs, a w = (.ok x, { w with logs })

namespace Logs

theorem pure (x : α) : Logs (Pure.pure x) x :=
  fun w => ⟨w.logs, rfl⟩

theorem write (entry : LogEntry) : Logs (Action.write entry) () := by
  intro w
  by_cases h : entry.level.rank < w.threshold.rank
  · refine ⟨w.logs, ?_⟩
    show (Except.ok (), if _ then _ else _) = _
    rw [if_pos h]
  · refine ⟨w.logs ++ [entry], ?_⟩
    show (Except.ok (), if _ then _ else _) = _
    rw [if_neg h]

theorem log (level : Level) (source message : String) : Logs (Action.log level source message) () :=
  write ⟨level, source, message⟩

theorem bind (ha : Logs a x) (hf : Logs (f x) y) : Logs (a >>= f) y := by
  intro w
  obtain ⟨logs, hlogs⟩ := ha w
  obtain ⟨more, hmore⟩ := hf { w with logs }
  exact ⟨more, (bind_of_ok hlogs).trans hmore⟩

theorem forIn {body : α → PUnit → Action (ForInStep PUnit)} (xs : List α)
    (hbody : ∀ x ∈ xs, Logs (body x ⟨⟩) (.yield ⟨⟩)) :
    Logs (ForIn.forIn xs PUnit.unit body) ⟨⟩ := by
  induction xs with
  | nil => exact pure _
  | cons x xs ih =>
      rw [List.forIn_cons]
      exact (hbody x List.mem_cons_self).bind (ih fun z hz => hbody z (List.mem_cons_of_mem x hz))

end Logs

/-! ## Actions that only print -/

/-- An action that prints a text, leaves everything else as it is and returns a given result. -/
def Prints (a : Action α) (x : α) (text : String) : Prop :=
  ∀ w, a w = (.ok x, { w with printed := w.printed ++ text })

namespace Prints

variable {s t : String}

theorem pure (x : α) : Prints (Pure.pure x) x "" := by
  intro w
  rw [String.append_empty]
  rfl

theorem print (s : String) : Prints (Action.print s) () s :=
  fun _ => rfl

theorem bind (ha : Prints a x s) (hf : Prints (f x) y t) : Prints (a >>= f) y (s ++ t) := by
  intro w
  rw [bind_of_ok (ha w), hf, String.append_assoc]

theorem forIn {body : α → PUnit → Action (ForInStep PUnit)} {text : α → String} (xs : List α)
    (hbody : ∀ x ∈ xs, Prints (body x ⟨⟩) (.yield ⟨⟩) (text x)) :
    Prints (ForIn.forIn xs PUnit.unit body) ⟨⟩ (String.join (xs.map text)) := by
  induction xs with
  | nil => exact pure _
  | cons x xs ih =>
      rw [List.forIn_cons, List.map_cons, String.join_cons]
      exact (hbody x List.mem_cons_self).bind (ih fun z hz => hbody z (List.mem_cons_of_mem x hz))

end Prints

/-! ## How actions fail -/

/-- Whether the failures of an action are all of a sort, whatever it works on. -/
def RaisesOnly (P : Failure → Prop) (a : Action α) : Prop :=
  ∀ w, FailsOnly P (a w).1

namespace RaisesOnly

variable {P Q : Failure → Prop}

theorem imp (h : RaisesOnly P a) (himp : ∀ e, P e → Q e) : RaisesOnly Q a :=
  fun w => (h w).imp himp

theorem ofExcept {r : Except Failure α} (h : FailsOnly P r) : RaisesOnly P (Action.ofExcept r) := by
  intro w
  rw [ofExcept_apply]
  exact h

theorem pure (x : α) : RaisesOnly P (Pure.pure x : Action α) :=
  fun _ => .ok x

theorem fail {e : Failure} (h : P e) : RaisesOnly P (Action.fail e : Action α) :=
  fun _ => .error h

theorem of_logs (h : Logs a x) : RaisesOnly P a := by
  intro w
  obtain ⟨logs, hlogs⟩ := h w
  rw [hlogs]
  exact .ok x

/-- Only the first action has to be looked at where it is run. -/
theorem bind_at (ha : FailsOnly P (a w).1) (hf : ∀ x, RaisesOnly P (f x)) :
    FailsOnly P ((a >>= f) w).1 := by
  cases hresult : (a w).1 with
  | ok x =>
      obtain ⟨w', hw'⟩ := exists_world hresult
      rw [bind_of_ok hw']
      exact hf x w'
  | error e =>
      obtain ⟨w', hw'⟩ := exists_world hresult
      rw [bind_of_error hw']
      exact .error (ha e hresult)

theorem bind (ha : RaisesOnly P a) (hf : ∀ x, RaisesOnly P (f x)) : RaisesOnly P (a >>= f) :=
  fun w => bind_at (ha w) hf

/-- Failures of the file system go to the second action, all others pass through. -/
theorem orOnSystemFailure {b : Failure → Action α}
    (hpass : ∀ e : Failure, e.kind.isSystem = false → P e) (hb : ∀ e, RaisesOnly P (b e))
    (a : Action α) : RaisesOnly P (a.orOnSystemFailure b) := by
  intro w
  cases hresult : (a w).1 with
  | ok x =>
      obtain ⟨w', hw'⟩ := exists_world hresult
      rw [orOnSystemFailure_of_ok hw']
      exact .ok x
  | error e =>
      obtain ⟨w', hw'⟩ := exists_world hresult
      rw [orOnSystemFailure_of_error hw']
      split
      · exact hb e w'
      · rename_i hsystem
        exact .error (hpass e (Bool.eq_false_iff.mpr hsystem))

theorem removeFile (path : Path) :
    RaisesOnly (fun e => ∃ fault, fault ≠ .notFound ∧ e = .file fault path.text)
      (Action.removeFile path) := by
  intro w
  cases hremove : w.files.remove path with
  | ok fs =>
      rw [removeFile_of_ok hremove]
      exact .ok ()
  | error fault =>
      rw [removeFile_of_error hremove]
      dsimp only
      split
      · exact .ok ()
      · rename_i hfault
        exact .error ⟨fault, hfault, rfl⟩

end RaisesOnly

/-! ## Actions that only log and print -/

/-- An action that changes nothing but what is logged and printed, whether or not it fails. -/
def Talks (a : Action α) : Prop :=
  ∀ w, ∃ logs printed, (a w).2 = { w with logs, printed }

namespace Talks

theorem of_logs (h : Logs a x) : Talks a := by
  intro w
  obtain ⟨logs, hlogs⟩ := h w
  exact ⟨logs, w.printed, by rw [hlogs]⟩

theorem pure (x : α) : Talks (Pure.pure x : Action α) :=
  of_logs (.pure x)

theorem ofExcept (r : Except Failure α) : Talks (Action.ofExcept r) :=
  fun w => ⟨w.logs, w.printed, by rw [ofExcept_apply]⟩

theorem files : Talks Action.files :=
  fun w => ⟨w.logs, w.printed, by rw [files_apply]⟩

theorem bind (ha : Talks a) (hf : ∀ x, Talks (f x)) : Talks (a >>= f) := by
  intro w
  obtain ⟨logs, printed, hleft⟩ := ha w
  cases hresult : (a w).1 with
  | error e =>
      rw [bind_of_error (Prod.ext hresult hleft)]
      exact ⟨logs, printed, rfl⟩
  | ok x =>
      obtain ⟨more, shown, hrest⟩ := hf x { w with logs, printed }
      rw [bind_of_ok (Prod.ext hresult hleft)]
      exact ⟨more, shown, hrest⟩

end Talks

/-- An action that changes nothing but what is logged and printed, and never fails. -/
def Says (a : Action α) : Prop :=
  Talks a ∧ RaisesOnly (fun _ => False) a

namespace Says

theorem of_prints {s : String} (h : Prints a x s) : Says a :=
  ⟨fun w => ⟨w.logs, w.printed ++ s, by rw [h w]⟩, fun w => by rw [h w]; exact .ok x⟩

theorem raisesOnly (h : Says a) (P : Failure → Prop) : RaisesOnly P a :=
  h.2.imp fun _ => False.elim

theorem exists_ok (h : Says a) (w : World) :
    ∃ x logs printed, a w = (.ok x, { w with logs, printed }) := by
  obtain ⟨logs, printed, hleft⟩ := h.1 w
  obtain ⟨x, hx⟩ := (h.2 w).exists_ok
  exact ⟨x, logs, printed, Prod.ext hx hleft⟩

end Says

/-! ## Actions that look at the environment -/

/-- An action that looks at nothing but the environment and changes nothing but the log. -/
def Consults (a : Action α) (r : List (String × String) → α) : Prop :=
  ∀ w, ∃ logs, a w = (.ok (r w.environment), { w with logs })

namespace Consults

theorem of_logs (h : Logs a x) : Consults a fun _ => x := h

theorem environmentVariable? (name : String) :
    Consults (Action.environmentVariable? name) fun env =>
      (env.find? fun e => e.1 == name).map (·.2) :=
  fun w => ⟨w.logs, rfl⟩

theorem bind {r : List (String × String) → α} {q : α → List (String × String) → β}
    (ha : Consults a r) (hf : ∀ x, Consults (f x) (q x)) :
    Consults (a >>= f) fun env => q (r env) env := by
  intro w
  obtain ⟨logs, hlogs⟩ := ha w
  obtain ⟨more, hmore⟩ := hf (r w.environment) { w with logs }
  exact ⟨more, (bind_of_ok hlogs).trans hmore⟩

theorem mapM {g : α → List (String × String) → β} (hf : ∀ x, Consults (f x) (g x)) (xs : List α) :
    Consults (xs.mapM f) fun env => xs.map fun x => g x env := by
  induction xs with
  | nil => exact of_logs (Logs.pure _)
  | cons x xs ih =>
      rw [List.mapM_cons]
      exact (hf x).bind fun y => ih.bind fun ys => of_logs (Logs.pure _)

end Consults

end ImportAudit.Action
