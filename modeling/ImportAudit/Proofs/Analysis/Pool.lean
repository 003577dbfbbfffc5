import ImportAudit.Analysis.Pool
import ImportAudit.Proofs.Sequencing
import Mathlib.Data.List.Nodup
import Mathlib.Data.List.Range

/-!
# Invariants of the pool of workers

An event of a run follows one of the rules of `Move`, which say what workers and the loop may do to
the state. Everything that holds of all runs is proved of one rule at a time: what a rule leaves
alone, what it stores, and that it keeps the state sound.
-/

namespace ImportAudit.Pool

variable {ε α : Type} {jobs : Jobs ε α} {p q : Pool ε α} {i : Nat} {a : α}

/-! ## Single operations -/

theorem lookup_cons_of_ne {β : Type} {i j : Nat} {b : β} {entries : List (Nat × β)} (hij : i ≠ j) :
    ((j, b) :: entries).lookup i = entries.lookup i := by
  rw [List.lookup_cons, beq_false_of_ne hij]

theorem isLate_iff : p.isLate jobs i = true ↔
    ∃ limit time, jobs.limit = some limit ∧ p.startOf? i = some time ∧
      time + limit ≤ p.seen ∧ i ∉ p.finished := by
  unfold isLate
  cases hlimit : jobs.limit with
  | none => simp
  | some limit =>
      cases htime : p.startOf? i with
      | none => simp
      | some time => simp

theorem isRunning_iff : p.isRunning i = true ↔ (p.startOf? i).isSome ∧ i ∉ p.finished := by
  simp [isRunning]

theorem canWake_iff {batch : List Nat} : p.canWake batch = true ↔
    p.phase = .waiting ∧ batch.Nodup ∧ ∀ i ∈ batch, i ∈ p.pending ∧ i ∈ p.finished := by
  unfold canWake
  cases hphase : p.phase <;> simp

theorem mem_stored_iff : i ∈ p.stored ↔ (p.outcome? i).isSome := by
  simp only [stored, outcome?, List.mem_map, List.lookup_isSome_iff, beq_iff_eq]
  constructor
  · rintro ⟨entry, hentry, rfl⟩
    exact ⟨entry, hentry, rfl⟩
  · rintro ⟨entry, hentry, heq⟩
    exact ⟨entry, hentry, heq.symm⟩

section Store

variable {next : Phase ε}

theorem store_of_mem (hi : i ∈ p.pending) : p.store i a next =
    { p with pending := p.pending.erase i, outcomes := (i, a) :: p.outcomes, phase := next } := by
  simp [store, hi]

@[simp] theorem clock_store : (p.store i a next).clock = p.clock := by
  unfold store
  split <;> rfl

@[simp] theorem seen_store : (p.store i a next).seen = p.seen := by
  unfold store
  split <;> rfl

@[simp] theorem startOf?_store (j : Nat) : (p.store i a next).startOf? j = p.startOf? j := by
  unfold store
  split <;> rfl

@[simp] theorem finished_store : (p.store i a next).finished = p.finished := by
  unfold store
  split <;> rfl

/-- A stored job leaves the pending ones, so no job is lost and none is doubled. -/
theorem store_perm (hi : i ∈ p.pending) :
    ((p.store i a next).pending ++ (p.store i a next).stored).Perm (p.pending ++ p.stored) := by
  rw [store_of_mem hi]
  calc p.pending.erase i ++ i :: p.stored
      _ |>.Perm (i :: (p.pending.erase i ++ p.stored)) := List.perm_middle
      _ |>.Perm (p.pending ++ p.stored) := ((List.perm_cons_erase hi).symm.append_right p.stored)

theorem outcome?_store (hi : i ∈ p.pending) (j : Nat) :
    (p.store i a next).outcome? j = if j = i then some a else p.outcome? j := by
  rw [store_of_mem hi]
  by_cases hji : j = i
  · subst hji
    simp [outcome?]
  · rw [if_neg hji]
    exact lookup_cons_of_ne hji

end Store

/-! ## The rules -/

/-- What workers and the loop may do to the state of a run. -/
inductive Move (jobs : Jobs ε α) (p : Pool ε α) : Pool ε α → Prop
  | stay : Move jobs p p
  | tick (duration : Nat) : Move jobs p { p with clock := p.clock + duration }
  | pickUp (i : Nat) (hi : i < jobs.count) (hnew : p.startOf? i = none) :
      Move jobs p { p with started := (i, p.clock) :: p.started }
  | finish (i : Nat) (hstarted : (p.startOf? i).isSome) (hnew : i ∉ p.finished) :
      Move jobs p { p with finished := i :: p.finished }
  | wake (batch : List Nat) (hphase : p.phase = .waiting) (hnodup : batch.Nodup)
      (hbatch : ∀ i ∈ batch, i ∈ p.pending ∧ i ∈ p.finished) :
      Move jobs p { p with phase := .storing batch }
  | take (i : Nat) (batch : List Nat) (a : α) (hphase : p.phase = .storing (i :: batch))
      (hi : i ∈ p.pending) (hfinished : i ∈ p.finished) (ha : jobs.result i = .ok a) :
      Move jobs p (p.store i a (.storing batch))
  | fail (i : Nat) (batch : List Nat) (e : ε) (hphase : p.phase = .storing (i :: batch))
      (hfinished : i ∈ p.finished) (he : jobs.result i = .error e) :
      Move jobs p { p with phase := .failed e }
  /-- The loop looks at the clock, and is going to check all jobs that are pending by then. -/
  | look (limit : Nat) (hlimit : jobs.limit = some limit) :
      Move jobs p { p with seen := p.clock, phase := .checking p.pending }
  | giveUp (i : Nat) (rest : List Nat) (hphase : p.phase = .checking (i :: rest))
      (hi : i ∈ p.pending) (hlate : p.isLate jobs i = true) :
      Move jobs p (p.store i (jobs.late i) (.checking rest))
  | pass (i : Nat) (rest : List Nat) (hphase : p.phase = .checking (i :: rest)) :
      Move jobs p { p with phase := .checking rest }
  | proceed : Move jobs p p.proceed

namespace Move

theorem perm (hm : Move jobs p q) : (q.pending ++ q.stored).Perm (p.pending ++ p.stored) := by
  cases hm with
  | take i batch a _ hi _ _ => exact store_perm hi
  | giveUp i rest _ hi _ => exact store_perm hi
  | _ => exact List.Perm.refl _

/-- The loop never sees a time that has not come, and never an earlier one than before. -/
theorem seen_le (hm : Move jobs p q) (hseen : p.seen ≤ p.clock) :
    p.seen ≤ q.seen ∧ q.seen ≤ q.clock := by
  cases hm with
  | tick duration => exact ⟨Nat.le_refl _, Nat.le_trans hseen (Nat.le_add_right _ _)⟩
  | look limit _ => exact ⟨hseen, Nat.le_refl _⟩
  | take | giveUp => simpa using hseen
  | _ => exact ⟨Nat.le_refl _, hseen⟩

theorem mem_finished (hm : Move jobs p q) (hi : i ∈ p.finished) : i ∈ q.finished := by
  cases hm with
  | finish j _ _ => exact List.mem_cons_of_mem j hi
  | take | giveUp => simpa using hi
  | _ => exact hi

theorem startOf?_eq (hm : Move jobs p q) {time : Nat} (hi : p.startOf? i = some time) :
    q.startOf? i = some time := by
  cases hm with
  | pickUp j _ hnew =>
      have hne : i ≠ j := by
        rintro rfl
        rw [hi] at hnew
        exact Option.some_ne_none _ hnew
      exact (lookup_cons_of_ne hne).trans hi
  | take | giveUp => simpa using hi
  | _ => exact hi

/-- What a rule stores is the result of a job that has finished, or stands for a
job that is late. -/
theorem outcome?_cases (hm : Move jobs p q) (i : Nat) :
    q.outcome? i = p.outcome? i ∨
    i ∈ p.pending ∧ ∃ a, q.outcome? i = some a ∧
      (i ∈ p.finished ∧ jobs.result i = .ok a ∨ p.isLate jobs i = true ∧ a = jobs.late i) := by
  cases hm with
  | take j batch a _ hj hfinished ha =>
      rw [outcome?_store hj]
      by_cases hij : i = j
      · subst hij
        exact .inr ⟨hj, a, if_pos rfl, .inl ⟨hfinished, ha⟩⟩
      · exact .inl (if_neg hij)
  | giveUp j rest _ hj hlate =>
      rw [outcome?_store hj]
      by_cases hij : i = j
      · subst hij
        exact .inr ⟨hj, jobs.late i, if_pos rfl, .inr ⟨hlate, rfl⟩⟩
      · exact .inl (if_neg hij)
  | _ => exact .inl rfl

end Move

/-! ## Sound states -/

def PhaseSound (jobs : Jobs ε α) (p : Pool ε α) : Phase ε → Prop
  | .waiting => True
  | .storing batch => batch.Nodup ∧ ∀ i ∈ batch, i ∈ p.pending ∧ i ∈ p.finished
  | .checking rest => rest.Nodup ∧ ∀ i ∈ rest, i ∈ p.pending
  | .complete => p.pending = []
  | .failed e => ∃ i ∈ p.finished, jobs.result i = .error e
  | .broken _ => False

/-- Why a job may have a stored result: it has finished with this result, or it
was late when the loop looked. -/
def Justified (jobs : Jobs ε α) (p : Pool ε α) (i : Nat) (a : α) : Prop :=
  i ∈ p.finished ∧ jobs.result i = .ok a ∨
  ∃ limit time, jobs.limit = some limit ∧ p.startOf? i = some time ∧ time + limit ≤ p.seen ∧
    a = jobs.late i

/-- What holds in every state of a run. -/
structure Sound (jobs : Jobs ε α) (p : Pool ε α) : Prop where
  /-- Each job is either pending or stored, and there are no other jobs. -/
  partition : (p.pending ++ p.stored).Perm (List.range jobs.count)
  seen_le : p.seen ≤ p.clock
  started_lt : ∀ i, (p.startOf? i).isSome → i < jobs.count
  finished_started : ∀ i ∈ p.finished, (p.startOf? i).isSome
  phase : PhaseSound jobs p p.phase
  justified : ∀ i a, p.outcome? i = some a → Justified jobs p i a

namespace Sound

theorem phase_at (hs : Sound jobs p) {phase : Phase ε} (hphase : p.phase = phase) :
    PhaseSound jobs p phase :=
  hphase ▸ hs.phase

theorem lt_of_finished (hs : Sound jobs p) (hi : i ∈ p.finished) : i < jobs.count :=
  hs.started_lt i (hs.finished_started i hi)

theorem nodup (hs : Sound jobs p) : (p.pending ++ p.stored).Nodup :=
  hs.partition.nodup_iff.mpr List.nodup_range

theorem disjoint (hs : Sound jobs p) : p.pending.Disjoint p.stored :=
  List.disjoint_of_nodup_append hs.nodup

theorem mem_pending_or_stored (hs : Sound jobs p) : i ∈ p.pending ∨ i ∈ p.stored ↔
    i < jobs.count := by
  rw [← List.mem_append, hs.partition.mem_iff, List.mem_range]

theorem outcome?_eq_none (hs : Sound jobs p) (hi : i ∈ p.pending) : p.outcome? i = none := by
  by_contra hne
  have hstored : i ∈ p.stored := mem_stored_iff.mpr (Option.isSome_iff_ne_none.mpr hne)
  exact hs.disjoint hi hstored

/-- A stored result is never replaced. -/
theorem outcome?_eq_some (hs : Sound jobs p) (hm : Move jobs p q) (hi : p.outcome? i = some a) :
    q.outcome? i = some a := by
  rcases hm.outcome?_cases i with hsame | ⟨hpending, -⟩
  · rw [hsame, hi]
  · rw [hs.outcome?_eq_none hpending] at hi
    exact absurd hi.symm (Option.some_ne_none a)

end Sound

theorem PhaseSound.mono {phase : Phase ε} (hpending : q.pending = p.pending)
    (hfinished : ∀ i ∈ p.finished, i ∈ q.finished) (h : PhaseSound jobs p phase) :
    PhaseSound jobs q phase := by
  cases phase with
  | waiting => trivial
  | storing batch =>
      refine ⟨h.1, fun i hi => ⟨?_, hfinished i (h.2 i hi).2⟩⟩
      rw [hpending]
      exact (h.2 i hi).1
  | checking rest =>
      refine ⟨h.1, fun i hi => ?_⟩
      rw [hpending]
      exact h.2 i hi
  | complete => exact hpending.trans h
  | failed e =>
      obtain ⟨i, hi, he⟩ := h
      exact ⟨i, hfinished i hi, he⟩
  | broken job => exact h

theorem phaseSound_proceed : PhaseSound jobs p.proceed p.proceed.phase := by
  unfold proceed
  by_cases hempty : p.pending.isEmpty
  · rw [if_pos hempty]
    exact List.isEmpty_iff.mp hempty
  · rw [if_neg hempty]
    trivial

/-- A job comes once in a list that the loop goes through, so the others of the
list stay pending. -/
theorem mem_erase_of_nodup {batch : List Nat} {j : Nat} (hnodup : (i :: batch).Nodup)
    (hj : j ∈ batch) (hpending : j ∈ p.pending) : j ∈ p.pending.erase i := by
  have hne : j ≠ i := fun h => (List.nodup_cons.mp hnodup).1 (h ▸ hj)
  exact (List.mem_erase_of_ne hne).mpr hpending

theorem Justified.mono (hm : Move jobs p q) (hseen : p.seen ≤ p.clock) (h : Justified jobs p i a) :
    Justified jobs q i a := by
  rcases h with ⟨hfinished, ha⟩ | ⟨limit, time, hlimit, htime, hle, ha⟩
  · exact .inl ⟨hm.mem_finished hfinished, ha⟩
  · have hseen' : p.seen ≤ q.seen := (hm.seen_le hseen).1
    exact .inr ⟨limit, time, hlimit, hm.startOf?_eq htime, hle.trans hseen', ha⟩

namespace Sound

theorem move_started_lt (hs : Sound jobs p) (hm : Move jobs p q) (hi : (q.startOf? i).isSome) :
    i < jobs.count := by
  cases hm with
  | pickUp j hj hnew =>
      by_cases hij : i = j
      · exact hij ▸ hj
      · rw [startOf?, lookup_cons_of_ne hij] at hi
        exact hs.started_lt i hi
  | take | giveUp => exact hs.started_lt i (by simpa using hi)
  | _ => exact hs.started_lt i hi

theorem move_finished_started (hs : Sound jobs p) (hm : Move jobs p q) (hi : i ∈ q.finished) :
    (q.startOf? i).isSome := by
  have hold : i ∈ p.finished ∨ (p.startOf? i).isSome := by
    cases hm with
    | finish j hstarted _ =>
        rcases List.mem_cons.mp hi with rfl | hi
        · exact .inr hstarted
        · exact .inl hi
    | take | giveUp => exact .inl (by simpa using hi)
    | _ => exact .inl hi
  have hstarted : (p.startOf? i).isSome := hold.elim (hs.finished_started i) id
  obtain ⟨time, htime⟩ := Option.isSome_iff_exists.mp hstarted
  rw [hm.startOf?_eq htime]
  rfl

theorem move_phase (hs : Sound jobs p) (hm : Move jobs p q) : PhaseSound jobs q q.phase := by
  cases hm with
  | stay => exact hs.phase
  | tick duration => exact hs.phase.mono rfl fun _ hi => hi
  | pickUp i _ _ => exact hs.phase.mono rfl fun _ hi => hi
  | finish i _ _ =>
      exact PhaseSound.mono (p := p) rfl (fun _ hj => List.mem_cons_of_mem i hj) hs.phase
  | wake batch _ hnodup hbatch => exact ⟨hnodup, hbatch⟩
  | take i batch a hstoring hi _ _ =>
      obtain ⟨hnodup, hbatch⟩ := hs.phase_at hstoring
      rw [store_of_mem hi]
      refine ⟨(List.nodup_cons.mp hnodup).2, fun j hj => ?_⟩
      obtain ⟨hpending, hfinished⟩ := hbatch j (List.mem_cons_of_mem i hj)
      exact ⟨mem_erase_of_nodup hnodup hj hpending, hfinished⟩
  | fail i batch e _ hfinished he => exact ⟨i, hfinished, he⟩
  | look limit _ => exact ⟨(List.nodup_append.mp hs.nodup).1, fun _ hi => hi⟩
  | giveUp i rest hchecking hi _ =>
      obtain ⟨hnodup, hrest⟩ := hs.phase_at hchecking
      rw [store_of_mem hi]
      refine ⟨(List.nodup_cons.mp hnodup).2, fun j hj => ?_⟩
      exact mem_erase_of_nodup hnodup hj (hrest j (List.mem_cons_of_mem i hj))
  | pass i rest hchecking =>
      obtain ⟨hnodup, hrest⟩ := hs.phase_at hchecking
      exact ⟨(List.nodup_cons.mp hnodup).2, fun j hj => hrest j (List.mem_cons_of_mem i hj)⟩
  | proceed => exact phaseSound_proceed

theorem move_justified (hs : Sound jobs p) (hm : Move jobs p q) (hi : q.outcome? i = some a) :
    Justified jobs q i a := by
  refine Justified.mono hm hs.seen_le ?_
  rcases hm.outcome?_cases i with hsame | ⟨-, b, hb, hreason⟩
  · exact hs.justified i a (hsame ▸ hi)
  · have hab : b = a := Option.some.inj (hb.symm.trans hi)
    subst hab
    rcases hreason with hfinished | ⟨hlate, hb⟩
    · exact .inl hfinished
    · obtain ⟨limit, time, hlimit, htime, hle, -⟩ := isLate_iff.mp hlate
      exact .inr ⟨limit, time, hlimit, htime, hle, hb⟩

/-- Every rule keeps a sound state sound. -/
theorem move (hs : Sound jobs p) (hm : Move jobs p q) : Sound jobs q where
  partition := hm.perm.trans hs.partition
  seen_le := (hm.seen_le hs.seen_le).2
  started_lt _ hi := hs.move_started_lt hm hi
  finished_started _ hi := hs.move_finished_started hm hi
  phase := hs.move_phase hm
  justified _ _ hi := hs.move_justified hm hi

end Sound

/-! ## Runs -/

/-- The loop follows the rules: in a sound state it never takes out a job that is not pending. -/
theorem advance_move (hs : Sound jobs p) : Move jobs p (p.advance jobs) := by
  unfold advance
  split
  next i batch hstoring =>
    obtain ⟨hi, hfinished⟩ := (hs.phase_at hstoring).2 i List.mem_cons_self
    split
    next a ha => exact .take i batch a hstoring hi hfinished ha
    next e he => exact .fail i batch e hstoring hfinished he
  next =>
    split
    next limit hlimit => exact .look limit hlimit
    next => exact .proceed
  next i rest hchecking =>
    split
    next hlate =>
      exact .giveUp i rest hchecking ((hs.phase_at hchecking).2 i List.mem_cons_self) hlate
    next => exact .pass i rest hchecking
  next => exact .proceed
  next => exact .stay

theorem step_move (hs : Sound jobs p) (e : Event) : Move jobs p (step jobs p e) := by
  cases e with
  | tick d => exact .tick d
  | pickUp i =>
      rw [step]
      split
      next h =>
        simp only [Bool.and_eq_true, decide_eq_true_eq, Option.isNone_iff_eq_none] at h
        exact .pickUp i h.1.1 h.1.2
      next => exact .stay
  | finish i =>
      rw [step]
      split
      next h =>
        obtain ⟨hstarted, hnew⟩ := isRunning_iff.mp h
        exact .finish i hstarted hnew
      next => exact .stay
  | wake batch =>
      rw [step]
      split
      next h =>
        obtain ⟨hwaiting, hnodup, hbatch⟩ := canWake_iff.mp h
        exact .wake batch hwaiting hnodup hbatch
      next => exact .stay
  | advance => exact advance_move hs

/-- What holds in a sound state and is kept by every rule holds after any events. -/
theorem runFrom_induction {P : Pool ε α → Prop}
    (hkeep : ∀ p q, Sound jobs p → Move jobs p q → P p → P q) (hs : Sound jobs p) (hp : P p)
    (events : List Event) : P (runFrom jobs p events) ∧ Sound jobs (runFrom jobs p events) := by
  induction events generalizing p with
  | nil => exact ⟨hp, hs⟩
  | cons e events ih =>
      have hm := step_move hs e
      exact ih (hs.move hm) (hkeep p _ hs hm hp)

theorem start_sound (jobs : Jobs ε α) : Sound jobs (start jobs) where
  partition := by simp [start, proceed, stored]
  seen_le := Nat.le_refl _
  started_lt _ hi := by simp [start, proceed, startOf?] at hi
  finished_started _ hi := by simp [start, proceed] at hi
  phase := phaseSound_proceed
  justified _ _ hi := by simp [start, proceed, outcome?] at hi

theorem run_sound (jobs : Jobs ε α) (events : List Event) : Sound jobs (run jobs events) :=
  (runFrom_induction (P := fun _ => True) (fun _ _ _ _ h => h) (start_sound jobs) trivial events).2

theorem run_append (jobs : Jobs ε α) (events more : List Event) :
    run jobs (events ++ more) = runFrom jobs (run jobs events) more := by
  simp [run, runFrom, List.foldl_append]

theorem run_concat (jobs : Jobs ε α) (events : List Event) (e : Event) :
    run jobs (events ++ [e]) = step jobs (run jobs events) e :=
  run_append jobs events [e]

/-! ## What a run stores -/

theorem runFrom_outcome? (hs : Sound jobs p) (hi : p.outcome? i = some a) (events : List Event) :
    (runFrom jobs p events).outcome? i = some a :=
  (runFrom_induction (P := fun q => q.outcome? i = some a)
    (fun _ _ hs hm h => hs.outcome?_eq_some hm h) hs hi events).1

/-- A result that an event stores is that of a job that has finished, or stands for a job that is
late in the very state in which it is stored. -/
theorem step_outcome? (hs : Sound jobs p) {e : Event} (hnone : p.outcome? i = none)
    (hsome : (step jobs p e).outcome? i = some a) :
    i ∈ p.finished ∧ jobs.result i = .ok a ∨ p.isLate jobs i = true ∧ a = jobs.late i := by
  rcases (step_move hs e).outcome?_cases i with hsame | ⟨-, b, hb, hreason⟩
  · rw [hsame, hnone] at hsome
    exact absurd hsome.symm (Option.some_ne_none a)
  · have hab : b = a := Option.some.inj (hb.symm.trans hsome)
    exact hab ▸ hreason

/-- Once a job has finished without a stored result, only its own result can be stored for it. -/
theorem runFrom_of_finished (hs : Sound jobs p) (hi : i ∈ p.finished) (hnone : p.outcome? i = none)
    (events : List Event) (hsome : (runFrom jobs p events).outcome? i = some a) :
    jobs.result i = .ok a := by
  -- Kept by every rule: the job stays finished, so no rule gives it up.
  let P (q : Pool ε α) : Prop := i ∈ q.finished ∧ ∀ b, q.outcome? i = some b → jobs.result i = .ok b
  have hkeep : ∀ q r, Sound jobs q → Move jobs q r → P q → P r := by
    intro q r _ hm hq
    refine ⟨hm.mem_finished hq.1, fun b hb => ?_⟩
    rcases hm.outcome?_cases i with hsame | ⟨-, c, hc, hreason⟩
    · exact hq.2 b (hsame ▸ hb)
    · have hcb : c = b := Option.some.inj (hc.symm.trans hb)
      subst hcb
      rcases hreason with hfinished | ⟨hlate, -⟩
      · exact hfinished.2
      · obtain ⟨_, _, _, _, _, hunfinished⟩ := isLate_iff.mp hlate
        exact absurd hq.1 hunfinished
  have hp : P p := ⟨hi, fun b hb => absurd (hb.symm.trans hnone) (Option.some_ne_none b)⟩
  exact (runFrom_induction hkeep hs hp events).1.2 a hsome

/-- A running job has no stored result before its limit is reached. -/
theorem Sound.outcome?_eq_none_of_running (hs : Sound jobs p) {time : Nat}
    (hrunning : i ∉ p.finished) (htime : p.startOf? i = some time)
    (hearly : ∀ limit, jobs.limit = some limit → p.clock < time + limit) :
    p.outcome? i = none := by
  cases hi : p.outcome? i with
  | none => rfl
  | some a =>
      rcases hs.justified i a hi with ⟨hfinished, -⟩ | ⟨limit, time', hlimit, htime', hle, -⟩
      · exact absurd hfinished hrunning
      · have hsame : time' = time := Option.some.inj (htime'.symm.trans htime)
        have hlt := hearly limit hlimit
        have hseen := hs.seen_le
        omega

/-- A job that finishes before its limit is reached keeps its own result,
whenever the loop comes to it. -/
theorem runFrom_finish_in_time (hs : Sound jobs p) {time : Nat} (htime : p.startOf? i = some time)
    (hrunning : i ∉ p.finished) (hearly : ∀ limit, jobs.limit = some limit → p.clock < time + limit)
    (events : List Event) (hsome : (runFrom jobs p (.finish i :: events)).outcome? i = some a) :
    jobs.result i = .ok a := by
  have hfinish : step jobs p (.finish i) = { p with finished := i :: p.finished } := by
    have hi : p.isRunning i = true := isRunning_iff.mpr ⟨by rw [htime]; rfl, hrunning⟩
    rw [step, if_pos hi]
  have hs' : Sound jobs (step jobs p (.finish i)) := hs.move (step_move hs _)
  have hnone : (step jobs p (.finish i)).outcome? i = none := by
    rw [hfinish]
    exact hs.outcome?_eq_none_of_running hrunning htime hearly
  have hmem : i ∈ (step jobs p (.finish i)).finished := by
    rw [hfinish]
    exact List.mem_cons_self
  exact runFrom_of_finished hs' hmem hnone events hsome

/-! ## The end of the loop -/

theorem results?_eq_some_iff {results : List α} : p.results? jobs = some results ↔
    results.length = jobs.count ∧ ∀ i < jobs.count, results[i]? = p.outcome? i := by
  rw [results?, mapM_eq_some_iff]
  constructor
  · intro h
    have hlength : results.length = jobs.count := by
      simpa using (congrArg List.length h).symm
    refine ⟨hlength, fun i hi => ?_⟩
    have hget := congrArg (fun l => l[i]?) h
    simp [hi, hlength] at hget
    simp [hget, hlength, hi]
  · rintro ⟨hlength, hget⟩
    apply List.ext_getElem?
    intro i
    by_cases hi : i < jobs.count
    · have := hget i hi
      simp [hi, hlength] at this ⊢
      exact this.symm
    · simp [hi, hlength]

theorem Sound.exists_results (hs : Sound jobs p) (hcomplete : p.phase = .complete) :
    ∃ results, p.results? jobs = some results := by
  have hempty : p.pending = [] := hs.phase_at hcomplete
  apply exists_mapM_eq_some
  intro i hi
  rcases hs.mem_pending_or_stored.mpr (List.mem_range.mp hi) with hpending | hstored
  · rw [hempty] at hpending
    exact absurd hpending List.not_mem_nil
  · exact mem_stored_iff.mp hstored

end ImportAudit.Pool
