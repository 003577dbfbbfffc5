import ImportAudit.Proofs.Analysis.Pool

/-!
# Jobs that run one after the other

The trace in which every job is over before the next is picked up always brings the loop to its end.
Its results are those that the jobs yield in their order, a job that exceeds the limit being
replaced; if one of them fails, the loop fails with the first.
-/

namespace ImportAudit.Pool

variable {ε α : Type} {jobs : Jobs ε α} {p : Pool ε α} {i : Nat} {a : α}

theorem runFrom_cons (e : Event) (events : List Event) :
    runFrom jobs p (e :: events) = runFrom jobs (step jobs p e) events := rfl

theorem runFrom_append (events more : List Event) :
    runFrom jobs p (events ++ more) = runFrom jobs (runFrom jobs p events) more :=
  List.foldl_append

/-! ## Rounds of the loop -/

theorem runFrom_advance_of_rest (hrest : p.advance jobs = p) (n : Nat) :
    runFrom jobs p (List.replicate n .advance) = p := by
  induction n with
  | zero => rfl
  | succ n ih =>
      rw [List.replicate_succ, runFrom_cons]
      simpa only [step, hrest] using ih

theorem advance_proceed : p.proceed.advance jobs = p.proceed := by
  by_cases hempty : p.pending.isEmpty <;> simp [proceed, advance, hempty]

theorem runFrom_failed {e : ε} (hfailed : p.phase = .failed e) (events : List Event) :
    (runFrom jobs p events).phase = .failed e := by
  induction events generalizing p with
  | nil => exact hfailed
  | cons event events ih =>
      apply ih
      cases event with
      | tick d => exact hfailed
      | pickUp i => rw [step]; split <;> exact hfailed
      | finish i => rw [step]; split <;> exact hfailed
      | wake batch => simp [step, canWake, hfailed]
      | advance => simp [step, advance, hfailed]

theorem isLate_of_not_started (hi : p.startOf? i = none) : p.isLate jobs i = false := by
  unfold isLate
  rw [hi]
  cases jobs.limit <;> rfl

theorem runFrom_checking {rest : List Nat} (hlate : ∀ i ∈ rest, p.isLate jobs i = false) {n : Nat}
    (hn : rest.length < n) :
    runFrom jobs { p with phase := .checking rest } (List.replicate n .advance) = p.proceed := by
  induction rest generalizing n with
  | nil =>
      obtain ⟨n, rfl⟩ := Nat.exists_eq_succ_of_ne_zero (Nat.ne_of_gt hn)
      exact runFrom_advance_of_rest (p := p.proceed) advance_proceed n
  | cons i rest ih =>
      obtain ⟨n, rfl⟩ := Nat.exists_eq_succ_of_ne_zero (Nat.ne_zero_of_lt hn)
      have hi : ({ p with phase := .checking (i :: rest) } : Pool ε α).isLate jobs i = false :=
        hlate i List.mem_cons_self
      have hstep : step jobs { p with phase := .checking (i :: rest) } .advance =
          { p with phase := .checking rest } := by
        simp [step, advance, hi]
      rw [List.replicate_succ, runFrom_cons, hstep]
      refine ih (fun j hj => hlate j (List.mem_cons_of_mem i hj)) ?_
      simpa using hn

/-- The time that the loop has seen after a look at the clock, which it takes
only if there is a limit. -/
def seenNow (jobs : Jobs ε α) (p : Pool ε α) : Nat :=
  if jobs.limit.isSome then p.clock else p.seen

theorem runFrom_storing_nil (hidle : ∀ i ∈ p.pending, p.startOf? i = none) {n : Nat}
    (hn : p.pending.length + 1 < n) :
    runFrom jobs { p with phase := .storing [] } (List.replicate n .advance) =
      { p with seen := seenNow jobs p }.proceed := by
  obtain ⟨n, rfl⟩ := Nat.exists_eq_succ_of_ne_zero (Nat.ne_zero_of_lt hn)
  rw [List.replicate_succ, runFrom_cons]
  cases hlimit : jobs.limit with
  | none =>
      have hstep : step jobs { p with phase := .storing [] } .advance =
          { p with seen := seenNow jobs p }.proceed := by
        simp [step, advance, proceed, seenNow, hlimit]
      rw [hstep]
      exact runFrom_advance_of_rest advance_proceed n
  | some limit =>
      have hstep : step jobs { p with phase := .storing [] } .advance =
          { { p with seen := seenNow jobs p } with phase := .checking p.pending } := by
        simp [step, advance, seenNow, hlimit]
      rw [hstep]
      refine runFrom_checking (p := { p with seen := seenNow jobs p })
        (fun i hi => isLate_of_not_started (hidle i hi)) ?_
      omega

/-! ## The turn of one job -/

def resultAfter (jobs : Jobs ε α) (job duration : Nat) : Except ε α :=
  if exceeds jobs.limit duration then .ok (jobs.late job) else jobs.result job

/-- A state in which it is the turn of a job: the loop waits, and neither the job nor
any after it was picked up. -/
structure Ready (jobs : Jobs ε α) (p : Pool ε α) (job : Nat) (rest : List Nat) : Prop where
  lt : job < jobs.count
  pending : p.pending = job :: rest
  idle : ∀ i ∈ job :: rest, p.startOf? i = none
  unfinished : job ∉ p.finished
  room : p.hasRoom jobs = true
  waiting : p.phase = .waiting
  length_lt : rest.length < jobs.count

namespace Ready

variable {job duration : Nat} {rest : List Nat}

def begun (p : Pool ε α) (job duration : Nat) : Pool ε α :=
  { p with clock := p.clock + duration, started := (job, p.clock) :: p.started }

theorem runFrom_begin (h : Ready jobs p job rest) :
    runFrom jobs p [.pickUp job, .tick duration] = begun p job duration := by
  have hnew : p.startOf? job = none := h.idle job List.mem_cons_self
  simp [runFrom, step, begun, h.lt, hnew, h.room]

theorem idle_begun (h : Ready jobs p job rest) (hjob : job ∉ rest) (duration : Nat)
    (hi : i ∈ rest) :
    (begun p job duration).startOf? i = none := by
  have hne : i ≠ job := fun heq => hjob (heq ▸ hi)
  exact (lookup_cons_of_ne hne).trans (h.idle i (List.mem_cons_of_mem job hi))

theorem isRunning_begun (h : Ready jobs p job rest) (duration : Nat) :
    (begun p job duration).isRunning job = true := by
  refine isRunning_iff.mpr ⟨?_, h.unfinished⟩
  simp [begun, startOf?]

def ended (p : Pool ε α) (job duration : Nat) (rest : List Nat) (a : α) : Pool ε α :=
  { begun p job duration with
    finished := job :: p.finished, pending := rest, outcomes := (job, a) :: p.outcomes }

/-- A job that ends within the limit is handed to the loop, which has steps
enough left to store its result. -/
theorem runFrom_handed (h : Ready jobs p job rest) (htime : exceeds jobs.limit duration = false) :
    runFrom jobs p (jobEvents jobs job duration) =
      runFrom jobs
        { begun p job duration with finished := job :: p.finished, phase := .storing [job] }
        (.advance :: List.replicate (jobs.count + 1) .advance) := by
  have hevents : jobEvents jobs job duration =
      [.pickUp job, .tick duration] ++
        .finish job :: .wake [job] :: .advance :: List.replicate (jobs.count + 1) .advance := by
    simp [jobEvents, htime, List.replicate_succ]
  have hfinish : step jobs (begun p job duration) (.finish job) =
      { begun p job duration with finished := job :: p.finished } := by
    rw [step, if_pos (h.isRunning_begun duration)]
    rfl
  have hwake :
      ({ begun p job duration with finished := job :: p.finished } : Pool ε α).canWake
        [job] = true := by
    rw [canWake_iff]
    exact ⟨h.waiting, List.nodup_singleton job, by simp [begun, h.pending]⟩
  rw [hevents, runFrom_append, h.runFrom_begin, runFrom_cons, hfinish, runFrom_cons,
    step, if_pos hwake]

theorem runFrom_in_time (h : Ready jobs p job rest) (hjob : job ∉ rest)
    (htime : exceeds jobs.limit duration = false) (ha : jobs.result job = .ok a) :
    ∃ seen, runFrom jobs p (jobEvents jobs job duration) =
      ({ ended p job duration rest a with seen } : Pool ε α).proceed := by
  have hstore :
      step jobs { begun p job duration with finished := job :: p.finished, phase := .storing [job] }
      .advance = { ended p job duration rest a with phase := .storing [] } := by
    simp [step, advance, ha, store, begun, ended, h.pending]
  rw [h.runFrom_handed htime, runFrom_cons, hstore]
  have hidle : ∀ i ∈ rest, (ended p job duration rest a).startOf? i = none :=
    fun i hi => h.idle_begun hjob duration hi
  exact ⟨_,
    runFrom_storing_nil (p := ended p job duration rest a) hidle (Nat.succ_lt_succ h.length_lt)⟩

theorem runFrom_failing {e : ε} (h : Ready jobs p job rest)
    (htime : exceeds jobs.limit duration = false) (he : jobs.result job = .error e) :
    (runFrom jobs p (jobEvents jobs job duration)).phase = .failed e := by
  rw [h.runFrom_handed htime, runFrom_cons]
  apply runFrom_failed
  simp [step, advance, he]

/-- A job that exceeds the limit is given up while it is running. -/
theorem runFrom_late (h : Ready jobs p job rest) (hjob : job ∉ rest)
    (htime : exceeds jobs.limit duration = true) :
    ∃ seen, runFrom jobs p (jobEvents jobs job duration) =
      ({ ended p job duration rest (jobs.late job) with seen } : Pool ε α).proceed := by
  obtain ⟨limit, hlimit, hlt⟩ : ∃ limit, jobs.limit = some limit ∧ limit < duration := by
    cases hl : jobs.limit with
    | none => simp [exceeds, hl] at htime
    | some limit => exact ⟨limit, rfl, by simpa [exceeds, hl] using htime⟩
  have hevents : jobEvents jobs job duration =
      [.pickUp job, .tick duration] ++ (.wake [] :: .advance :: .advance ::
        (List.replicate jobs.count .advance ++ [.finish job])) := by
    simp [jobEvents, htime, List.replicate_succ]
  -- The loop wakes up, looks at the clock and comes to the job first.
  have hwake : step jobs (begun p job duration) (.wake []) =
      { begun p job duration with phase := .storing [] } := by
    simp [step, canWake, begun, h.waiting]
  have hlook : step jobs { begun p job duration with phase := .storing [] } .advance =
      { begun p job duration with
        seen := p.clock + duration, phase := .checking (job :: rest) } := by
    simp [step, advance, hlimit, begun, h.pending]
  have hlate : ({ begun p job duration with
      seen := p.clock + duration
      phase := .checking (job :: rest) } : Pool ε α).isLate jobs job = true := by
    refine isLate_iff.mpr ⟨limit, p.clock, hlimit, ?_, ?_, h.unfinished⟩
    · simp [begun, startOf?]
    · exact Nat.add_le_add_left hlt.le p.clock
  let given : Pool ε α :=
    { begun p job duration with
      seen := p.clock + duration, pending := rest, outcomes := (job, jobs.late job) :: p.outcomes }
  have hstore : step jobs { begun p job duration with
      seen := p.clock + duration, phase := .checking (job :: rest) } .advance =
      { given with phase := .checking rest } := by
    simp only [step, advance, hlate, if_true]
    simp [store, begun, given, h.pending]
  have hidle : ∀ i ∈ rest, given.startOf? i = none := fun i hi => h.idle_begun hjob duration hi
  have hround :
      runFrom jobs { given with phase := .checking rest } (List.replicate jobs.count .advance) =
      given.proceed :=
    runFrom_checking (fun i hi => isLate_of_not_started (hidle i hi)) h.length_lt
  have hrunning : given.proceed.isRunning job = true := h.isRunning_begun duration
  refine ⟨p.clock + duration, ?_⟩
  rw [hevents, runFrom_append, h.runFrom_begin, runFrom_cons, hwake, runFrom_cons, hlook,
    runFrom_cons, hstore, runFrom_append, hround, runFrom_cons, step, if_pos hrunning]
  rfl

end Ready

/-! ## All turns -/

structure AfterTurns (jobs : Jobs ε α) (count : Nat) (results : List α) (p : Pool ε α) : Prop where
  pending : p.pending = List.range' count (jobs.count - count)
  length : results.length = count
  outcome : ∀ i < count, p.outcome? i = results[i]?
  started : ∀ i, (p.startOf? i).isSome ↔ i < count
  finished : ∀ i, i ∈ p.finished ↔ i < count
  settled : p.proceed = p

namespace AfterTurns

variable {count duration : Nat} {results : List α}

theorem hasRoom (h : AfterTurns jobs count results p) (hworkers : jobs.workers ≠ some 0) :
    p.hasRoom jobs = true := by
  unfold Pool.hasRoom
  cases hn : jobs.workers with
  | none => rfl
  | some n =>
      have hidle : (p.started.map (·.1)).filter p.isRunning = [] := by
        rw [List.filter_eq_nil_iff]
        intro i _ hrunning
        obtain ⟨hstarted, hunfinished⟩ := isRunning_iff.mp hrunning
        exact hunfinished ((h.finished i).mpr ((h.started i).mp hstarted))
      have hpos : n ≠ 0 := fun hzero => hworkers (by rw [hn, hzero])
      simp [hidle, Nat.pos_of_ne_zero hpos]

theorem pending_eq_cons (h : AfterTurns jobs count results p) (hlt : count < jobs.count) :
    p.pending = count :: List.range' (count + 1) (jobs.count - (count + 1)) := by
  have hsub : jobs.count - count = jobs.count - (count + 1) + 1 := by omega
  rw [h.pending, hsub, List.range'_succ]

theorem ready (h : AfterTurns jobs count results p) (hworkers : jobs.workers ≠ some 0)
    (hlt : count < jobs.count) :
    Ready jobs p count (List.range' (count + 1) (jobs.count - (count + 1))) where
  lt := hlt
  pending := h.pending_eq_cons hlt
  idle i hi := by
    have hle : count ≤ i := by
      simp only [List.mem_cons, List.mem_range'_1] at hi
      omega
    have hnot : ¬(p.startOf? i).isSome :=
      fun hstarted => absurd ((h.started i).mp hstarted) (by omega)
    exact Option.not_isSome_iff_eq_none.mp hnot
  unfinished hmem := Nat.lt_irrefl _ ((h.finished count).mp hmem)
  room := h.hasRoom hworkers
  waiting := by
    rw [← h.settled, proceed, h.pending_eq_cons hlt]
    rfl
  length_lt := by
    rw [List.length_range']
    omega

theorem next (h : AfterTurns jobs count results p) (duration seen : Nat) (a : α) :
    AfterTurns jobs (count + 1) (results ++ [a])
      ({ Ready.ended p count duration (List.range' (count + 1) (jobs.count - (count + 1))) a with
        seen } : Pool ε α).proceed where
  pending := rfl
  length := by rw [List.length_append, h.length]; rfl
  outcome i hi := by
    show ((count, a) :: p.outcomes).lookup i = _
    rcases Nat.lt_or_eq_of_le (Nat.le_of_lt_succ hi) with hlt | rfl
    · rw [lookup_cons_of_ne (by omega), List.getElem?_append_left (by rw [h.length]; exact hlt)]
      exact h.outcome i hlt
    · rw [List.lookup_cons_self, List.getElem?_append_right (by rw [h.length]),
        h.length, Nat.sub_self]
      rfl
  started i := by
    show (((count, p.clock) :: p.started).lookup i).isSome ↔ _
    by_cases hi : i = count
    · subst hi
      simp
    · rw [lookup_cons_of_ne hi]
      have hstarted := h.started i
      rw [startOf?] at hstarted
      rw [hstarted]
      omega
  finished i := by
    show i ∈ count :: p.finished ↔ _
    rw [List.mem_cons, h.finished i]
    omega
  settled := rfl

end AfterTurns

theorem afterTurns_start (jobs : Jobs ε α) : AfterTurns jobs 0 [] (start jobs) where
  pending := List.range_eq_range'
  length := rfl
  outcome i hi := absurd hi (Nat.not_lt_zero i)
  started i := by simp [start, proceed, startOf?]
  finished i := by simp [start, proceed]
  settled := rfl

def turns (jobs : Jobs ε α) (duration : Nat → Nat) (count : Nat) : List Event :=
  (List.range count).flatMap fun i => jobEvents jobs i (duration i)

theorem run_turns_succ (duration : Nat → Nat) (count : Nat) :
    run jobs (turns jobs duration (count + 1)) =
      runFrom jobs (run jobs (turns jobs duration count))
        (jobEvents jobs count (duration count)) := by
  rw [turns, List.range_succ, List.flatMap_append, run_append, List.flatMap_singleton]
  rfl

/-- After some turns, the results so far are stored, or the loop has failed with
the first failure. -/
theorem run_turns (hworkers : jobs.workers ≠ some 0) (duration : Nat → Nat) {count : Nat}
    (hcount : count ≤ jobs.count) :
    match (List.range count).mapM fun i => resultAfter jobs i (duration i) with
    | .ok results => AfterTurns jobs count results (run jobs (turns jobs duration count))
    | .error e => (run jobs (turns jobs duration count)).phase = .failed e := by
  induction count with
  | zero => exact afterTurns_start jobs
  | succ count ih =>
      have ih := ih (Nat.le_of_succ_le hcount)
      rw [run_turns_succ, List.range_succ, mapM_concat]
      cases hresults : (List.range count).mapM fun i => resultAfter jobs i (duration i) with
      | error e =>
          rw [hresults] at ih
          exact runFrom_failed ih _
      | ok results =>
          rw [hresults] at ih
          have hready := ih.ready hworkers hcount
          have hnew : count ∉ List.range' (count + 1) (jobs.count - (count + 1)) := by
            simp [List.mem_range'_1]
          cases htime : exceeds jobs.limit (duration count) with
          | true =>
              have hresult : resultAfter jobs count (duration count) = .ok (jobs.late count) := by
                simp [resultAfter, htime]
              obtain ⟨seen, hrun⟩ := hready.runFrom_late hnew htime
              rw [hrun, hresult]
              exact ih.next (duration count) seen (jobs.late count)
          | false =>
              have hresult : resultAfter jobs count (duration count) = jobs.result count := by
                simp [resultAfter, htime]
              rw [hresult]
              cases ha : jobs.result count with
              | error e => exact hready.runFrom_failing htime ha
              | ok a =>
                  obtain ⟨seen, hrun⟩ := hready.runFrom_in_time hnew htime ha
                  rw [hrun]
                  exact ih.next (duration count) seen a

/-- The run in which the jobs take their turns ends with the results of the jobs in their order, or
with the first failure among them. -/
theorem conclusion?_inTurn (hworkers : jobs.workers ≠ some 0) (duration : Nat → Nat) :
    (run jobs (inTurn jobs duration)).conclusion? jobs =
      some ((List.range jobs.count).mapM fun i => resultAfter jobs i (duration i)) := by
  have hturns := run_turns hworkers duration (Nat.le_refl jobs.count)
  change (run jobs (turns jobs duration jobs.count)).conclusion? jobs = _
  cases hresults : (List.range jobs.count).mapM fun i => resultAfter jobs i (duration i) with
  | error e =>
      rw [hresults] at hturns
      simp [conclusion?, show _ = Phase.failed e from hturns]
  | ok results =>
      rw [hresults] at hturns
      have hall : (run jobs (turns jobs duration jobs.count)).results? jobs = some results := by
        rw [results?_eq_some_iff]
        exact ⟨hturns.length, fun i hi => (hturns.outcome i hi).symm⟩
      have hcomplete : (run jobs (turns jobs duration jobs.count)).phase = .complete := by
        rw [← hturns.settled, proceed, hturns.pending, Nat.sub_self]
        rfl
      simp [conclusion?, hcomplete, hall]

end ImportAudit.Pool
