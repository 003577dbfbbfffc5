/-!
# A pool of workers

Numbered jobs are picked up and finished by workers, while one loop collects the results. The loop
waits until it is woken, with any of the jobs that have finished, and stores their results one by
one. If there is a limit, it then looks at the clock and goes through the jobs that are left: one
that was picked up too long ago and has not finished gets a result in its place. A trace of events
says in which order all this happens.
-/

namespace ImportAudit

structure Jobs (ε α : Type) where
  count : Nat
  result : Nat → Except ε α
  /-- What stands for a job that takes too long. -/
  late : Nat → α
  limit : Option Nat := none
  workers : Option Nat := none

inductive Phase (ε : Type)
  | waiting
  /-- The results of these finished jobs are to be stored. -/
  | storing (batch : List Nat)
  /-- These jobs are to be checked against the limit. -/
  | checking (rest : List Nat)
  | complete
  | failed (error : ε)
  /-- A result was to be stored for a job that is not pending, which breaks the loop. -/
  | broken (job : Nat)

structure Pool (ε α : Type) where
  clock : Nat := 0
  /-- The time at which the loop last looked at the clock. -/
  seen : Nat := 0
  started : List (Nat × Nat) := []
  finished : List Nat := []
  /-- Jobs without a stored result. -/
  pending : List Nat := []
  /-- Stored results, the newest first. -/
  outcomes : List (Nat × α) := []
  phase : Phase ε := .waiting

namespace Pool

inductive Event
  | tick (duration : Nat)
  | pickUp (job : Nat)
  | finish (job : Nat)
  /-- The loop wakes up, with some of the jobs that have finished or with none. -/
  | wake (batch : List Nat)
  | advance
  deriving DecidableEq, Repr

variable {ε α : Type}

def startOf? (p : Pool ε α) (job : Nat) : Option Nat :=
  p.started.lookup job

def outcome? (p : Pool ε α) (job : Nat) : Option α :=
  p.outcomes.lookup job

def stored (p : Pool ε α) : List Nat :=
  p.outcomes.map (·.1)

def isRunning (p : Pool ε α) (job : Nat) : Bool :=
  (p.startOf? job).isSome && !p.finished.contains job

def hasRoom (jobs : Jobs ε α) (p : Pool ε α) : Bool :=
  match jobs.workers with
  | some n => decide (((p.started.map (·.1)).filter p.isRunning).length < n)
  | none => true

/-- Whether a job was picked up at least as long ago as the limit, by the time last
seen, and has not finished. -/
def isLate (jobs : Jobs ε α) (p : Pool ε α) (job : Nat) : Bool :=
  match jobs.limit, p.startOf? job with
  | some limit, some time => decide (time + limit ≤ p.seen) && !p.finished.contains job
  | _, _ => false

/-- Whether the loop can be woken with some jobs: each of them is pending and has
finished, and none comes twice. -/
def canWake (p : Pool ε α) (batch : List Nat) : Bool :=
  match p.phase with
  | .waiting => decide batch.Nodup && batch.all fun i =>
    p.pending.contains i && p.finished.contains i
  | _ => false

/-- Start over, unless nothing is left to do. -/
def proceed (p : Pool ε α) : Pool ε α :=
  { p with phase := if p.pending.isEmpty then .complete else .waiting }

def store (p : Pool ε α) (job : Nat) (a : α) (next : Phase ε) : Pool ε α :=
  if p.pending.contains job then
    { p with pending := p.pending.erase job, outcomes := (job, a) :: p.outcomes, phase := next }
  else { p with phase := .broken job }

/-- The next step of the loop. While it waits, and once it has ended, it takes none. -/
def advance (jobs : Jobs ε α) (p : Pool ε α) : Pool ε α :=
  match p.phase with
  | .storing (i :: batch) =>
    match jobs.result i with
    | .ok a => p.store i a (.storing batch)
    | .error e => { p with phase := .failed e }
  | .storing [] =>
    match jobs.limit with
    | some _ => { p with seen := p.clock, phase := .checking p.pending }
    | none => p.proceed
  | .checking (i :: rest) =>
    if p.isLate jobs i then p.store i (jobs.late i) (.checking rest)
    else { p with phase := .checking rest }
  | .checking [] => p.proceed
  | _ => p

/-- One event. An event that cannot happen changes nothing. -/
def step (jobs : Jobs ε α) (p : Pool ε α) : Event → Pool ε α
  | .tick d => { p with clock := p.clock + d }
  | .pickUp i =>
    if i < jobs.count && (p.startOf? i).isNone && p.hasRoom jobs then
      { p with started := (i, p.clock) :: p.started }
    else p
  | .finish i => if p.isRunning i then { p with finished := i :: p.finished } else p
  | .wake batch => if p.canWake batch then { p with phase := .storing batch } else p
  | .advance => p.advance jobs

def start (jobs : Jobs ε α) : Pool ε α :=
  proceed { pending := List.range jobs.count }

def runFrom (jobs : Jobs ε α) (p : Pool ε α) (events : List Event) : Pool ε α :=
  events.foldl (step jobs) p

def run (jobs : Jobs ε α) (events : List Event) : Pool ε α :=
  runFrom jobs (start jobs) events

def results? (jobs : Jobs ε α) (p : Pool ε α) : Option (List α) :=
  (List.range jobs.count).mapM p.outcome?

/-- What a run has come to, once its loop has ended: all results, or a failure. -/
def conclusion? (jobs : Jobs ε α) (p : Pool ε α) : Option (Except ε (List α)) :=
  match p.phase with
  | .complete => (p.results? jobs).map .ok
  | .failed e => some (.error e)
  | _ => none

/-! ## One job after the other -/

def exceeds (limit : Option Nat) (duration : Nat) : Bool :=
  match limit with
  | some l => decide (l < duration)
  | none => false

/-- What happens to one job that takes a given time when nothing else is going on. -/
def jobEvents (jobs : Jobs ε α) (job duration : Nat) : List Event :=
  -- As many steps as the loop takes until it waits again, or more.
  let round := List.replicate (jobs.count + 2) .advance
  if exceeds jobs.limit duration then
    [.pickUp job, .tick duration, .wake []] ++ round ++ [.finish job]
  else [.pickUp job, .tick duration, .finish job, .wake [job]] ++ round

/-- The trace in which every job is over before the next is picked up. -/
def inTurn (jobs : Jobs ε α) (duration : Nat → Nat) : List Event :=
  (List.range jobs.count).flatMap fun i => jobEvents jobs i (duration i)

end Pool

end ImportAudit
