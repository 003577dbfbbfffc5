import ImportAudit.Analysis.Run
import ImportAudit.Proofs.Analysis.File
import ImportAudit.Proofs.Analysis.Pool

/-!
# Files analysed in any order

The files are the jobs of a pool. Whatever the order of events, no file is lost or
counted twice, the outcomes come in the order of the files, and a file is given up only
while its analysis is running and late.
-/

namespace ImportAudit

open Pool (Event)

section Jobs

variable {fs : FileSystem} {limit workers : Option Nat} {timeout : String} {paths : List Path}
  {root : Path} {p : Pool Failure Outcome} {i : Nat} {path : Path} {o : Outcome}

theorem fileJobs_result (hpath : paths[i]? = some path) :
    (fileJobs fs limit workers timeout paths root).result i = analyzeFile fs path root := by
  simp [fileJobs, List.getD_eq_getElem?_getD, hpath]

theorem fileJobs_late (hpath : paths[i]? = some path) :
    (fileJobs fs limit workers timeout paths root).late i = lateOutcome timeout path := by
  simp [fileJobs, List.getD_eq_getElem?_getD, hpath]

theorem fileJobs_of_finished (hs : p.Sound (fileJobs fs limit workers timeout paths root))
    (hi : i ∈ p.finished) :
    ∃ path ∈ paths, (fileJobs fs limit workers timeout paths root).result i =
      analyzeFile fs path root := by
  have hlt : i < paths.length := hs.lt_of_finished hi
  exact ⟨paths[i], List.getElem_mem hlt, fileJobs_result (List.getElem?_eq_getElem hlt)⟩

/-- The stored outcome of a file is that of its own analysis, or says that it took too long. -/
theorem fileJobs_outcome (hs : p.Sound (fileJobs fs limit workers timeout paths root))
    (hpath : paths[i]? = some path) (ho : p.outcome? i = some o) :
    analyzeFile fs path root = .ok o ∨ limit.isSome ∧ o = lateOutcome timeout path := by
  rcases hs.justified i o ho with ⟨-, hresult⟩ | ⟨l, time, hlimit, -, -, hlate⟩
  · rw [fileJobs_result hpath] at hresult
    exact .inl hresult
  · rw [fileJobs_late hpath] at hlate
    have hlimit' : limit = some l := hlimit
    exact .inr ⟨by rw [hlimit']; rfl, hlate⟩

theorem fileJobs_conclusion (hs : p.Sound (fileJobs fs limit workers timeout paths root))
    (hcomplete : p.phase = .complete) :
    ∃ os, p.conclusion? (fileJobs fs limit workers timeout paths root) = some (.ok os) ∧
      os.length = paths.length ∧ ∀ i < paths.length, os[i]? = p.outcome? i := by
  obtain ⟨os, hos⟩ := hs.exists_results hcomplete
  obtain ⟨hlength, hget⟩ := Pool.results?_eq_some_iff.mp hos
  refine ⟨os, ?_, hlength, hget⟩
  rw [Pool.conclusion?, hcomplete]
  simp [hos]

end Jobs

/-- In every state of every run each file is either pending or has one outcome, which stays. The
loop takes out only pending files and fails only with the failure of an analysis. When it ends, the
outcomes are listed in the order of the files, each that of the file in its place; without a limit
they are what analysing one file after the other gives. -/
theorem files_kept_by_every_interleaving (fs : FileSystem) (limit workers : Option Nat)
    (timeout : String) (paths : List Path) (root : Path) (events : List Event) :
    let jobs := fileJobs fs limit workers timeout paths root
    let p := Pool.run jobs events
    (p.pending.Nodup ∧ p.stored.Nodup ∧ p.pending.Disjoint p.stored ∧
      ∀ i, i ∈ p.pending ∨ i ∈ p.stored ↔ i < paths.length) ∧
    (∀ more i o, p.outcome? i = some o → (Pool.run jobs (events ++ more)).outcome? i = some o) ∧
    (∀ i, p.phase ≠ .broken i) ∧
    (∀ f, p.phase = .failed f → ∃ path ∈ paths, analyzeFile fs path root = .error f) ∧
    (p.phase = .complete → ∃ os, p.conclusion? jobs = some (.ok os) ∧
      List.Forall₂ (fun path o => analyzeFile fs path root = .ok o ∨
        limit.isSome ∧ o = lateOutcome timeout path) paths os ∧
      (limit = none → paths.map (analyzeFile fs · root) = os.map .ok)) := by
  intro jobs p
  have hs : p.Sound jobs := Pool.run_sound jobs events
  refine ⟨⟨hs.nodup.of_append_left, hs.nodup.of_append_right, hs.disjoint, fun i =>
    hs.mem_pending_or_stored⟩, ?_, ?_, ?_, ?_⟩
  · intro more i o ho
    rw [Pool.run_append]
    exact Pool.runFrom_outcome? hs ho more
  · intro i hbroken
    exact hs.phase_at hbroken
  · intro f hfailed
    obtain ⟨i, hi, hf⟩ := hs.phase_at hfailed
    obtain ⟨path, hpath, hresult⟩ := fileJobs_of_finished hs hi
    exact ⟨path, hpath, hresult.symm.trans hf⟩
  · intro hcomplete
    obtain ⟨os, hos, hlength, hget⟩ := fileJobs_conclusion hs hcomplete
    have hall : List.Forall₂ (fun path o => analyzeFile fs path root = .ok o ∨
        limit.isSome ∧ o = lateOutcome timeout path) paths os := by
      rw [List.forall₂_iff_get]
      refine ⟨hlength.symm, fun i hi hi' => ?_⟩
      have hpath : paths[i]? = some paths[i] := List.getElem?_eq_getElem hi
      have ho : p.outcome? i = some os[i] := by
        rw [← hget i hi, List.getElem?_eq_getElem hi']
      exact fileJobs_outcome hs hpath ho
    refine ⟨os, hos, hall, fun hnone => ?_⟩
    rw [← List.forall₂_eq_eq_eq, List.forall₂_map_left_iff, List.forall₂_map_right_iff]
    refine hall.imp fun path o ho => ho.resolve_right ?_
    simp [hnone]

/-- A path that comes twice, with the later of its jobs picked up, finished and stored first. -/
theorem files_kept_in_reverse :
    let fs : FileSystem := { entries := [(["A.java"], .file (.bytes []))] }
    let path : Path := { root := "/", parts := ["A.java"] }
    let root : Path := { root := "/" }
    let jobs := fileJobs fs none (some 2) "None" [path, path] root
    let events : List Event :=
      [.pickUp 1, .pickUp 0, .finish 1, .wake [1], .advance, .advance, .finish 0, .wake [0],
      .advance, .advance]
    (Pool.run jobs events).phase = .complete ∧ ∃ os,
      (Pool.run jobs events).conclusion? jobs = some (.ok os) ∧
      [path, path].map (analyzeFile fs · root) = os.map .ok := by
  intro fs path root jobs events
  have hphase : (Pool.run jobs events).phase = .complete := by
    dsimp only [jobs, events, fs, path, root]
    rfl
  obtain ⟨-, -, -, -, hcomplete⟩ :=
    files_kept_by_every_interleaving fs none (some 2) "None" [path, path] root events
  obtain ⟨os, hos, -, hown⟩ := hcomplete hphase
  exact ⟨hphase, os, hos, hown rfl⟩

/-- A file is recorded as too slow only in a state in which a worker has taken it up, the
limit has passed since then, and its analysis is still running. So a file in the queue is
never given up, and one whose analysis ends within the limit keeps its outcome, however late
the loop comes to look at it. -/
theorem timeout_only_while_running_late (fs : FileSystem) (limit : Nat) (workers : Option Nat)
    (timeout : String) (paths : List Path) (root : Path) (events : List Event) :
    let jobs := fileJobs fs (some limit) workers timeout paths root
    let p := Pool.run jobs events
    (∀ e i o, p.outcome? i = none →
      (Pool.run jobs (events ++ [e])).outcome? i = some o → o.IsTimeout →
      ∃ time, p.startOf? i = some time ∧ time + limit ≤ p.clock ∧ i ∉ p.finished) ∧
    (∀ i, p.startOf? i = none → p.outcome? i = none) ∧
    (∀ i path time, paths[i]? = some path → p.startOf? i = some time → i ∉ p.finished →
      p.clock < time + limit → ∀ more,
      let q := Pool.run jobs (events ++ .finish i :: more)
      (∀ o, q.outcome? i = some o → analyzeFile fs path root = .ok o) ∧
      (q.phase = .complete → ∃ os o, q.conclusion? jobs = some (.ok os) ∧ os[i]? = some o ∧
        analyzeFile fs path root = .ok o)) := by
  intro jobs p
  have hs : p.Sound jobs := Pool.run_sound jobs events
  refine ⟨?_, ?_, ?_⟩
  · intro e i o hnone hsome htimeout
    rw [Pool.run_concat] at hsome
    rcases Pool.step_outcome? hs hnone hsome with ⟨hfinished, hresult⟩ | ⟨hlate, -⟩
    · -- The outcome of an analysis never says that it took too long.
      obtain ⟨path, -, hown⟩ := fileJobs_of_finished hs hfinished
      exact absurd htimeout (analyzeFile_not_isTimeout (hown.symm.trans hresult))
    · obtain ⟨l, time, hl, htime, hle, hrunning⟩ := Pool.isLate_iff.mp hlate
      have hlimit : limit = l := Option.some.inj hl
      have hseen := hs.seen_le
      exact ⟨time, htime, by omega, hrunning⟩
  · intro i hstart
    cases ho : p.outcome? i with
    | none => rfl
    | some o =>
        rcases hs.justified i o ho with ⟨hfinished, -⟩ | ⟨_, time, -, htime, -, -⟩
        · have hstarted := hs.finished_started i hfinished
          simp [hstart] at hstarted
        · simp [hstart] at htime
  · intro i path time hpath htime hrunning hearly more q
    have hearly' : ∀ l, jobs.limit = some l → p.clock < time + l := by
      intro l hl
      have hlimit : limit = l := Option.some.inj hl
      omega
    have hown : ∀ o, q.outcome? i = some o → analyzeFile fs path root = .ok o := by
      intro o ho
      rw [← fileJobs_result hpath]
      refine Pool.runFrom_finish_in_time hs htime hrunning hearly' more ?_
      rw [← Pool.run_append]
      exact ho
    refine ⟨hown, fun hcomplete => ?_⟩
    have hlt : i < paths.length := hs.started_lt i (by rw [htime]; rfl)
    obtain ⟨os, hos, hlength, hget⟩ := fileJobs_conclusion (Pool.run_sound jobs _) hcomplete
    have hi : os[i]? = some os[i] := List.getElem?_eq_getElem (hlength.symm ▸ hlt)
    exact ⟨os, os[i], hos, hi, hown _ ((hget i hlt).symm.trans hi)⟩

/-- Of two files and one worker, the one at work is given up when the limit has passed. -/
theorem timeout_of_running_file :
    let path : Path := { root := "/", parts := ["A.java"] }
    let jobs := fileJobs {} (some 5) (some 1) "5.0" [path, path] {}
    let events : List Event := [.tick 2, .pickUp 0, .pickUp 1, .tick 5, .wake [], .advance]
    let p := Pool.run jobs events
    (Pool.run jobs (events ++ [.advance])).outcome? 0 = some (lateOutcome "5.0" path) ∧
      ∃ time, p.startOf? 0 = some time ∧ time + 5 ≤ p.clock ∧ 0 ∉ p.finished := by
  intro path jobs events p
  have hlate :
      (Pool.run jobs (events ++ [.advance])).outcome? 0 = some (lateOutcome "5.0" path) := by
    dsimp only [jobs, events, path]
    rfl
  have hnone : p.outcome? 0 = none := by
    dsimp only [p, jobs, events, path]
    rfl
  obtain ⟨hrecorded, -, -⟩ :=
    timeout_only_while_running_late {} 5 (some 1) "5.0" [path, path] {} events
  exact ⟨hlate, hrecorded .advance 0 _ hnone hlate (isTimeout_lateOutcome _ _)⟩

end ImportAudit
