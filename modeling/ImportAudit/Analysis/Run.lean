import ImportAudit.Analysis.File
import ImportAudit.Analysis.Pool

/-!
# The analysis of many files

The files are the jobs of a pool of workers. Rows and records are kept in the order of the files,
whatever the order in which the workers finish.
-/

namespace ImportAudit

namespace Double

/-- The units of time in a second. Every positive number of seconds is a whole
number of such units. -/
def unitsPerSecond : Nat := Nat.pow 2 1074

/-- A number of seconds in units; none if there is no end to it. Less than nothing is nothing. -/
def units? : Double → Option Nat
  | .finite negative m e =>
    let (p, q) := quotient m e
    some (if negative then 0 else p * unitsPerSecond / q)
  | .infinity negative => if negative then some 0 else none
  | .nan => none

end Double

namespace Value

def isAtMostZero (v : Value) : Except Failure Bool :=
  match v.number? with
  | some (.whole n) => .ok (decide (n ≤ 0))
  | some (.real x) => .ok (Double.le x Double.zero)
  | none =>
    .error (.wrongType ("'<=' not supported between instances of '" ++ v.typeName ++ "' and 'int'"))

def seconds (v : Value) : Except Failure Double :=
  match v.number? with
  | some (.whole n) =>
    match Double.ofInt n with
    | .infinity _ => .error (.overflow "int too large to convert to float")
    | x => .ok x
  | some (.real x) => .ok x
  | none =>
    .error (.wrongType ("unsupported operand type(s) for +: 'float' and '" ++ v.typeName ++ "'"))

end Value

/-- How an analysis is run. Values that no configuration check has seen may be of any type. -/
structure RunOptions where
  workers : Value := .null
  timeout : Value := .null

/-- The limits of a run, which are only looked at if there is a file. -/
def RunOptions.limit (o : RunOptions) : Except Failure (Option Nat) := do
  match o.workers with
  | .null => pure ()
  | v => if ← v.isAtMostZero then throw (.invalidValue "max_workers must be greater than 0")
  match o.timeout with
  | .null => return none
  | v => return (← v.seconds).units?

/-- How many workers there are, if that is limited. A part of a worker counts as a whole
one, and there is always one. -/
def RunOptions.workerCount (o : RunOptions) : Option Nat :=
  match o.workers.number? with
  | some (.whole n) => some (max 1 n.toNat)
  | some (.real (.finite _ m e)) =>
    let (p, q) := Double.quotient m e
    some (max 1 ((p + q - 1) / q))
  | _ => none

/-- The analysis of files as the jobs of a pool. `timeout` is how the limit is
written in messages. -/
def fileJobs (fs : FileSystem) (limit workers : Option Nat) (timeout : String) (paths : List Path)
    (root : Path) :
    Jobs Failure Outcome :=
  let path (i : Nat) : Path := paths.getD i {}
  { count := paths.length
    result := fun i => analyzeFile fs (path i) root
    late := fun i => lateOutcome timeout (path i)
    limit
    workers }

/-- How long it takes until a file has been dealt with. `duration` is how long the
analysis of a readable file takes. -/
def fileTime (fs : FileSystem) (duration : Path → Nat) (path : Path) : Nat :=
  if (readSource fs .utf8 path).isOk then duration path else 0

def outcomes (fs : FileSystem) (options : RunOptions) (duration : Path → Nat) (paths : List Path)
    (root : Path) :
    Except Failure (List Outcome) := do
  if paths.isEmpty then return []
  let limit ← options.limit
  let jobs := fileJobs fs limit options.workerCount options.timeout.text paths root
  let time (i : Nat) : Nat := fileTime fs duration (paths.getD i {})
  ((Pool.run jobs (Pool.inTurn jobs time)).conclusion? jobs).getD (.ok [])

def reportOf (root : Path) (outcomes : List Outcome) : Report :=
  let errors := outcomes.filterMap Outcome.record?
  let findings := outcomes.filterMap Outcome.findings?
  let (columns, rows) := Table.align (findings.map (·.row))
  { root, columns, rows, errors
    stats :=
      { scanned := outcomes.length
        analyzed := rows.length
        errors := errors.length
        used := findings.foldl (fun n f => n + f.verdict.used.length) 0
        unused := findings.foldl (fun n f => n + f.verdict.unused.length) 0 } }

def aggregate (options : RunOptions) (duration : Path → Nat) (paths : List Path) (root : Path) :
    Action Report := do
  let outcomes ← Action.ofExcept (outcomes (← Action.files) options duration paths root)
  for o in outcomes do
    for e in o.logEntries do
      Action.write e
  let report := reportOf root outcomes
  for r in report.errors do
    Action.write r.kept
  return report

end ImportAudit
