import ImportAudit.Analysis.Record
import ImportAudit.Discovery
import ImportAudit.Import.Verdict
import ImportAudit.Java.Parse
import ImportAudit.Java.References

/-!
# The analysis of one file

A file is read, parsed, and its imports are judged. A file that cannot be read or parsed yields a
record in place of a row.
-/

namespace ImportAudit

def readSource (fs : FileSystem) (encoding : Text.Encoding) (path : Path) : Except Failure String :=
  match fs.read path with
  | .error f => .error (.file f path.text)
  | .ok (.workbook _) => .error (.undecodable ⟨encoding, 0, [], .invalidStart⟩)
  | .ok (.bytes bs) => (Text.decode encoding bs).mapError .undecodable

/-- The tree of the bytes of a source in UTF-8, which have to fit the grammar. The
file name is for the message. -/
def parseBytes (file : String) (bs : List UInt8) : Except Failure Java.Tree := do
  let source ← (Text.decode .utf8 bs).mapError .undecodable
  let tree := Java.parse source
  match tree.firstFaultLine? with
  | some line => .error (.malformedSource file (some line) "malformed Java source")
  | none => .ok tree

/-- The tree of a source text: the parser is handed its bytes. -/
def parseSource (file source : String) : Except Failure Java.Tree :=
  parseBytes file (Text.encodeUtf8 source)

structure Findings where
  row : Row
  usage : UsageIndex
  verdict : Verdict

structure Outcome where
  path : Path
  result : Except ErrorRecord Findings

def Outcome.record? (o : Outcome) : Option ErrorRecord :=
  match o.result with
  | .error r => some r
  | .ok _ => none

def Outcome.findings? (o : Outcome) : Option Findings :=
  match o.result with
  | .error _ => none
  | .ok f => some f

def fileRow (depths : List (String × String)) (v : Verdict) : Row :=
  Row.ofCells ((depths ++ v.cells).map fun (c, s) => (c, Value.str s))

/-- Analyse a file. Only failures that cannot be recovered from pass through. -/
def analyzeFile (fs : FileSystem) (path root : Path) : Except Failure Outcome := do
  match ← recover Kind.isRecoverable .read path (readSource fs .utf8 path) with
  | .error r => return ⟨path, .error r⟩
  | .ok source =>
    match ← recover Kind.isRecoverable .parse path (parseSource path.text source) with
    | .error r => return ⟨path, .error r⟩
    | .ok tree =>
      let usage := UsageIndex.ofReferences tree.references
      let verdict := Verdict.classify tree.imports usage
      let depths ← pathDepths path root
      return ⟨path, .ok ⟨fileRow depths verdict, usage, verdict⟩⟩

/-- The outcome of a file whose analysis takes longer than the limit, which
counts as a failure to parse it. -/
def lateOutcome (limit : String) (path : Path) : Outcome :=
  ⟨path,
    .error (ErrorRecord.ofFailure .parse path (.timeout ("analysis exceeded " ++ limit ++ "s")))⟩

def Outcome.logEntries (o : Outcome) : List LogEntry :=
  match o.result with
  | .error r =>
    if r.kind = .timeout then
      [⟨.warning, "importlens.analysis.aggregator",
        "Skipping " ++ o.path.text ++ ": " ++ r.message⟩]
    else [r.warning]
  | .ok ⟨_, u, v⟩ =>
    [⟨.debug, "importlens.analysis.parsing", "Parsed " ++ o.path.text⟩,
      ⟨.debug, "importlens.analysis.identifier_collector",
        "Collected " ++ toString u.identifiers.length ++ " names, " ++
          toString u.types.length ++ " types, "
          ++ toString u.annotations.length ++ " annotations, " ++ toString u.callables.length ++
            " static callables"⟩,
      ⟨.debug, "importlens.analysis.aggregator",
        o.path.text ++ ": " ++ toString v.used.length ++ " used, " ++
          toString v.unused.length ++ " unused"⟩]

end ImportAudit
