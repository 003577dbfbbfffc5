import ImportAudit.Analysis.Run
import ImportAudit.Settings

/-!
# The analysis of a source tree
-/

namespace ImportAudit

def resolvePath (fs : FileSystem) (p : Path) : Except Failure Path :=
  if p.hasNull then .error (.file .nullCharacter p.text)
  else (fs.resolve p).mapError Failure.circular

def discoverFiles (fs : FileSystem) (settings : AnalysisSettings) (root : Path) :
    Except Failure (List Path) := do
  let resolved ← resolvePath fs root
  let excluded ← Discovery.excludedOfValue settings.excludedDirectories
  let extensions := match settings.extensions with
    | .null => none
    | v => some v
  Discovery.discover fs resolved extensions (some excluded) (some "ImportUsageAnalyzer")

def analyzeRoot (settings : AnalysisSettings) (duration : Path → Nat) (root : Path) :
    Action Report := do
  let fs ← Action.files
  let paths ← Action.ofExcept (discoverFiles fs settings root)
  Action.log .info "importlens.analysis.aggregator"
    ("Found " ++ toString paths.length ++ " source file(s) under " ++ root.text)
  let resolved ← Action.ofExcept (resolvePath fs root)
  let report ← aggregate ⟨settings.workers, settings.timeout⟩ duration paths resolved
  Action.log .info "importlens.analysis.aggregator"
    ("Analysis complete: " ++ toString report.stats.analyzed ++ " file(s) analysed, "
      ++ toString report.stats.errors ++ " skipped")
  return report

end ImportAudit
