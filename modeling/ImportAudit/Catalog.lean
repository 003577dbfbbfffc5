import ImportAudit.Failure

/-!
# Public names

The names that the tool offers to programs, and where each is defined.
-/

namespace ImportAudit.Catalog

def version : String := "0.1.0"

def analysisNames : List (String × String) :=
  [("ImportUsageAnalyzer", "importlens.analysis.aggregator"),
    ("ResultAggregator", "importlens.analysis.aggregator"),
    ("IdentifierCollector", "importlens.analysis.identifier_collector"),
    ("ImportClassifier", "importlens.analysis.import_classifier"),
    ("JavaSourceParser", "importlens.analysis.parsing"),
    ("path_depths", "importlens.analysis.path_depth")]

def toolNames : List (String × String) :=
  [("ImportUsageAnalyzer", "importlens.analysis.aggregator"),
    ("ResultAggregator", "importlens.analysis.aggregator"),
    ("ImportLensConfig", "importlens.config"), ("load_config", "importlens.config"),
    ("ResultWriter", "importlens.export.base"),
    ("XlsxResultWriter", "importlens.export.xlsx_writer"),
    ("JsonResultWriter", "importlens.export.json_writer"), ("get_writer", "importlens.export")]

def texts (part : String) : List (String × String) :=
  [("__name__", part), ("__package__", part)] ++ if part ==
    "importlens" then [("__version__", version)] else []

/-- What a name of a part stands for: a text, or the full name of what it refers to. -/
def resolve (part name : String) : Except Failure String :=
  let names := if part == "importlens" then toolNames else analysisNames
  match (texts part).lookup name, names.lookup name with
  | some text, _ => .ok text
  | none, some place => .ok (place ++ "." ++ name)
  | none, none =>
    let shown := if part == "importlens" then "'" ++ name ++ "'" else Text.quoted name
    .error (.noAttribute ("module '" ++ part ++ "' has no attribute " ++ shown))

def analysisListing : List String :=
  (analysisNames.map (·.1)).mergeSort fun a b => decide (a ≤ b)

end ImportAudit.Catalog
