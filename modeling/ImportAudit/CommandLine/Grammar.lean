import ImportAudit.Settings.Check

/-!
# The commands and their options

Every command has options, and either an argument of its own or commands below it.
-/

namespace ImportAudit.CommandLine

inductive Command
  | top
  | analyze
  | config
  | showConfig
  | initConfig
  deriving DecidableEq, Repr

inductive Topic
  | help
  | version
  | configFile
  | verbose
  | plain
  | extensions
  | format
  | output
  | outputDirectory
  | title
  | workers
  | timeout
  | noExport
  | summary
  deriving DecidableEq, Repr

inductive Arity
  | none
  | one
  | some
  deriving DecidableEq, Repr

structure CommandOption where
  topic : Topic
  /-- The spellings of the option, the first being the one in the usage. -/
  names : List String
  arity : Arity := .none
  placeholder : String := ""
  /-- The values that are admitted; all of them if there are none here. -/
  choices : List String := []
  help : String
  deriving DecidableEq, Repr

def choiceText (choices : List String) : String :=
  "\x7b" ++ ",".intercalate choices ++ "\x7d"

inductive Operand
  | nothing
  | path (name help : String)
  /-- One of the commands below; it may be left out unless `required` says otherwise. -/
  | command (name help : String) (required : Bool) (commands : List (Command × String))

namespace Command

def word : Command → String
  | top => "importlens"
  | analyze => "analyze"
  | config => "config"
  | showConfig => "show"
  | initConfig => "init"

def program : Command → String
  | top => "importlens"
  | analyze => "importlens analyze"
  | config => "importlens config"
  | showConfig => "importlens config show"
  | initConfig => "importlens config init"

def helpOption : CommandOption :=
  { topic := .help, names := ["-h", "--help"], help := "show this help message and exit" }

def options : Command → List CommandOption
  | top =>
    [helpOption,
      { topic := .configFile, names := ["--config", "-c"], arity := .one, placeholder := "CONFIG"
        help := "Path to configuration file" },
      { topic := .verbose, names := ["--verbose", "-v"],
        help := "Enable verbose output and debug logging" },
      { topic := .plain, names := ["--no-rich"],
        help := "Disable rich terminal output (use plain text)" },
      { topic := .version, names := ["--version"],
        help := "show program's version number and exit" }]
  | analyze =>
    [helpOption,
      { topic := .extensions, names := ["--ext"], arity := .some, placeholder := "EXT"
        help := "File extensions to analyse (default: java)" },
      { topic := .format, names := ["--format"], arity := .one,
        placeholder := choiceText Settings.formats
        choices := Settings.formats, help := "Report format (default: xlsx)" },
      { topic := .output, names := ["--output", "-o"], arity := .one, placeholder := "OUTPUT"
        help := "Report file path (default: timestamped file in the output directory)" },
      { topic := .outputDirectory, names := ["--output-dir"], arity := .one,
        placeholder := "OUTPUT_DIR"
        help := "Directory for timestamped reports" },
      { topic := .title, names := ["--title"], arity := .one, placeholder := "TITLE"
        help := "Title shown in the report" },
      { topic := .workers, names := ["--workers"], arity := .one, placeholder := "WORKERS"
        help := "Number of worker threads (default: automatic)" },
      { topic := .timeout, names := ["--timeout"], arity := .one, placeholder := "TIMEOUT"
        help := "Per-file analysis timeout in seconds" },
      { topic := .noExport, names := ["--no-export"],
        help := "Print the summary only, write no report" },
      { topic := .summary, names := ["--summary"], arity := .one, placeholder := "FILE"
        help := "Also save the full result (rows, skipped files, statistics) as JSON" }]
  | config => [helpOption]
  | showConfig => [helpOption]
  | initConfig =>
    [helpOption,
      { topic := .output, names := ["--output", "-o"], arity := .one, placeholder := "OUTPUT"
        help := "Where to write the file (default: importlens.yaml)" },
      { topic := .format, names := ["--format"], arity := .one,
        placeholder := choiceText ["json", "yaml"]
        choices := ["json", "yaml"], help := "File format (default: yaml)" }]

def operand : Command → Operand
  | top =>
    .command "command" "Available commands" false
      [(analyze, "Classify the imports of every source file under a path"),
        (config, "Configuration management")]
  | analyze => .path "path" "Source root directory or single file"
  | config =>
    .command "config_action" "" true
      [(showConfig, "Show the effective configuration"),
        (initConfig, "Write the default configuration")]
  | showConfig => .nothing
  | initConfig => .nothing

def description : Command → String
  | top => "importlens - find declared-but-unused imports in Java source trees"
  | _ => ""

def closing : Command → String
  | top => "Use \"importlens <command> --help\" for detailed command help."
  | _ => ""

end Command

def CommandOption.values (o : CommandOption) : String :=
  match o.arity with
  | .none => ""
  | .one => " " ++ o.placeholder
  | .some => " " ++ o.placeholder ++ " [" ++ o.placeholder ++ " ...]"

end ImportAudit.CommandLine
