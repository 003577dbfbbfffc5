import ImportAudit.FileSystem
import ImportAudit.Value

/-!
# Failures

Everything that can go wrong, by cause. Each cause has a kind and a message. A failure of one
source file that comes from its content or from the file system can be recovered from: the
file is dropped from the report.
-/

namespace ImportAudit

inductive Kind
  -- Failures of the tool itself.
  | tool
  | parse
  | pathNotFound
  | directoryCreation
  | emptyDataset
  | export_
  | configuration
  -- Failures of the file system.
  | system
  | fileNotFound
  | fileExists
  | notDirectory
  | isDirectory
  | permission
  | timeout
  -- Failures of values.
  | value
  | decoding
  | encoding
  | type
  | member
  | key
  | overflow
  | other (name : String)
  deriving DecidableEq, Repr

namespace Kind

def name : Kind → String
  | tool => "ImportLensError"
  | parse => "ParseError"
  | pathNotFound => "PathNotFoundError"
  | directoryCreation => "DirectoryCreationError"
  | emptyDataset => "EmptyDatasetError"
  | export_ => "ExportError"
  | configuration => "ConfigurationError"
  | system => "OSError"
  | fileNotFound => "FileNotFoundError"
  | fileExists => "FileExistsError"
  | notDirectory => "NotADirectoryError"
  | isDirectory => "IsADirectoryError"
  | permission => "PermissionError"
  | timeout => "TimeoutError"
  | value => "ValueError"
  | decoding => "UnicodeDecodeError"
  | encoding => "UnicodeEncodeError"
  | type => "TypeError"
  | member => "AttributeError"
  | key => "KeyError"
  | overflow => "OverflowError"
  | other n => n

def named : List Kind :=
  [tool, parse, pathNotFound, directoryCreation, emptyDataset, export_, configuration, system,
    fileNotFound, fileExists, notDirectory, isDirectory, permission, timeout, value, decoding,
    encoding, type, member, key, overflow]

def ofName (name : String) : Kind :=
  (named.find? fun k => k.name == name).getD (other name)

def isTool : Kind → Bool
  | tool | parse | pathNotFound | directoryCreation | emptyDataset | export_ | configuration => true
  | _ => false

def isSystem : Kind → Bool
  | system | fileNotFound | fileExists | notDirectory | isDirectory | permission | timeout => true
  | _ => false

def isValue : Kind → Bool
  | value | decoding | encoding => true
  | _ => false

/-- Whether failures of this kind come of a value, but are neither reported by the tool nor failures
of files or of decoding. -/
def isUnforeseen : Kind → Bool
  | value | encoding | type | member | key | overflow | other _ => true
  | _ => false

/-- Whether a failure of this kind drops one source file and no more. -/
def isRecoverable (k : Kind) : Bool :=
  k == parse || k == decoding || k.isSystem

end Kind

inductive Failure
  | malformedSource (file : String) (line : Option Nat) (message : String)
  | pathNotFound (path : Path) (context : Option String)
  | directoryCreation (message : String)
  | emptyDataset (message : String)
  | export_ (message : String)
  | configuration (message : String)
  | file (fault : FileFault) (path : String)
  | move (fault : FileFault) (source target : String)
  | undecodable (fault : Text.DecodeFault)
  | unencodable (fault : Text.EncodeFault)
  | outside (path base : Path)
  | unnamed (path : Path)
  | invalidValue (message : String)
  | wrongType (message : String)
  | noAttribute (message : String)
  | missingKey (name : String)
  | overflow (message : String)
  | timeout (message : String)
  /-- A failure that is known by its kind and message alone. -/
  | reported (kind : Kind) (message : String)
  deriving DecidableEq, Repr

namespace FileFault

def kind : FileFault → Kind
  | notFound => .fileNotFound
  | denied => .permission
  | notDirectory => .notDirectory
  | isDirectory => .isDirectory
  | exists_ => .fileExists
  | nameTooLong => .system
  | circle => .system
  | nullCharacter => .value

def message (f : FileFault) (path : String) : String :=
  if f = nullCharacter then f.text
  else "[Errno " ++ toString f.code ++ "] " ++ f.text ++ ": " ++ Text.quoted path

end FileFault

namespace Failure

def kind : Failure → Kind
  | malformedSource .. => .parse
  | pathNotFound .. => .pathNotFound
  | directoryCreation _ => .directoryCreation
  | emptyDataset _ => .emptyDataset
  | export_ _ => .export_
  | configuration _ => .configuration
  | file f _ => f.kind
  | move f .. => f.kind
  | undecodable _ => .decoding
  | unencodable _ => .encoding
  | outside .. => .value
  | unnamed _ => .value
  | invalidValue _ => .value
  | wrongType _ => .type
  | noAttribute _ => .member
  | missingKey _ => .key
  | overflow _ => .overflow
  | timeout _ => .timeout
  | reported k _ => k

def line? : Failure → Option Nat
  | malformedSource _ line _ => line
  | _ => none

def message : Failure → String
  | malformedSource source line message =>
    match line with
    | some (n + 1) => source ++ ":" ++ toString (n + 1) ++ ": " ++ message
    | _ => source ++ ": " ++ message
  | pathNotFound path context =>
    (match context with
      | some c => if c == "" then "" else "[" ++ c ++ "] "
      | none => "") ++ "Path not found: " ++ path.text
  | directoryCreation m => m
  | emptyDataset m => m
  | export_ m => m
  | configuration m => m
  | file f path => f.message path
  | move f source target =>
    if f = .nullCharacter then f.text else f.message source ++ " -> " ++ Text.quoted target
  | undecodable f => f.message
  | unencodable f => f.message
  | outside path base =>
    Text.quoted path.text ++ " is not in the subpath of " ++ Text.quoted base.plainText
      ++ " OR one path is relative and the other is absolute."
  | unnamed path => path.shown ++ " has an empty name"
  | invalidValue m => m
  | wrongType m => m
  | noAttribute m => m
  | missingKey name => Text.quoted name
  | overflow m => m
  | timeout m => m
  | reported _ m => m

def notIterable (v : Value) : Failure :=
  .wrongType ("'" ++ v.typeName ++ "' object is not iterable")

def longNumber : Failure :=
  .invalidValue ("Exceeds the limit (" ++ toString Decimal.maxDigits
    ++ " digits) for integer string conversion; "
    ++ "use sys.set_int_max_str_digits() to increase the limit")

def circular (path : Path) : Failure :=
  .reported (.other "RuntimeError") ("Symlink loop from " ++ Text.quoted path.text)

def endless : Failure :=
  .reported (.other "RecursionError") "maximum recursion depth exceeded"

def lacks (v : Value) (what : String) : Failure :=
  .noAttribute ("'" ++ v.typeName ++ "' object has no attribute '" ++ what ++ "'")

end Failure

/-- The text of a value, if its numbers can be written and it can be encoded. -/
def Value.textOrFailure (v : Value) : Except Failure String :=
  match v with
  | .torn t => .error (.unencodable t.fault)
  | v => if v.isWritable then .ok v.text else .error Failure.longNumber

end ImportAudit
