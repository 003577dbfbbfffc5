import ImportAudit.Catalog
import ImportAudit.CommandLine.Help
import ImportAudit.Decimal.Read
import ImportAudit.Text.Digit

/-!
# Reading a command line

Words that start with a dash are options, which can be shortened as long as they are
clear, and the others are values or operands. After two dashes no word is an option. A
command reads all words after it.
-/

namespace ImportAudit.CommandLine

structure Arguments where
  command : Command := .top
  configFile : Option String := none
  verbose : Bool := false
  plain : Bool := false
  path : String := ""
  extensions : List String := []
  format : Option String := none
  output : Option String := none
  outputDirectory : Option String := none
  title : Option String := none
  workers : Option Int := none
  timeout : Option Double := none
  noExport : Bool := false
  summary : Option String := none
  deriving Repr

/-- Why a command line is not carried out: with an exit code, and what is
printed to either channel. -/
structure Stop where
  code : Nat
  output : String := ""
  errors : String := ""
  deriving DecidableEq, Repr

structure Reader where
  width : Nat

namespace Reader

def error {α : Type} (r : Reader) (c : Command) (message : String) : Except Stop α :=
  .error { code := 2, errors := usage r.width c ++ c.program ++ ": error: " ++ message ++ "\n" }

def optionError {α : Type} (r : Reader) (c : Command) (o : CommandOption) (message : String) :
    Except Stop α :=
  r.error c ("argument " ++ "/".intercalate o.names ++ ": " ++ message)

def badChoice (value : String) (choices : List String) : String :=
  "invalid choice: " ++ Text.quoted value ++ " (choose from " ++
    ", ".intercalate (choices.map Text.quoted) ++ ")"

/-! ## Words -/

/-- A value that is written in one word with its option, and whether an equals
sign stands between them. -/
structure Attached where
  afterEquals : Bool
  value : String

structure Match where
  option : CommandOption
  name : String
  attached : Option Attached := none

inductive Shape
  | value
  | dashes
  /-- An option, or a word that looks like one but is none of this command. -/
  | option (found : Option Match)

def spellings (c : Command) : List (String × CommandOption) :=
  c.options.flatMap fun o => o.names.map fun n => (n, o)

def startsWith (start s : String) : Bool :=
  start.toList.isPrefixOf s.toList

def splitEquals (word : String) : Option (String × String) :=
  if word.toList.contains '=' then
    some (String.ofList (word.toList.takeWhile (· != '=')),
      String.ofList ((word.toList.dropWhile (· != '=')).drop 1))
  else none

/-- The options that a word can be short for. -/
def candidates (c : Command) (word : String) : List Match :=
  match word.toList with
  | '-' :: '-' :: _ =>
    let (start, attached) := match splitEquals word with
      | some (start, value) => (start, some ⟨true, value⟩)
      | none => (word, none)
    (spellings c).filterMap fun (name, o) =>
      if startsWith start name then some ⟨o, name, attached⟩ else none
  | a :: b :: rest =>
    (spellings c).filterMap fun (name, o) =>
      if name == String.ofList [a, b] then some ⟨o, name, some ⟨false, String.ofList rest⟩⟩
      else if startsWith word name then some ⟨o, name, none⟩
      else none
  | _ => []

def isNegativeNumber (word : String) : Bool :=
  let isDigit (c : Char) : Bool := (Text.digitValue? c).isSome
  match word.toList with
  | '-' :: cs =>
    let rest := cs.dropWhile isDigit
    match rest with
    | [] => !cs.isEmpty
    | '.' :: ds => !ds.isEmpty && ds.all isDigit
    | _ => false
  | _ => false

def shapeOf (r : Reader) (c : Command) (word : String) : Except Stop Shape :=
  match word.toList with
  | '-' :: rest =>
    match (spellings c).lookup word with
    | some o => .ok (.option (some ⟨o, word, none⟩))
    | none =>
      if rest.isEmpty then .ok .value
      else
        let exact := (splitEquals word).bind fun (name, value) =>
          ((spellings c).lookup name).map fun o => Match.mk o name (some ⟨true, value⟩)
        match exact with
        | some m => .ok (.option (some m))
        | none =>
          match candidates c word with
          | [m] => .ok (.option (some m))
          | [] => .ok (if isNegativeNumber word || rest.contains ' ' then .value else .option none)
          | ms =>
            let names := ", ".intercalate (ms.map (·.name))
            r.error c ("ambiguous option: " ++ word ++ " could match " ++ names)
  | _ => .ok .value

def shapes (r : Reader) (c : Command) : List String → Except Stop (List (String × Shape))
  | [] => .ok []
  | w :: ws =>
    if w == "--" then .ok ((w, .dashes) :: ws.map fun w => (w, .value))
    else do
      let s ← r.shapeOf c w
      return (w, s) :: (← shapes r c ws)

/-! ## Options -/

def checked (r : Reader) (c : Command) (o : CommandOption) (value : String) : Except Stop String :=
  if o.choices.isEmpty || o.choices.contains value then .ok value
  else r.optionError c o (badChoice value o.choices)

def apply (r : Reader) (c : Command) (a : Arguments) (o : CommandOption) (values : List String) :
    Except Stop Arguments := do
  let value := values.headD ""
  match o.topic with
  | .help => throw { code := 0, output := help r.width c }
  | .version =>
    let lines := filled (max r.width 11) (c.program ++ " " ++ Catalog.version)
    throw { code := 0, output := "\n".intercalate lines ++ "\n" }
  | .configFile => return { a with configFile := some value }
  | .verbose => return { a with verbose := true }
  | .plain => return { a with plain := true }
  | .extensions => return { a with extensions := values }
  | .format => return { a with format := some (← r.checked c o value) }
  | .output => return { a with output := some value }
  | .outputDirectory => return { a with outputDirectory := some value }
  | .title => return { a with title := some value }
  | .workers =>
    match Decimal.readInt value with
    | some n => return { a with workers := some n }
    | none => r.optionError c o ("invalid int value: " ++ Text.quoted value)
  | .timeout =>
    match Decimal.readDouble value with
    | some x => return { a with timeout := some x }
    | none => r.optionError c o ("invalid float value: " ++ Text.quoted value)
  | .noExport => return { a with noExport := true }
  | .summary => return { a with summary := some value }

def leadingValues : List (String × Shape) → List String
  | (w, .value) :: ws => w :: leadingValues ws
  | _ => []

def following (r : Reader) (c : Command) (o : CommandOption) (rest : List (String × Shape)) :
    Except Stop (List String) :=
  match o.arity, leadingValues rest with
  | .none, _ => .ok []
  | .one, v :: _ => .ok [v]
  | .one, [] => r.optionError c o "expected one argument"
  | .some, [] => r.optionError c o "expected at least one argument"
  | .some, vs => .ok vs

/-- What one word with options comes to: options with their values in order, the words taken after
it, and what is left of it that no option is. -/
structure Use where
  options : List (CommandOption × List String)
  taken : Nat := 0
  left : List String := []

def attachedValue (r : Reader) (c : Command) (o : CommandOption) (value : List Char) :
    Except Stop Use :=
  if o.arity = .none then
    r.optionError c o ("ignored explicit argument " ++ Text.quoted (String.ofList value))
  else .ok { options := [(o, [String.ofList value])] }

/-- The options in a word, of which `letters` are left. An option with one dash that takes no value
can be followed by others in the same word. -/
def expand (r : Reader) (c : Command) (rest : List (String × Shape)) (o : CommandOption)
    (name : String) :
    List Char → Except Stop Use
  | [] => do
    let values ← r.following c o rest
    return { options := [(o, values)], taken := values.length }
  | l :: letters =>
    if o.arity ≠ .none || startsWith "--" name || l == '-' then r.attachedValue c o (l :: letters)
    else
      let next := String.ofList ['-', l]
      match (spellings c).lookup next with
      | none => .ok { options := [(o, [])], left := [String.ofList ('-' :: l :: letters)] }
      | some o' => do
        let use ← match letters with
          | '=' :: value => r.attachedValue c o' value
          | _ => expand r c rest o' next letters
        return { use with options := (o, []) :: use.options }

def useOf (r : Reader) (c : Command) (m : Match) (rest : List (String × Shape)) : Except Stop Use :=
  match m.attached with
  | none => r.expand c rest m.option m.name []
  | some ⟨true, value⟩ => r.attachedValue c m.option value.toList
  | some ⟨false, value⟩ => r.expand c rest m.option m.name value.toList

def applyAll (r : Reader) (c : Command) (a : Arguments)
    (options : List (CommandOption × List String)) :
    Except Stop Arguments :=
  options.foldlM (fun a (o, values) => r.apply c a o values) a

/-! ## Commands -/

structure Progress where
  arguments : Arguments
  operandRead : Bool := false
  extras : List String := []

def isOption : Shape → Bool
  | .option _ => true
  | _ => false

def below? (c : Command) (word : String) : Option Command :=
  match c.operand with
  | .command _ _ _ commands => (commands.find? fun x => x.1.word == word).map (·.1)
  | _ => none

/-- What an operand takes from the start of the words that are left: a path one value, with two
dashes before or after it, and a command all of them. -/
def operandWords (c : Command) (words : List (String × Shape)) : Nat :=
  match c.operand with
  | .nothing => 0
  | .path .. =>
    match words with
    | (_, .dashes) :: (_, .value) :: _ => 2
    | (_, .value) :: (_, .dashes) :: _ => 2
    | (_, .value) :: _ => 1
    | _ => 0
  | .command .. =>
    match words with
    | (_, .dashes) :: (_, .value) :: _ => words.length
    | (_, .value) :: _ => words.length
    | _ => 0

/-- The path among the words of an operand: two dashes before or after it do not count. -/
def pathOf (words : List String) : String :=
  (words.erase "--").headD "--"

mutual

def readOperand (r : Reader) (fuel : Nat) (c : Command) (p : Progress)
    (words : List (String × Shape)) :
    Except Stop (Progress × Nat) :=
  match fuel with
  | 0 => .ok (p, 0)
  | fuel + 1 =>
    let count := if p.operandRead then 0 else operandWords c words
    let taken := (words.take count).map (·.1)
    match c.operand, taken with
    | _, [] => .ok (p, 0)
    | .path .., _ => .ok ({ p with operandRead := true, arguments.path := pathOf taken }, count)
    | .command name _ _ commands, w :: ws =>
      match below? c w with
      | none =>
        r.error c ("argument " ++ name ++ ": " ++ badChoice w (commands.map fun x => x.1.word))
      | some next => do
        let q ← readCommand r fuel next p.arguments ws
        return ({ p with
          operandRead := true, arguments := q.arguments, extras := p.extras ++ q.extras }, count)
    | .nothing, _ => .ok (p, 0)

def readOptions (r : Reader) (fuel : Nat) (c : Command) (p : Progress)
    (words : List (String × Shape)) :
    Except Stop (Progress × List (String × Shape)) :=
  match fuel with
  | 0 => .ok (p, words)
  | fuel + 1 =>
    if !words.any fun w => isOption w.2 then .ok (p, words)
    else
      match words with
      | (w, .option none) :: rest => readOptions r fuel c { p with extras := p.extras ++ [w] } rest
      | (_, .option (some m)) :: rest => do
        let use ← r.useOf c m rest
        let a ← r.applyAll c p.arguments use.options
        readOptions r fuel c { p with arguments := a, extras := p.extras ++ use.left }
          (rest.drop use.taken)
      | _ => do
        let (p, count) ← readOperand r fuel c p words
        if count = 0 then
          let extras := (words.takeWhile fun w => !isOption w.2).map (·.1)
          readOptions r fuel c { p with extras := p.extras ++ extras } (words.drop extras.length)
        else readOptions r fuel c p (words.drop count)

def readCommand (r : Reader) (fuel : Nat) (c : Command) (a : Arguments) (words : List String) :
    Except Stop Progress :=
  match fuel with
  | 0 => .ok { arguments := a }
  | fuel + 1 => do
    let shaped ← r.shapes c words
    let (p, rest) ← readOptions r fuel c { arguments := { a with command := c } } shaped
    let (p, count) ← readOperand r fuel c p rest
    match c.operand with
    | .path name _ =>
      if !p.operandRead then r.error c ("the following arguments are required: " ++ name)
    | .command name _ true _ =>
      if !p.operandRead then r.error c ("the following arguments are required: " ++ name)
    | _ => pure ()
    return { p with extras := p.extras ++ (rest.drop count).map (·.1) }

end

end Reader

def read (columns : Nat) (words : List String) : Except Stop Arguments := do
  let r : Reader := { width := columns - 2 }
  let p ← r.readCommand (4 * (words.length + 4)) .top {} words
  if p.extras.isEmpty then return p.arguments
  else r.error .top ("unrecognized arguments: " ++ " ".intercalate p.extras)

end ImportAudit.CommandLine
