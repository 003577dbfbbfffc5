import ImportAudit.CommandLine.Fill
import ImportAudit.CommandLine.Grammar

/-!
# Usage and help

The usage of a command is one line, or several that are indented below its words. The help lists
what the command takes, with the explanations in a column of their own.
-/

namespace ImportAudit.CommandLine

def blanks (n : Nat) : String := String.ofList (List.replicate n ' ')

def padTo (width : Nat) (s : String) : String := s ++ blanks (width - s.length)

/-! ## Usage -/

def usageOptions (c : Command) : List String :=
  c.options.map fun o => "[" ++ o.names.headD "" ++ o.values ++ "]"

def usageOperands (c : Command) : List String :=
  match c.operand with
  | .nothing => []
  | .path name _ => [name]
  | .command _ _ _ commands => [choiceText (commands.map fun x => x.1.word), "..."]

/-- Put parts on lines. The line has `used` cells taken, and every further line is indented. -/
def usageLines (width indent used : Nat) (line : List String) : List String → List String
  | [] => if line.isEmpty then [] else [" ".intercalate line]
  | p :: ps =>
    if width < used + 1 + p.length ∧ !line.isEmpty then
      " ".intercalate line :: usageLines width indent (indent + p.length) [p] ps
    else usageLines width indent (used + p.length + 1) (line ++ [p]) ps

def usage (width : Nat) (c : Command) : String :=
  let start := "usage: "
  let program := c.program
  let options := usageOptions c
  let operands := usageOperands c
  let all := " ".intercalate (program :: options ++ operands)
  if start.length + all.length ≤ width then start ++ all ++ "\n"
  else if 4 * (start.length + program.length) ≤ 3 * width then
    let indent := start.length + program.length + 1
    let lines := usageLines width indent (start.length - 1) [] (program :: options)
      ++ usageLines width indent (indent - 1) [] operands
    start ++ ("\n" ++ blanks indent).intercalate lines ++ "\n"
  else
    let indent := start.length
    let lines := usageLines width indent (indent - 1) [] (options ++ operands)
    let lines := if lines.length ≤ 1 then lines
      else usageLines width indent (indent - 1) [] options ++
        usageLines width indent (indent - 1) [] operands
    start ++ ("\n" ++ blanks indent).intercalate (program :: lines) ++ "\n"

/-! ## Help -/

structure HelpEntry where
  indent : Nat
  invocation : String
  help : String

def operandEntries (c : Command) : List HelpEntry :=
  match c.operand with
  | .nothing => []
  | .path name help => [⟨2, name, help⟩]
  | .command _ help _ commands =>
    ⟨2, choiceText (commands.map fun x => x.1.word), help⟩ :: commands.map fun (x, help) =>
      ⟨4, x.word, help⟩

def optionEntries (c : Command) : List HelpEntry :=
  c.options.map fun o => ⟨2, ", ".intercalate (o.names.map (· ++ o.values)), o.help⟩

def helpColumn (width : Nat) (entries : List HelpEntry) : Nat :=
  min ((entries.map fun e => e.invocation.length + 2).foldl max 0 + 2) (min 24 (max (width - 20) 4))

def HelpEntry.lines (width column : Nat) (e : HelpEntry) : List String :=
  if e.help == "" then [blanks e.indent ++ e.invocation]
  else
    let explanation := filled (max (width - column) 11) e.help
    if e.invocation.length + e.indent + 2 ≤ column then
      match explanation with
      | [] => [blanks e.indent ++ e.invocation]
      | first :: rest =>
        (padTo column (blanks e.indent ++ e.invocation) ++ first) :: rest.map (blanks column ++ ·)
    else (blanks e.indent ++ e.invocation) :: explanation.map (blanks column ++ ·)

/-- A part of the help under a heading; without entries there is none. -/
def helpSection (width column : Nat) (heading : String) (entries : List HelpEntry) : List String :=
  if entries.isEmpty then []
  else ["\n".intercalate (heading :: entries.flatMap (·.lines width column))]

def help (width : Nat) (c : Command) : String :=
  let column := helpColumn width (operandEntries c ++ optionEntries c)
  let paragraph (text : String) : List String :=
    if text == "" then [] else ["\n".intercalate (filled (max width 11) text)]
  let parts :=
    paragraph c.description ++ helpSection width column "positional arguments:" (operandEntries c)
    ++ helpSection width column "options:" (optionEntries c) ++ paragraph c.closing
  usage width c ++ String.join (parts.map fun p => "\n" ++ p ++ "\n")

end ImportAudit.CommandLine
