import ImportAudit.Console.Layout
import ImportAudit.Console.Markup

/-!
# Output for a reader

Messages, headers, sections and tables are printed with box drawing characters and icons, or as
plain text. Styles are never shown, since the output is not a terminal.
-/

namespace ImportAudit

structure Console where
  rich : Bool
  /-- The cells of a line. -/
  width : Nat := 80
  /-- Whether names between colons are printed as pictures. -/
  pictures : Bool := rich

namespace Console

/-- The text of lines. Each ends with a line feed, and what does not fit is cut off. -/
def printed (width : Nat) (lines : List (List Char)) : String :=
  String.ofList (lines.flatMap fun l => crop width l ++ ['\n'])

def marked (c : Console) (text : String) : Except Failure String :=
  (rendered c.pictures text).map fun cs => printed c.width (wrap c.width .fold .natural cs)

def literal (c : Console) (text : String) : String :=
  printed c.width (wrap c.width .fold .natural (shownChars c.pictures text.toList))

def header (c : Console) (title : String) (subtitle : Option String) : Except Failure String :=
  let subtitle := (subtitle.filter (· != "")).toList
  if c.rich then do
    let lines := ("[bold blue]" ++ escape title ++ "[/bold blue]") :: subtitle.map fun s =>
      "[dim]" ++ escape s ++ "[/dim]"
    return printed c.width (panel c.width (← rendered c.pictures ("\n".intercalate lines)))
  else .ok (c.literal ("\n=== " ++ title ++ " ===") ++ String.join (subtitle.map c.literal) ++ "\n")

def heading (c : Console) (title : String) : Except Failure String :=
  if c.rich then do
    return printed c.width
      [rule c.width (← rendered c.pictures ("[bold]" ++ escape title ++ "[/bold]"))]
  else .ok (c.literal ("\n--- " ++ title ++ " ---"))

inductive Notice
  | success
  | warning
  | error
  | info
  deriving DecidableEq, Repr

def Notice.icon : Notice → String
  | success => "[green]✓[/green] "
  | warning => "[yellow]⚠[/yellow] "
  | error => "[red]✗[/red] "
  | info => "[blue]ℹ[/blue] "

def Notice.label : Notice → String
  | success => "OK: "
  | warning => "WARNING: "
  | error => "ERROR: "
  | info => ""

def notice (c : Console) (n : Notice) (message : String) : Except Failure String :=
  if c.rich then c.marked (n.icon ++ escape message) else .ok (c.literal (n.label ++ message))

/-- The columns of a table: all rows are as long as the longest, and a column beyond
the headings has an empty one. -/
def tableColumns (headings : List (List Char)) (rows : List (List String)) : List Column :=
  let count := (rows.map List.length).foldl max headings.length
  (List.range count).map fun i =>
    { heading := headings.getD i []
      cells := rows.map fun r => shownChars false (r.getD i "").toList }

/-- Print a table. There can be markup in the title and in the headings, and none in the cells. -/
def table (c : Console) (title : String) (headings : List String) (rows : List (List String)) :
    Except Failure String := do
  let headings ← headings.mapM (rendered c.pictures)
  let columns := tableColumns headings rows
  let title ← if columns.isEmpty ||
      title == "" then pure none else (rendered c.pictures title).map some
  return printed c.width (grid c.width (if c.rich then .heavyHead else .ascii) title columns)

end Console

end ImportAudit
