import ImportAudit.Value

/-!
# Report tables

A row is a list of cells, each with its column; a cell that holds nothing is absent. All rows of a
table have the columns of the widest one.
-/

namespace ImportAudit

/-- The cells of a row in order, no column twice. -/
abbrev Row := List (String × Value)

namespace Row

def columns (r : Row) : List String :=
  r.map (·.1)

def cell? (r : Row) (column : String) : Option Value :=
  (r.find? fun c => c.1 == column).map (·.2)

/-- What a report shows in a column: an empty text for a cell that is empty or absent. -/
def shown (r : Row) (column : String) : Value :=
  let v := (r.cell? column).getD .null
  if v.isTruthy then v else .str ""

/-- Put a cell into a column: a column that is there keeps its place, a new one comes last. -/
def put (column : String) (value : Value) : Row → Row
  | [] => [(column, value)]
  | c :: r => if c.1 == column then (column, value) :: r else c :: put column value r

def ofCells (cells : List (String × Value)) : Row :=
  cells.foldl (fun r c => put c.1 c.2 r) []

/-- The row with exactly the given columns, in their order; a cell that is not there is absent. -/
def fit (columns : List String) (r : Row) : Row :=
  columns.map fun c => (c, (r.cell? c).getD .null)

end Row

namespace Table

/-- The first of the rows with the most cells. -/
def widest : List Row → Row
  | [] => []
  | r :: rows => rows.foldl (fun best r => if best.length < r.length then r else best) r

def align (rows : List Row) : List String × List Row :=
  let columns := (widest rows).columns
  (columns, rows.map (Row.fit columns))

/-- Every column of any row, in the order of first appearance. -/
def unionColumns (rows : List Row) : List String :=
  (rows.flatMap Row.columns).eraseDups

def importColumns : List String := ["used", "unused", "all"]

def depthColumns (columns : List String) : List String :=
  columns.filter fun c => !importColumns.contains c

end Table

end ImportAudit
