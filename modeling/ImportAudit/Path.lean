import ImportAudit.Text.Blank
import ImportAudit.Text.Quoted

/-!
# Paths

A path is a root and the segments below it. Empty segments and single dots vanish when a text is
read as a path; double dots stay. A path that starts with exactly two slashes has a root of its own.
-/

namespace ImportAudit

/-- A path; `root` is empty for a relative one. -/
structure Path where
  root : String := ""
  parts : List String := []
  deriving DecidableEq, Repr, Inhabited

namespace Path

def rootOf (cs : List Char) : String :=
  match cs with
  | '/' :: '/' :: '/' :: _ => "/"
  | '/' :: '/' :: _ => "//"
  | '/' :: _ => "/"
  | _ => ""

def ofString (s : String) : Path :=
  { root := rootOf s.toList
    parts := (Text.splitAt '/' s).filter fun p => p != "" && p != "." }

def plainText (p : Path) : String :=
  p.root ++ "/".intercalate p.parts

/-- The text of a path; the empty path is a dot. -/
def text (p : Path) : String :=
  if p.root == "" && p.parts.isEmpty then "." else p.plainText

def hasNull (p : Path) : Bool :=
  p.text.toList.contains (Char.ofNat 0)

def name (p : Path) : String :=
  p.parts.getLast?.getD ""

def parent (p : Path) : Path :=
  { p with parts := p.parts.dropLast }

def child (p : Path) (segment : String) : Path :=
  { p with parts := p.parts ++ [segment] }

/-- Join a path to another; an absolute one stands alone. -/
def join (p q : Path) : Path :=
  if q.root == "" then { p with parts := p.parts ++ q.parts } else q

/-- All segments, the root being the first if there is one. -/
def segments (p : Path) : List String :=
  if p.root == "" then p.parts else p.root :: p.parts

def relativeTo? (p base : Path) : Option (List String) :=
  if base.segments.isPrefixOf p.segments && (p.root == base.root) then
    some (p.parts.drop base.parts.length)
  else none

/-- Whether a path comes before another: segment by segment, the root first. -/
def before (p q : Path) : Bool :=
  decide (p.segments < q.segments)

def withName? (p : Path) (name : String) : Option Path :=
  if p.parts.isEmpty then none else some (p.parent.child name)

def shown (p : Path) : String :=
  "PosixPath(" ++ Text.quoted p.text ++ ")"

end Path

end ImportAudit
