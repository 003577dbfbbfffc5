import ImportAudit.Java.Cursor
import ImportAudit.Import.Declaration
import ImportAudit.Import.Usage
import ImportAudit.Text.Blank

/-!
# Reading a tree

The imports that a tree declares, the names it refers to, and the line of its first fault. Each list
is gathered in one walk over the tree.
-/

namespace ImportAudit.Java

/-- Parents under which an identifier is a part of a longer name or a mark, and no reference. -/
def namingKinds : List Kind :=
  [.scopedIdentifier, .importDeclaration, .packageDeclaration, .inferredParameters,
    .labeledStatement, .breakStatement, .continueStatement]

namespace Tree

def isDoubleColon (t : Tree) : Bool :=
  t.kind = .token && t.ownText == "::"

def lastSegment (t : Tree) : String :=
  if t.kind = .scopedIdentifier then
    match t.childWithRole? .name with
    | some inner => inner.text
    | none => dotted t.text
  else dotted t.text
where
  dotted (s : String) : String :=
    Text.trim (String.ofList ((ImportDeclaration.segments s.toList).getLast?.getD []))

/-- The import that a declaration declares. Its name is written without white
space; comments inside it stay. -/
def toImport (t : Tree) : ImportDeclaration :=
  let names := t.children.filter fun c => c.kind = .identifier || c.kind = .scopedIdentifier
  let name := Text.removeBlanks ((names.getLast?.map text).getD "")
  let wildcard := t.children.any fun c => c.kind = .asterisk
  { qualifiedName := if !wildcard then name else if name == "" then "*" else name ++ ".*"
    isStatic := t.children.any fun c => c.kind = .token && c.ownText == "static"
    line := some t.line }

end Tree

namespace Cursor

def isReference (c : Cursor) : Bool :=
  if c.focus.role.isSome then false
  else
    match c.parentKind? with
    | none => true
    | some .methodReference => !c.previous?.any Tree.isDoubleColon
    | some k => !namingKinds.contains k

def declaredImport? (c : Cursor) : Option ImportDeclaration :=
  if c.focus.kind = .importDeclaration then some c.focus.toImport else none

def name? (c : Cursor) : Option String :=
  if c.focus.kind = .identifier && c.isReference then some c.focus.text else none

/-- The type under the cursor, unless it is a variable that is being declared. -/
def type? (c : Cursor) : Option String :=
  if c.focus.kind = .typeIdentifier && c.parentKind? != some .typeParameter then
    some c.focus.text
  else none

def annotationName? (c : Cursor) : Option String :=
  if c.focus.kind = .annotationUse || c.focus.kind = .markerAnnotationUse then
    (c.focus.childWithRole? .name).map Tree.lastSegment
  else none

def call? (c : Cursor) : Option String :=
  if c.focus.kind = .methodInvocation then (c.focus.childWithRole? .name).map Tree.text else none

def field? (c : Cursor) : Option String :=
  if c.focus.kind = .fieldAccess then
    (c.focus.childWithRole? .field).bind fun m => if m.kind = .identifier then some m.text
  else none
  else none

end Cursor

namespace Tree

def imports (t : Tree) : List ImportDeclaration :=
  (Cursor.walk t).filterMap Cursor.declaredImport?

def references (t : Tree) : References :=
  let places := Cursor.walk t
  { names := places.filterMap Cursor.name?
    types := places.filterMap Cursor.type?
    annotations := places.filterMap Cursor.annotationName?
    calls := places.filterMap Cursor.call?
    fields := places.filterMap Cursor.field? }

def isFault (t : Tree) : Bool :=
  t.kind = .error || t.kind = .missing

def firstFaultLine? (t : Tree) : Option Nat :=
  ((Cursor.walk t).find? fun c => c.focus.isFault).map fun c => c.focus.line

end Tree

end ImportAudit.Java
