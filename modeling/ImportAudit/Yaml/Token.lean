import ImportAudit.Failure

/-!
# YAML tokens

Indentation is given by tokens of its own, so that tokens alone determine the document.
-/

namespace ImportAudit.Yaml

inductive Fault
  /-- The text breaks a rule of the syntax, or names something that is not there. -/
  | malformed (what : String)
  /-- A value that looks right but does not exist. -/
  | impossible (failure : Failure) (ofValue : failure.kind.isUnforeseen = true := by rfl)
  deriving DecidableEq, Repr

inductive Directive
  | version (major : Nat)
  | tag (handle start : String)
  | other
  deriving DecidableEq, Repr

inductive Token
  | streamEnd
  | directive (d : Directive)
  | documentStart
  | documentEnd
  | blockSequenceStart
  | blockMappingStart
  | blockEnd
  | flowSequenceStart
  | flowSequenceEnd
  | flowMappingStart
  | flowMappingEnd
  | blockEntry
  | flowEntry
  | key
  | value
  | alias (name : String)
  | anchor (name : String)
  /-- A tag; without a handle the rest is the whole tag. -/
  | tag (handle : Option String) (suffix : String)
  /-- A text, and whether it stands without quotes and marks. -/
  | scalar (text : String) (plain : Bool)
  | torn (text : Text.Torn)
  /-- The place from which on there are no tokens, for a fault. -/
  | broken (fault : Fault)
  deriving DecidableEq, Repr

def Token.ofPoints (ps : List Text.Point) : Token :=
  match h : Text.whole? ps with
  | some s => .scalar s false
  | none => .torn ⟨ps, h⟩

end ImportAudit.Yaml
