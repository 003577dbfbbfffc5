import ImportAudit.Yaml.Lexer
import ImportAudit.Yaml.Scalar

/-!
# YAML documents as trees

A document is a tree of texts, sequences and mappings, each with a tag. A reference to an anchor
stands for the tree at the anchor, which may be one around the reference.
-/

namespace ImportAudit.Yaml

inductive Node
  | scalar (tag text : String)
  | torn (tag : String) (text : Text.Torn)
  | sequence (tag : String) (items : List Node)
  | mapping (tag : String) (entries : List (Node × Node))
  /-- A tree around this place, by its anchor. -/
  | loop (anchor : String)
  /-- A tree around this place, with an image of it. -/
  | knot (image : Node)
  deriving Repr, Inhabited

namespace Node

/-- The trees at the anchors so far; an anchor whose tree is not finished has none. -/
abbrev Anchors := List (String × Option Node)

structure Input where
  tokens : List Token
  anchors : Anchors := []
  handles : List (String × String) := []

def Input.next (i : Input) : Token :=
  i.tokens.head?.getD .streamEnd

def Input.skip (i : Input) : Input :=
  { i with tokens := i.tokens.drop 1 }

def Input.refuse {α : Type} (i : Input) (what : String) : Except Fault α :=
  match i.next with
  | .broken f => .error f
  | _ => .error (.malformed what)

def Input.require (i : Input) : Except Fault Unit :=
  match i.next with
  | .broken f => .error f
  | _ => .ok ()

def empty : Node := .scalar (standard "null") ""

/-- The properties before a node: an anchor and a tag, in any order. -/
structure Properties where
  anchor : Option String := none
  tag : Option (Option String × String) := none

def properties (i : Input) : Properties × Input :=
  match i.next with
  | .anchor a =>
    let i := i.skip
    match i.next with
    | .tag h s => (⟨some a, some (h, s)⟩, i.skip)
    | _ => (⟨some a, none⟩, i)
  | .tag h s =>
    let i := i.skip
    match i.next with
    | .anchor a => (⟨some a, some (h, s)⟩, i.skip)
    | _ => (⟨none, some (h, s)⟩, i)
  | _ => ({}, i)

/-- The whole tag of a node. A lone exclamation mark is as no tag. -/
def fullTag (i : Input) : Option (Option String × String) → Except Fault (Option String)
  | none => .ok none
  | some (none, suffix) => .ok (if suffix == "!" then none else some suffix)
  | some (some handle, suffix) =>
    match i.handles.lookup handle with
    | some start => .ok (some (start ++ suffix))
    | none => .error (.malformed "an unknown tag handle")

def openAnchor (i : Input) : Option String → Except Fault Input
  | none => .ok i
  | some a =>
    if (i.anchors.lookup a).isSome then .error (.malformed "an anchor that is there already")
    else .ok { i with anchors := (a, none) :: i.anchors }

def closeAnchor (i : Input) (anchor : Option String) (n : Node) : Input :=
  match anchor with
  | none => i
  | some a => { i with anchors := i.anchors.map fun e => if e.1 == a then (a, some n) else e }

inductive Place
  | flow
  | block
  /-- In a block where a sequence need not be indented. -/
  | indentless
  deriving DecidableEq, Repr

abbrev Reading := Except Fault (Node × Input)

mutual

def read : Nat → Place → Input → Except Fault (Node × Input)
  | 0, _, _ => .error (.malformed "nodes nested too deeply")
  | fuel + 1, place, i =>
    match i.next with
    | .alias a =>
      match i.anchors.lookup a with
      | some (some n) => .ok (n, i.skip)
      | some none => .ok (.loop a, i.skip)
      | none => .error (.malformed "an unknown anchor")
    | _ => do
      let (p, i) := properties i
      -- After one property the next token may be another.
      if p.anchor.isNone || p.tag.isNone then i.require
      let tag ← fullTag i p.tag
      i.require
      let bare := p.tag.isNone || tag.isNone
      let i ← openAnchor i p.anchor
      let (n, i) ← match i.next with
        | .scalar text plain =>
          let implied :=
            if plain && p.tag.isNone then Scalar.implicitTag text
            else if p.tag.isSome && tag.isNone then Scalar.implicitTag (Scalar.withoutFeed text)
            else standard "str"
          pure (Node.scalar (tag.getD implied) text, i.skip)
        | .torn text => pure (Node.torn (tag.getD (standard "str")) text, i.skip)
        | .flowSequenceStart => do
          let (items, i) ← readFlowItems fuel true i.skip
          pure (Node.sequence (tag.getD (standard "seq")) items, i)
        | .flowMappingStart => do
          let (entries, i) ← readFlowEntries fuel true i.skip
          pure (Node.mapping (tag.getD (standard "map")) entries, i)
        | .blockSequenceStart =>
          if place = .flow then i.refuse "a block inside brackets"
          else do
            let (items, i) ← readBlockItems fuel i.skip
            pure (Node.sequence (tag.getD (standard "seq")) items, i)
        | .blockMappingStart =>
          if place = .flow then i.refuse "a block inside brackets"
          else do
            let (entries, i) ← readBlockEntries fuel i.skip
            pure (Node.mapping (tag.getD (standard "map")) entries, i)
        | t =>
          if place = .indentless ∧ t = .blockEntry then do
            let (items, i) ← readIndentlessItems fuel i
            pure (Node.sequence (tag.getD (standard "seq")) items, i)
          else if p.anchor.isSome || p.tag.isSome then
            pure (Node.scalar (tag.getD (if bare then standard "null" else standard "str")) "", i)
          else i.refuse "a missing node"
      return (n, closeAnchor i p.anchor n)

def readUnless : Nat → Place → List Token → Input → Except Fault (Node × Input)
  | 0, _, _, _ => .error (.malformed "nodes nested too deeply")
  | fuel + 1, place, enders, i =>
    if enders.contains i.next then .ok (empty, i) else read fuel place i

def readBlockItems : Nat → Input → Except Fault (List Node × Input)
  | 0, _ => .error (.malformed "nodes nested too deeply")
  | fuel + 1, i =>
    match i.next with
    | .blockEntry => do
      let (n, i) ← readUnless fuel .block [.blockEntry, .blockEnd] i.skip
      let (ns, i) ← readBlockItems fuel i
      return (n :: ns, i)
    | .blockEnd => .ok ([], i.skip)
    | _ => i.refuse "a sequence without its end"

def readIndentlessItems : Nat → Input → Except Fault (List Node × Input)
  | 0, _ => .error (.malformed "nodes nested too deeply")
  | fuel + 1, i =>
    match i.next with
    | .blockEntry => do
      let (n, i) ← readUnless fuel .block [.blockEntry, .key, .value, .blockEnd] i.skip
      let (ns, i) ← readIndentlessItems fuel i
      return (n :: ns, i)
    | _ => .ok ([], i)

def readBlockEntries : Nat → Input → Except Fault (List (Node × Node) × Input)
  | 0, _ => .error (.malformed "nodes nested too deeply")
  | fuel + 1, i =>
    match i.next with
    | .key => do
      let (k, i) ← readUnless fuel .indentless [.key, .value, .blockEnd] i.skip
      let (v, i) ← match i.next with
        | .value => readUnless fuel .indentless [.key, .value, .blockEnd] i.skip
        | _ => pure (empty, i)
      let (es, i) ← readBlockEntries fuel i
      return ((k, v) :: es, i)
    | .blockEnd => .ok ([], i.skip)
    | _ => i.refuse "a mapping without its end"

/-- The items of a sequence in brackets, with its end. A key makes an item a
mapping of one entry. -/
def readFlowItems : Nat → Bool → Input → Except Fault (List Node × Input)
  | 0, _, _ => .error (.malformed "nodes nested too deeply")
  | fuel + 1, first, i =>
    if i.next = .flowSequenceEnd then .ok ([], i.skip)
    else if !first && i.next ≠ .flowEntry then i.refuse "items without a comma"
    else do
      let i := if first then i else i.skip
      match i.next with
      | .flowSequenceEnd => return ([], i.skip)
      | .key =>
        let (k, i) ← readUnless fuel .flow [.value, .flowEntry, .flowSequenceEnd] i.skip
        let (v, i) ← match i.next with
          | .value => readUnless fuel .flow [.flowEntry, .flowSequenceEnd] i.skip
          | _ => pure (empty, i)
        let (ns, i) ← readFlowItems fuel false i
        return (Node.mapping (standard "map") [(k, v)] :: ns, i)
      | _ =>
        let (n, i) ← read fuel .flow i
        let (ns, i) ← readFlowItems fuel false i
        return (n :: ns, i)

/-- The entries of a mapping in braces, with its end. A node without a key mark
is a key without a value. -/
def readFlowEntries : Nat → Bool → Input → Except Fault (List (Node × Node) × Input)
  | 0, _, _ => .error (.malformed "nodes nested too deeply")
  | fuel + 1, first, i =>
    if i.next = .flowMappingEnd then .ok ([], i.skip)
    else if !first && i.next ≠ .flowEntry then i.refuse "entries without a comma"
    else do
      let i := if first then i else i.skip
      match i.next with
      | .flowMappingEnd => return ([], i.skip)
      | .key =>
        let (k, i) ← readUnless fuel .flow [.value, .flowEntry, .flowMappingEnd] i.skip
        let (v, i) ← match i.next with
          | .value => readUnless fuel .flow [.flowEntry, .flowMappingEnd] i.skip
          | _ => pure (empty, i)
        let (es, i) ← readFlowEntries fuel false i
        return ((k, v) :: es, i)
      | _ =>
        let (k, i) ← read fuel .flow i
        let (es, i) ← readFlowEntries fuel false i
        return ((k, empty) :: es, i)

end

/-! ## Trees inside themselves -/

section Loops

variable (anchors : Anchors)

def atAnchor (a : String) : Node :=
  ((anchors.lookup a).bind id).getD empty

mutual

/-- A tree with something else in the place of the trees around it. -/
def tied (put : String → Node) : Node → Node
  | sequence tag items => sequence tag (tiedItems put items)
  | mapping tag entries => mapping tag (tiedEntries put entries)
  | loop a => put a
  | n => n

def tiedItems (put : String → Node) : List Node → List Node
  | [] => []
  | n :: ns => tied put n :: tiedItems put ns

def tiedEntries (put : String → Node) : List (Node × Node) → List (Node × Node)
  | [] => []
  | (k, v) :: es => (tied put k, tied put v) :: tiedEntries put es

end

def bare : Node → Node
  | mapping tag _ => knot (mapping tag [])
  | sequence tag _ => knot (sequence tag [])
  | n => n

mutual

def hasLoop : Node → Bool
  | sequence _ items => anyLoop items
  | mapping _ entries => entriesLoop entries
  | loop _ => true
  | _ => false

def anyLoop : List Node → Bool
  | [] => false
  | n :: ns => hasLoop n || anyLoop ns

def entriesLoop : List (Node × Node) → Bool
  | [] => false
  | (k, v) :: es => hasLoop k || hasLoop v || entriesLoop es

end

/-- A part without its own parts if these refer to a tree around it. -/
def short : Node → Node
  | loop a => bare (atAnchor anchors a)
  | n => if hasLoop n then bare n else n

def shortEntries (entries : List (Node × Node)) : List (Node × Node) :=
  entries.map fun (k, v) => (short anchors k, short anchors v)

def knotAt (a : String) : Node :=
  match atAnchor anchors a with
  | mapping tag entries => knot (mapping tag (shortEntries anchors entries))
  | sequence tag items =>
    knot (sequence tag (items.map fun
      | mapping tag entries => mapping tag (shortEntries anchors entries)
      | n => short anchors n))
  | n => n

/-- A tree in which references to trees around them are followed to a depth. -/
def untie : Nat → Node → Node
  | 0, n => tied (knotAt anchors) n
  | depth + 1, n =>
    let n := match n with
      | loop a => atAnchor anchors a
      | n => n
    match n with
    | sequence tag items => sequence tag (items.map (untie depth))
    | mapping tag entries => mapping tag (entries.map fun (k, v) => (untie depth k, untie depth v))
    | n => n

end Loops

/-- The tree of a whole document. References are followed as deep as there are settings. -/
def whole (n : Node) (i : Input) : Node :=
  if i.anchors.isEmpty then n else untie i.anchors 3 n

/-! ## Whole texts -/

def knownHandles : List (String × String) :=
  [("!", "!"), ("!!", standard "")]

def directives : Nat → Bool → Input → Except Fault Input
  | 0, _, i => .ok i
  | fuel + 1, versioned, i =>
    match i.next with
    | .directive (.version major) =>
      if versioned then .error (.malformed "two versions")
      else if major ≠ 1 then .error (.malformed "an unknown version")
      else directives fuel true i.skip
    | .directive (.tag handle start) =>
      if (i.handles.lookup handle).isSome then
        .error (.malformed "a tag handle that is there already")
      else directives fuel versioned { i.skip with handles := (handle, start) :: i.handles }
    | .directive .other => directives fuel versioned i.skip
    | _ => .ok i

def dropEnds (i : Input) : Input :=
  { i with tokens := i.tokens.dropWhile (· == .documentEnd) }

def document (fuel : Nat) (i : Input) : Except Fault (Node × Input) := do
  match i.next with
  | .directive _ | .documentStart | .documentEnd | .streamEnd => return (empty, i)
  | _ => read fuel .block i

/-- Read the one document of a text; nothing if there is none. -/
def ofTokens (ts : List Token) : Except Fault (Option Node) := do
  let fuel := 4 * ts.length + 8
  let i : Input := { tokens := ts, handles := knownHandles }
  let finish (i : Input) : Except Fault Unit :=
    -- After the document there may only be marks of its end.
    if (dropEnds i).next = .streamEnd then .ok ()
    else (dropEnds i).refuse "more than one document"
  match i.next with
  | .streamEnd => return none
  | .directive _ | .documentStart =>
    let i ← directives ts.length false { i with handles := [] }
    if i.next ≠ .documentStart then i.refuse "directives without a document"
    let handles := i.handles ++ knownHandles
    let (n, i) ← document fuel { i.skip with handles }
    finish i
    return some (whole n i)
  | _ =>
    let (n, i) ← read fuel .block i
    finish i
    return some (whole n i)

end Node

end ImportAudit.Yaml
