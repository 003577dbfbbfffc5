import ImportAudit.Console.PictureTable
import ImportAudit.Text.Blank
import ImportAudit.Text.Lower

/-!
# Pictures by name

A name between colons stands for a picture. The name can end in a mark that asks for
the picture or for the text form.
-/

namespace ImportAudit.Console

def turns : List String → List (String × String)
  | name :: picture :: rest => (name, picture) :: turns rest
  | _ => []

/-- Whether a character parts the entries of the table: a blank or control character, or a colon,
none of which is in a name. -/
def partsEntries (c : Char) : Bool :=
  decide (c.toNat ≤ 0x20) || c == ':'

def entries (table : String) : List (String × String) :=
  let pieces := Text.splitList partsEntries table.toList
  turns ((pieces.filter fun piece => !piece.isEmpty).map String.ofList)

def tones : List (String × Char) :=
  [("light", Char.ofNat 0x1f3fb), ("medium-light", Char.ofNat 0x1f3fc),
    ("medium", Char.ofNat 0x1f3fd), ("medium-dark", Char.ofNat 0x1f3fe),
    ("dark", Char.ofNat 0x1f3ff)]

/-- A picture in a skin tone. The mark of the tone follows the first character and takes the place
of a mark that asks for the picture. -/
def inTone (mark : Char) (picture : String) : String :=
  match picture.toList with
  | [] => ""
  | c :: cs => String.ofList (c :: mark :: cs.dropWhile (· == Char.ofNat 0xfe0f))

def inTones (e : String × String) : List (String × String) :=
  tones.map fun (tone, mark) => (e.1 ++ "_" ++ tone ++ "_skin_tone", inTone mark e.2)

def pictureTable : List (String × String) :=
  let toned := entries tonedPictures
  entries singlePictures ++ toned ++ toned.flatMap inTones

def picture? (name : String) : Option String :=
  pictureTable.lookup (Text.lower name)

def forms : List (List Char × Char) :=
  [("-emoji".toList, Char.ofNat 0xfe0f), ("-text".toList, Char.ofNat 0xfe0e)]

def form? (name : List Char) : Option (List Char × Char) :=
  forms.find? fun f => f.1.isSuffixOf name

def bareName (name : List Char) : List Char :=
  match form? name with
  | some (mark, _) => name.take (name.length - mark.length)
  | none => name

/-- What a name between colons stands for. A name without a picture stays as it is. -/
def named (name : List Char) : List Char :=
  let picture := (picture? (String.ofList (bareName name))).map fun p =>
    p.toList ++ ((form? name).map fun f => f.2).toList
  picture.getD (':' :: name ++ [':'])

/-- Put pictures for their names. After a colon, `name` holds the characters since then, the last
first; a blank ends what could be a name. -/
def putPictures (name : Option (List Char)) : List Char → List Char
  | [] =>
    match name with
    | none => []
    | some n => ':' :: n.reverse
  | c :: cs =>
    match name with
    | none => if c == ':' then putPictures (some []) cs else c :: putPictures none cs
    | some n =>
      if c == ':' then named n.reverse ++ putPictures none cs
      else if Text.isBlank c then ':' :: n.reverse ++ c :: putPictures none cs
      else putPictures (some (c :: n)) cs

def withPictures (cs : List Char) : List Char :=
  putPictures none cs

end ImportAudit.Console
