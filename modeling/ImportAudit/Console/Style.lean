import ImportAudit.Text.Blank
import ImportAudit.Text.Lower

/-!
# Styles

A style is named by words: attributes, a colour, a background, a link. Only equality of styles
matters here, because an output without colours shows none of them; the normal form of a name is the
same for all names of one style.
-/

namespace ImportAudit.Console

def attributeWords : List (String × List String) :=
  [("bold", ["bold", "b"]), ("dim", ["dim", "d"]), ("italic", ["italic", "i"]),
    ("underline", ["underline", "u"]), ("blink", ["blink"]), ("blink2", ["blink2"]),
    ("reverse", ["reverse", "r"]), ("conceal", ["conceal", "c"]),
    ("strike", ["strike", "s"]), ("underline2", ["underline2", "uu"]), ("frame", ["frame"]),
    ("encircle", ["encircle"]), ("overline", ["overline", "o"])]

def attribute? (word : String) : Option String :=
  (attributeWords.find? fun a => a.2.contains word).map (·.1)

def colourNames : List String :=
  Text.words "
black red green yellow blue magenta cyan white bright_black bright_red bright_green bright_yellow
bright_blue bright_magenta bright_cyan bright_white grey0 gray0 navy_blue dark_blue blue3 blue1
dark_green deep_sky_blue4 dodger_blue3 dodger_blue2 green4 spring_green4 turquoise4 deep_sky_blue3
dodger_blue1 green3 spring_green3 dark_cyan light_sea_green deep_sky_blue2 deep_sky_blue1
spring_green2 cyan3 dark_turquoise turquoise2 green1 spring_green1 medium_spring_green cyan2 cyan1
dark_red deep_pink4 purple4 purple3 blue_violet orange4 grey37 gray37 medium_purple4 slate_blue3
royal_blue1 chartreuse4 dark_sea_green4 pale_turquoise4 steel_blue steel_blue3 cornflower_blue
chartreuse3 cadet_blue sky_blue3 steel_blue1 pale_green3 sea_green3 aquamarine3 medium_turquoise
chartreuse2 sea_green2 sea_green1 aquamarine1 dark_slate_gray2 dark_magenta dark_violet purple
light_pink4 plum4 medium_purple3 slate_blue1 yellow4 wheat4 grey53 gray53 light_slate_grey
light_slate_gray medium_purple light_slate_blue dark_olive_green3 dark_sea_green light_sky_blue3
sky_blue2 dark_sea_green3 dark_slate_gray3 sky_blue1 chartreuse1 light_green pale_green1
dark_slate_gray1 red3 medium_violet_red magenta3 dark_orange3 indian_red hot_pink3 medium_orchid3
medium_orchid medium_purple2 dark_goldenrod light_salmon3 rosy_brown grey63 gray63 medium_purple1
gold3 dark_khaki navajo_white3 grey69 gray69 light_steel_blue3 light_steel_blue yellow3
dark_sea_green2 light_cyan3 light_sky_blue1 green_yellow dark_olive_green2 dark_sea_green1
pale_turquoise1 deep_pink3 magenta2 hot_pink2 orchid medium_orchid1 orange3 light_pink3 pink3
plum3 violet light_goldenrod3 tan misty_rose3 thistle3 plum2 khaki3 light_goldenrod2 light_yellow3
grey84 gray84 light_steel_blue1 yellow2 dark_olive_green1 honeydew2 light_cyan1 red1 deep_pink2
deep_pink1 magenta1 orange_red1 indian_red1 hot_pink dark_orange salmon1 light_coral
pale_violet_red1 orchid2 orchid1 orange1 sandy_brown light_salmon1 light_pink1 pink1 plum1 gold1
navajo_white1 misty_rose1 thistle1 yellow1 light_goldenrod1 khaki1 wheat1 cornsilk1 grey100
gray100 grey3 gray3 grey7 gray7 grey11 gray11 grey15 gray15 grey19 gray19 grey23 gray23 grey27
gray27 grey30 gray30 grey35 gray35 grey39 gray39 grey42 gray42 grey46 gray46 grey50 gray50 grey54
gray54 grey58 gray58 grey62 gray62 grey66 gray66 grey70 gray70 grey74 gray74 grey78 gray78 grey82
gray82 grey85 gray85 grey89 gray89 grey93 gray93
"

/-- Whether a text is a number of one to three digits that is at most 255. -/
def isColourNumber (cs : List Char) : Bool :=
  !cs.isEmpty && cs.length ≤ 3 && cs.all Char.isDigit
    && decide (cs.foldl (fun n c => 10 * n + (c.toNat - '0'.toNat)) 0 ≤ 255)

def bracketed? (word : String) (cs : List Char) : Option (List Char) :=
  if word.toList.isPrefixOf cs && cs.getLast? == some ')' then
    some ((cs.drop word.length).dropLast)
  else none

def isColour (word : String) : Bool :=
  let cs := (Text.lower word).toList
  ("default" :: colourNames).contains (String.ofList cs)
    || (match cs with
      | '#' :: ds => ds.length == 6 && ds.all fun c => c.isDigit || ('a' ≤ c && c ≤ 'f')
      | _ => false)
    || ((bracketed? "color(" cs).any isColourNumber)
    || ((bracketed? "rgb(" cs).any fun ds =>
      let parts := Text.splitList (· == ',') ds
      parts.length == 3 && parts.all fun p =>
        let p := p.dropWhile (· == '0')
        p.isEmpty || isColourNumber p)

structure Style where
  attributes : List (String × Bool) := []
  colour : Option String := none
  background : Option String := none
  link : Option String := none

def Style.ofWords (s : Style) : List String → Option Style
  | [] => some s
  | w :: ws =>
    match Text.lower w, ws with
    | "on", c :: rest =>
      if isColour c then Style.ofWords { s with background := some (Text.lower c) } rest else none
    | "on", [] => none
    | "not", a :: rest =>
      match attribute? a with
      | some a => Style.ofWords { s with attributes := (a, false) :: s.attributes } rest
      | none => none
    | "not", [] => none
    | "link", l :: rest => Style.ofWords { s with link := some l } rest
    | "link", [] => none
    | w, ws =>
      match attribute? w with
      | some a => Style.ofWords { s with attributes := (a, true) :: s.attributes } ws
      | none => if isColour w then Style.ofWords { s with colour := some w } ws else none

def Style.text (s : Style) : String :=
  let attributes := attributeWords.filterMap fun (a, _) =>
    (s.attributes.lookup a).map fun on => if on then a else "not " ++ a
  let words := attributes ++ s.colour.toList ++ (s.background.map ("on " ++ ·)).toList
    ++ (s.link.map ("link " ++ ·)).toList
  if words.isEmpty then "none" else " ".intercalate words

/-- The normal form of the name of a style. A name that means nothing is its own, in lower case. -/
def normalStyle (name : String) : String :=
  match Style.ofWords {} (if Text.trim name == "none" then [] else Text.words name) with
  | some s => s.text
  | none => Text.lower (Text.trim name)

end ImportAudit.Console
