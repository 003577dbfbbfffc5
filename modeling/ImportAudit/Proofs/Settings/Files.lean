import ImportAudit.Proofs.Settings.Layers
import ImportAudit.Proofs.Text.Encoding

/-!
# What becomes of a configuration file

Every content of a file is either no text, or malformed, or a document with a value
that does not exist, or stands for a value. Which of these it is decides whether a
mapping is read and how reading fails.
-/

namespace ImportAudit

namespace Json

/-- Whether a fault that is about the length of a number is about one that is too long. -/
def Fault.OfLongNumber (f : Fault) : Prop :=
  ∀ n, f.cause = .longNumber n → Decimal.maxDigits < n

theorem fault_failsOnly {α : Type} {cause : Cause} (h : ∀ n, cause ≠ .longNumber n)
    (at_ : List Char) :
    FailsOnly Fault.OfLongNumber (fault cause at_ : Except Fault α) :=
  .error fun n hn => absurd hn (h n)

theorem readString_failsOnly (start : List Char) (fuel : Nat) (built : List Text.Point)
    (cs : List Char) :
    FailsOnly Fault.OfLongNumber (readString start fuel built cs) := by
  fun_induction readString start fuel built cs
  all_goals first
    | assumption
    | exact .ok _
    | exact fault_failsOnly (fun _ => Cause.noConfusion) _

theorem readNumber_failsOnly {cs : List Char} {r : Reading Value} (h : readNumber cs = some r) :
    FailsOnly Fault.OfLongNumber r := by
  unfold readNumber at h
  dsimp only at h
  split at h
  · cases h
  · split at h
    · cases h
      exact .ok _
    · rename_i hnone
      cases h
      refine .error fun n hn => ?_
      cases hn
      unfold numberValue? at hnone
      dsimp only at hnone
      split at hnone
      · split at hnone
        · assumption
        · cases hnone
      · cases hnone

theorem readAtom_failsOnly (cs : List Char) : FailsOnly Fault.OfLongNumber (readAtom cs) := by
  unfold readAtom
  split
  · exact .ok _
  · cases hnumber : readNumber cs with
    | none => exact fault_failsOnly (fun _ => Cause.noConfusion) cs
    | some r => exact readNumber_failsOnly hnumber

theorem readers_failsOnly (fuel : Nat) :
    (∀ cs, FailsOnly Fault.OfLongNumber (readValue fuel cs)) ∧
    (∀ built cs, FailsOnly Fault.OfLongNumber (readItems fuel built cs)) ∧
    (∀ built cs, FailsOnly Fault.OfLongNumber (readMembers fuel built cs)) := by
  have hfault {α : Type} {cause : Cause} (h : ∀ n, cause ≠ .longNumber n) (at_ : List Char) :
      FailsOnly Fault.OfLongNumber (fault cause at_ : Except Fault α) := fault_failsOnly h at_
  induction fuel with
  | zero =>
      exact ⟨fun _ => hfault (fun _ => Cause.noConfusion) _, fun _ _ =>
        hfault (fun _ => Cause.noConfusion) _, fun _ _ => hfault (fun _ => Cause.noConfusion) _⟩
  | succ fuel ih =>
      obtain ⟨ihvalue, ihitems, ihmembers⟩ := ih
      refine ⟨fun cs => ?_, fun built cs => ?_, fun built cs => ?_⟩
      · unfold readValue
        split
        · exact .map (readString_failsOnly _ _ _ _) _
        · split
          · exact .ok _
          · exact .map (ihitems _ _) _
        · split
          · exact .ok _
          · exact .map (ihmembers _ _) _
        · exact readAtom_failsOnly _
      · unfold readItems
        split
        · rename_i f hf
          exact .error (ihvalue _ f hf)
        · split
          · exact .ok _
          · exact ihitems _ _
          · exact hfault (fun _ => Cause.noConfusion) _
      · unfold readMembers
        split
        · split
          · rename_i f hf
            exact .error (readString_failsOnly _ _ _ _ f hf)
          · split
            · split
              · rename_i f hf
                exact .error (ihvalue _ f hf)
              · dsimp only
                split
                · exact .ok _
                · exact ihmembers _ _
                · exact hfault (fun _ => Cause.noConfusion) _
            · exact hfault (fun _ => Cause.noConfusion) _
        · exact hfault (fun _ => Cause.noConfusion) _

theorem read_failsOnly (source : String) : FailsOnly Fault.OfLongNumber (read source) := by
  unfold read
  dsimp only
  split
  · exact fault_failsOnly (fun _ => Cause.noConfusion) _
  · split
    · rename_i f hf
      exact .error ((readers_failsOnly _).1 _ f hf)
    · split
      · exact .ok _
      · exact fault_failsOnly (fun _ => Cause.noConfusion) _

end Json

namespace ConfigFile

variable {fs : FileSystem} {path text : String} {v : Value} {raw : List (Value × Value)}

/-! ## What a file holds -/

/-- A path leads to a file with a text in UTF-8. However its lines end, they are read as if they
ended in a line feed. -/
def Holds (fs : FileSystem) (path text : String) : Prop :=
  ∃ written, fs.readText path = .ok (.bytes (Text.encodeUtf8 written)) ∧
    text = String.ofList (Text.normalBreaks written.toList)

def HoldsNoText (fs : FileSystem) (path : String) : Prop :=
  ∃ content, fs.readText path = .ok content ∧ ∀ written, content ≠ .bytes (Text.encodeUtf8 written)

def LeadsNowhere (fs : FileSystem) (path : String) : Prop :=
  ∀ content, fs.readText path ≠ .ok content

/-! ### Texts that are told of -/

def opensBracket (c : Char) : Bool :=
  c == '[' || c == '{'

def marksBlock (c : Char) : Bool :=
  c == '-' || c == '?' || c == ':'

/-- The columns of blocks that can be open on a line: those that it is indented by, the one that it
starts at, and one for each mark on it. -/
def blockColumns (line : String) : Nat :=
  (line.toList.takeWhile (· == ' ')).length + line.toList.countP marksBlock + 1

/-- A bound on the calls that are open at once while a text is read. A bracket takes one in JSON. In
YAML a collection takes two, a bracket or a column is that of up to two collections, and an alias
may lead through all of them once more. -/
def openCalls : ConfigSyntax → String → Nat
  | .json, text => text.toList.countP opensBracket
  | .yaml, text =>
    4 * (text.toList.count '*' + 1) *
      (text.toList.countP opensBracket +
        ((Text.splitAt '\n' text).map blockColumns).foldl max 0)

/-- Whether reading a text leaves a tenth of the thousand calls to the caller, and no value mark can
have another place through an alias: it would be none there once its mapping is read. -/
def IsCovered (kind : ConfigSyntax) (text : String) : Prop :=
  openCalls kind text ≤ 900 ∧ (kind = .yaml → '=' ∈ text.toList → '*' ∉ text.toList)

instance (kind : ConfigSyntax) (text : String) : Decidable (IsCovered kind text) :=
  inferInstanceAs (Decidable (_ ∧ _))

/-! ### What a text stands for -/

def StandsFor : ConfigSyntax → String → Value → Prop
  | .json, text, v => Json.read text = .ok v
  | .yaml, text, v => Yaml.read text = .ok v

def IsMalformed : ConfigSyntax → String → Prop
  | .json, text => ∃ f, Json.read text = .error f ∧ ∀ n, f.cause ≠ .longNumber n
  | .yaml, text => ∃ what, Yaml.read text = .error (.malformed what)

/-- Whether a text that keeps the rules of a syntax has a value in it that does not exist. In JSON
only whole numbers can be so, if they have too many digits. -/
def HasImpossibleValue : ConfigSyntax → String → Prop
  | .json, text =>
      ∃ f n, Json.read text = .error f ∧ f.cause = .longNumber n ∧ Decimal.maxDigits < n
  | .yaml, text => ∃ f hf, Yaml.read text = .error (.impossible f hf)

/-- The mapping that a value is or counts as. In YAML, everything that is empty
counts as an empty mapping. -/
def CountsAs (kind : ConfigSyntax) (v : Value) (raw : List (Value × Value)) : Prop :=
  v = .map raw ∨ kind = .yaml ∧ v.isTruthy = false ∧ raw = []

/-- Whether there is nothing at a path that a mapping could be read from: no file, a malformed text,
or a value of another kind. -/
def IsRefused (fs : FileSystem) (path : String) : Prop :=
  LeadsNowhere fs path ∨ ∃ text, Holds fs path text ∧
    (IsMalformed (syntaxOf path) text ∨ ∃ v, StandsFor (syntaxOf path) text v ∧ ∀ raw,
      ¬CountsAs (syntaxOf path) v raw)

theorem holds_cases (fs : FileSystem) (path : String) :
    LeadsNowhere fs path ∨ HoldsNoText fs path ∨ ∃ text, Holds fs path text := by
  by_cases hfile : ∃ content, fs.readText path = .ok content
  · obtain ⟨content, hcontent⟩ := hfile
    right
    by_cases htext : ∃ written, content = .bytes (Text.encodeUtf8 written)
    · obtain ⟨written, rfl⟩ := htext
      exact .inr ⟨_, written, hcontent, rfl⟩
    · exact .inl ⟨content, hcontent, fun written hwritten => htext ⟨written, hwritten⟩⟩
  · exact .inl fun content hcontent => hfile ⟨content, hcontent⟩

theorem syntax_cases (kind : ConfigSyntax) (text : String) :
    IsMalformed kind text ∨ HasImpossibleValue kind text ∨ ∃ v, StandsFor kind text v := by
  cases kind with
  | json =>
      cases hread : Json.read text with
      | ok v => exact .inr (.inr ⟨v, hread⟩)
      | error f =>
          by_cases hlong : ∃ n, f.cause = .longNumber n
          · obtain ⟨n, hn⟩ := hlong
            exact .inr (.inl ⟨f, n, hread, hn, Json.read_failsOnly text f hread n hn⟩)
          · exact .inl ⟨f, hread, fun n hn => hlong ⟨n, hn⟩⟩
  | yaml =>
      cases hread : Yaml.read text with
      | ok v => exact .inr (.inr ⟨v, hread⟩)
      | error f =>
          cases f with
          | malformed what => exact .inl ⟨what, hread⟩
          | impossible f hf => exact .inr (.inl ⟨f, hf, hread⟩)

/-! ## What is read -/

theorem read_of_leadsNowhere (h : LeadsNowhere fs path) :
    ∃ f, read fs path = .error f ∧ f.kind = .configuration := by
  have hdocument : ∃ message, document fs path = .error (.configuration message) := by
    unfold document
    split
    · exact ⟨_, rfl⟩
    · cases hread : fs.readText path with
      | error fault => exact ⟨_, rfl⟩
      | ok content => exact absurd hread (h content)
  obtain ⟨message, hdocument⟩ := hdocument
  exact ⟨.configuration message, by rw [read, hdocument]; rfl, rfl⟩

theorem read_of_holdsNoText (h : HoldsNoText fs path) :
    ∃ f, read fs path = .error f ∧ f.kind = .decoding := by
  obtain ⟨content, hcontent, hno⟩ := h
  have hdocument : ∃ fault, document fs path = .error (.undecodable fault) := by
    cases content with
    | workbook b =>
        rw [document, leadsToEntry_of_readText hcontent, hcontent]
        exact ⟨_, rfl⟩
    | bytes bs =>
        rw [document_of_readText hcontent, documentOf]
        cases hdecode : Text.decode .utf8 bs with
        | ok written =>
            exact absurd (congrArg Content.bytes (Text.decode_eq_ok_iff.mp hdecode)) (hno written)
        | error fault => exact ⟨_, rfl⟩
  obtain ⟨fault, hdocument⟩ := hdocument
  exact ⟨.undecodable fault, by rw [read, hdocument]; rfl, rfl⟩

theorem document_of_holds (h : Holds fs path text) :
    document fs path = parse (syntaxOf path) text := by
  obtain ⟨written, hwritten, rfl⟩ := h
  rw [document_of_readText hwritten, documentOf, Text.decode_encodeUtf8]
  rfl

theorem parse_of_isMalformed {kind : ConfigSyntax} (h : IsMalformed kind text) :
    ∃ message, parse kind text = .error (.configuration message) := by
  cases kind with
  | json =>
      obtain ⟨f, hread, hshort⟩ := h
      unfold parse
      rw [hread]
      dsimp only
      split
      · exact absurd ‹_› (hshort _)
      · exact ⟨_, rfl⟩
  | yaml =>
      obtain ⟨what, hread⟩ := h
      unfold parse
      rw [hread]
      exact ⟨_, rfl⟩

theorem parse_of_hasImpossibleValue {kind : ConfigSyntax} (h : HasImpossibleValue kind text) :
    ∃ f, parse kind text = .error f ∧ f.kind.isUnforeseen = true := by
  cases kind with
  | json =>
      obtain ⟨f, n, hread, hlong, -⟩ := h
      unfold parse
      rw [hread]
      dsimp only
      rw [hlong]
      exact ⟨_, rfl, rfl⟩
  | yaml =>
      obtain ⟨f, hf, hread⟩ := h
      unfold parse
      rw [hread]
      exact ⟨f, rfl, hf⟩

theorem parse_of_standsFor {kind : ConfigSyntax} (h : StandsFor kind text v) :
    parse kind text = .ok (if kind = .yaml ∧ v.isTruthy = false then .map [] else v) := by
  cases kind with
  | json =>
      unfold parse
      rw [show Json.read text = .ok v from h]
      rfl
  | yaml =>
      unfold parse
      rw [show Yaml.read text = .ok v from h]
      cases htruthy : v.isTruthy <;> simp [htruthy]

theorem read_of_countsAs (h : Holds fs path text) (hv : StandsFor (syntaxOf path) text v)
    (hraw : CountsAs (syntaxOf path) v raw) : read fs path = .ok (Settings.filled raw) := by
  have hdocument : document fs path = .ok (.map raw) := by
    rw [document_of_holds h, parse_of_standsFor hv]
    rcases hraw with rfl | ⟨hkind, hempty, rfl⟩
    · split
      · rename_i hempty
        cases raw with
        | nil => rfl
        | cons e es => simp [Value.isTruthy] at hempty
      · rfl
    · rw [if_pos ⟨hkind, hempty⟩]
  rw [read, hdocument]
  rfl

theorem read_of_not_countsAs (h : Holds fs path text) (hv : StandsFor (syntaxOf path) text v)
    (hraw : ∀ raw, ¬CountsAs (syntaxOf path) v raw) :
    ∃ f, read fs path = .error f ∧ f.kind = .configuration := by
  have hdocument : document fs path = .ok v := by
    rw [document_of_holds h, parse_of_standsFor hv, if_neg]
    exact fun hempty => hraw [] (.inr ⟨hempty.1, hempty.2, rfl⟩)
  refine ⟨.configuration ("Configuration file must contain a mapping: " ++ path), ?_, rfl⟩
  rw [read, hdocument]
  cases v with
  | map es => exact absurd (.inl rfl) (hraw es)
  | _ => rfl

theorem read_of_isRefused (h : IsRefused fs path) :
    ∃ f, read fs path = .error f ∧ f.kind = .configuration := by
  rcases h with h | ⟨text, htext, h | ⟨v, hv, hraw⟩⟩
  · exact read_of_leadsNowhere h
  · obtain ⟨message, hparse⟩ := parse_of_isMalformed h
    refine ⟨.configuration message, ?_, rfl⟩
    rw [read, document_of_holds htext, hparse]
    rfl
  · exact read_of_not_countsAs htext hv hraw

theorem read_of_hasImpossibleValue (h : Holds fs path text)
    (himpossible : HasImpossibleValue (syntaxOf path) text) :
    ∃ f, read fs path = .error f ∧ f.kind.isUnforeseen = true := by
  obtain ⟨f, hparse, hkind⟩ := parse_of_hasImpossibleValue himpossible
  refine ⟨f, ?_, hkind⟩
  rw [read, document_of_holds h, hparse]
  rfl

theorem file_cases (fs : FileSystem) (path : String) :
    IsRefused fs path ∨ HoldsNoText fs path ∨
      (∃ text, Holds fs path text ∧ HasImpossibleValue (syntaxOf path) text) ∨
      ∃ text v raw, Holds fs path text ∧ StandsFor (syntaxOf path) text v ∧
        CountsAs (syntaxOf path) v raw := by
  rcases holds_cases fs path with h | h | ⟨text, htext⟩
  · exact .inl (.inl h)
  · exact .inr (.inl h)
  · rcases syntax_cases (syntaxOf path) text with h | h | ⟨v, hv⟩
    · exact .inl (.inr ⟨text, htext, .inl h⟩)
    · exact .inr (.inr (.inl ⟨text, htext, h⟩))
    · by_cases hcounts : ∃ raw, CountsAs (syntaxOf path) v raw
      · obtain ⟨raw, hraw⟩ := hcounts
        exact .inr (.inr (.inr ⟨text, v, raw, htext, hv, hraw⟩))
      · exact .inl (.inr ⟨text, htext, .inr ⟨v, hv, fun raw hraw => hcounts ⟨raw, hraw⟩⟩⟩)

theorem isCovered_of_bytes (fs : FileSystem) (path : String) (bs : List UInt8)
    (h : fs.readText path = .ok (.bytes bs))
    (hall : (Text.decode .utf8 bs).toOption.all (fun written =>
      IsCovered (syntaxOf path) (String.ofList (Text.normalBreaks written.toList))) = true) :
    ∀ text, Holds fs path text → IsCovered (syntaxOf path) text := by
  rintro text ⟨written, hwritten, rfl⟩
  obtain rfl : bs = Text.encodeUtf8 written := by
    cases h.symm.trans hwritten
    rfl
  rw [Text.decode_encodeUtf8] at hall
  exact of_decide_eq_true hall

end ConfigFile

end ImportAudit
