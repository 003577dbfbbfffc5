import ImportAudit.Proofs.FileSystem
import ImportAudit.Proofs.Json.RoundTrip
import ImportAudit.Proofs.Settings.Layers
import ImportAudit.Proofs.Text.Encoding
import ImportAudit.Settings.Save

/-!
# Settings that are saved and loaded

Settings that pass the check and are saved as JSON are loaded again from the same path as they were.
Settings with a whole number of more than 4300 digits pass the check but cannot be saved.
-/

namespace ImportAudit

/-! ## Line breaks -/

namespace Text

open Json (IsPlain)

theorem normalBreaks_plain {cs : List Char} (h : ∀ c ∈ cs, IsPlain c) : normalBreaks cs = cs := by
  induction cs with
  | nil => rfl
  | cons c cs ih =>
      have hc : c ≠ '\r' := (h c List.mem_cons_self).2
      rw [normalBreaks, ih fun d hd => h d (List.mem_cons_of_mem c hd)]
      all_goals
        intros
        contradiction

end Text

/-! ## Files -/

namespace FileSystem

variable {fs fs' : FileSystem} {path : String} {c : Content}

/-- Whether a file can be written does not depend on what is written, and it is found again. -/
theorem writeText_spec (h : fs.writeText path c = .ok fs') (d : Content) :
    path ≠ "" ∧ ∃ fs₁, fs.writeText path d = .ok fs₁ ∧
      fs₁.entryOfText path = .ok (.file d) ∧ fs₁.readText path = .ok d := by
  unfold writeText at h
  split at h
  · cases h
  · rename_i hempty
    have hpath : path ≠ "" := by simpa using hempty
    refine ⟨hpath, ?_⟩
    dsimp only at h
    split at h
    · -- No file is written at a path that ends in a slash.
      split at h
      · cases h
      · split at h <;> cases h
    · rename_i hslash
      split at h
      · split at h <;> cases h
      · rename_i hnames
        obtain ⟨l, hroom, -⟩ := write_eq_ok_iff.mp h
        refine ⟨fs.put l (.file d), ?_, ?_⟩
        · unfold writeText
          rw [if_neg hempty]
          dsimp only
          rw [if_neg hslash, if_neg hnames]
          exact write_eq_ok_iff.mpr ⟨l, hroom, rfl⟩
        · obtain ⟨hentry, hread⟩ := hroom.written d
          have hfile : (fs.put l (.file d)).entryOfText path = .ok (.file d) := by
            unfold entryOfText
            rw [if_neg hempty, hentry]
            exact if_neg hnames
          refine ⟨hfile, ?_⟩
          rw [readText, hfile]
          exact hread

end FileSystem

namespace ConfigFile

variable {fs : FileSystem} {path t : String} {v : Value}

theorem document_of_parsed (hfile : fs.readText path = .ok (.bytes (Text.encodeUtf8 t)))
    (hplain : ∀ c ∈ t.toList, Json.IsPlain c) (hparse : parse (syntaxOf path) t = .ok v) :
    document fs path = .ok v := by
  rw [document_of_readText hfile, documentOf, Text.decode_encodeUtf8]
  show parse (syntaxOf path) (String.ofList (Text.normalBreaks t.toList)) = _
  rw [Text.normalBreaks_plain hplain, String.ofList_toList, hparse]

theorem document_of_written (hfile : fs.readText path = .ok (.bytes (Text.encodeUtf8 t)))
    (hpath : syntaxOf path = .json) (hplain : ∀ c ∈ t.toList, Json.IsPlain c)
    (hread : Json.read t = .ok v) :
    document fs path = .ok v := by
  refine document_of_parsed hfile hplain ?_
  rw [hpath, parse, hread]

end ConfigFile

namespace Settings

variable {c : Settings}

theorem lookup_entries (c : Settings) (part : Section) :
    Value.lookup (.str part.name) c.entries =
      some (.map (part.settings.map fun s => (.str s.name, c.get s))) := by
  cases part <;> rfl

theorem ofEntries_entries (hc : c.IsComplete) : ofEntries c.entries = .ok c := by
  obtain ⟨⟨extensions, excluded, workers, timeout⟩, ⟨directory, title, format⟩, lacksExtensions,
      lacksExcluded⟩ := c
  obtain rfl : lacksExtensions = false := hc .extensions
  obtain rfl : lacksExcluded = false := hc .excludedDirectories
  rfl

theorem finite_of_check (h : c.check = .ok ()) (s : Setting) : (c.get s).isEndless = false := by
  obtain ⟨data, hdata, -⟩ := bind_eq_ok_iff.mp h
  exact (complete_eq_ok_iff.mp hdata).2.1 s

theorem complete_of_check (h : c.check = .ok ()) :
    c.IsComplete ∧ c.complete = .ok c.toValue ∧ checkData c.toValue = .ok () := by
  obtain ⟨data, hdata, hcheck⟩ := bind_eq_ok_iff.mp h
  obtain ⟨hcomplete, -, rfl⟩ := complete_eq_ok_iff.mp hdata
  exact ⟨hcomplete, hdata, hcheck⟩

/-! ## Settings of the declared types -/

/-- The settings have the types that are declared for them. The format has its type by the check. -/
structure HasDeclaredTypes (c : Settings) : Prop where
  extensions : ∃ names : List String, c.get .extensions = .list (names.map .str)
  excludedDirectories : ∃ names : List String, c.get .excludedDirectories = .list (names.map .str)
  workers : c.get .workers = .null ∨ (∃ b, c.get .workers = .bool b) ∨ ∃ n, c.get .workers = .int n
  timeout : c.get .timeout = .null ∨ (∃ b, c.get .timeout = .bool b) ∨
    (∃ n, c.get .timeout = .int n) ∨
    ∃ x : Double, x.IsFinite ∧ c.get .timeout = .float x
  directory : ∃ text, c.get .directory = .str text
  title : ∃ text, c.get .title = .str text

def HasShortNumbers (c : Settings) : Prop :=
  ∀ s n, c.get s = .int n → n.natAbs < 10 ^ Decimal.maxDigits

inductive IsSimple : Value → Prop
  | null : IsSimple .null
  | bool (b : Bool) : IsSimple (.bool b)
  | int (n : Int) : IsSimple (.int n)
  | float {x : Double} (hx : x.IsFinite) : IsSimple (.float x)
  | str (text : String) : IsSimple (.str text)
  | texts (names : List String) : IsSimple (.list (names.map .str))

theorem IsSimple.hasForm {v : Value} (h : IsSimple v) : Json.HasForm v := by
  cases h with
  | null => exact .null
  | bool b => exact .bool b
  | int n => exact .int n
  | float hx => exact .float hx
  | str text => exact .str text
  | texts names =>
      refine .list fun x hx => ?_
      obtain ⟨text, -, rfl⟩ := List.mem_map.mp hx
      exact .str text

theorem IsSimple.isWritable_iff {v : Value} (h : IsSimple v) :
    v.isWritable = true ↔ ∀ n, v = .int n → n.natAbs < 10 ^ Decimal.maxDigits := by
  cases h with
  | int n =>
      unfold Value.isWritable
      rw [Nat.pow_eq]
      generalize Decimal.maxDigits = most
      rw [decide_eq_true_iff]
      constructor
      · rintro hn _ ⟨⟩
        exact hn
      · exact fun hn => hn n rfl
  | texts names =>
      refine ⟨fun _ n hn => (by cases hn), fun _ => Json.allWritable_iff.mpr fun x hx => ?_⟩
      obtain ⟨text, -, rfl⟩ := List.mem_map.mp hx
      rfl
  | null | bool | float | str => exact ⟨fun _ n hn => (by cases hn), fun _ => rfl⟩

theorem format_of_checkData (h : checkData c.toValue = .ok ()) :
    ∃ text, c.get .format = .str text := by
  obtain ⟨_, -, hparts⟩ := bind_eq_ok_iff.mp h
  obtain ⟨_, -, hrest⟩ := bind_eq_ok_iff.mp hparts
  obtain ⟨_, houtput, -⟩ := bind_eq_ok_iff.mp hrest
  obtain ⟨_, hformat, -⟩ := bind_eq_ok_iff.mp houtput
  have hfault : fault? .format (c.get .format) = none := by
    cases hfault : fault? .format (c.get .format) with
    | none => rfl
    | some f =>
        have hlookup :
            Value.lookup (.str "format") (Section.output.settings.map fun s =>
              (.str s.name, c.get s)) =
            some (c.get .format) := rfl
        have hfail :
            checkSetting (Section.output.settings.map fun s => (.str s.name, c.get s)) .format =
              .error f := by
          unfold checkSetting
          rw [show Setting.format.name = "format" from rfl, hlookup, Option.bind_some, hfault]
        cases hfail.symm.trans hformat
  unfold fault? at hfault
  dsimp only at hfault
  split at hfault
  · rename_i hany
    obtain ⟨f, -, hf⟩ := List.any_eq_true.mp hany
    exact ⟨f, Value.textKey?_eq_some_iff.mp (Value.str_same_iff.mp hf)⟩
  · cases hfault

theorem HasDeclaredTypes.isSimple (h : c.HasDeclaredTypes)
    (hformat : ∃ text, c.get .format = .str text) (s : Setting) :
    IsSimple (c.get s) := by
  cases s with
  | extensions =>
      obtain ⟨names, h⟩ := h.extensions
      exact h ▸ .texts names
  | excludedDirectories =>
      obtain ⟨names, h⟩ := h.excludedDirectories
      exact h ▸ .texts names
  | workers =>
      rcases h.workers with h | ⟨b, h⟩ | ⟨n, h⟩
      · exact h ▸ .null
      · exact h ▸ .bool b
      · exact h ▸ .int n
  | timeout =>
      rcases h.timeout with h | ⟨b, h⟩ | ⟨n, h⟩ | ⟨x, hx, h⟩
      · exact h ▸ .null
      · exact h ▸ .bool b
      · exact h ▸ .int n
      · exact h ▸ .float hx
  | directory =>
      obtain ⟨text, h⟩ := h.directory
      exact h ▸ .str text
  | title =>
      obtain ⟨text, h⟩ := h.title
      exact h ▸ .str text
  | format =>
      obtain ⟨text, h⟩ := hformat
      exact h ▸ .str text

theorem hasForm_toValue (h : ∀ s, IsSimple (c.get s)) : Json.HasForm c.toValue := by
  have hsection (part : Section) :
      Json.HasForm (.map (part.settings.map fun s => (.str s.name, c.get s))) := by
    refine .map ?_ ?_ ?_
    · intro e he
      obtain ⟨s, -, rfl⟩ := List.mem_map.mp he
      exact ⟨s.name, rfl⟩
    · rw [Value.textKeys_map]
      cases part <;> decide
    · intro e he
      obtain ⟨s, -, rfl⟩ := List.mem_map.mp he
      exact (h s).hasForm
  refine .map ?_ (by rw [entries, Value.textKeys_map]; decide) ?_
  · intro e he
    obtain ⟨part, -, rfl⟩ := List.mem_map.mp he
    exact ⟨part.name, rfl⟩
  · intro e he
    obtain ⟨part, -, rfl⟩ := List.mem_map.mp he
    exact hsection part

theorem isWritable_toValue (h : ∀ s, IsSimple (c.get s)) : c.toValue.isWritable = true ↔
    c.HasShortNumbers := by
  have hkeys {α : Type} {xs : List α} {name : α → String} {value : α → Value} :
      ∀ e ∈ xs.map (fun x => (Value.str (name x), value x)), ∃ text, e.1 = .str text := by
    intro e he
    obtain ⟨x, -, rfl⟩ := List.mem_map.mp he
    exact ⟨name x, rfl⟩
  have hsections : c.toValue.isWritable = true ↔ ∀ part : Section, ∀ s ∈ part.settings,
      (c.get s).isWritable = true := by
    show Value.entriesWritable c.entries = true ↔ _
    unfold entries
    rw [Json.entriesWritable_iff hkeys, List.forall_mem_map]
    constructor
    · intro hall part s hs
      have hpart := hall part (by cases part <;> decide)
      exact (Json.entriesWritable_iff hkeys).mp hpart _ (List.mem_map_of_mem hs)
    · intro hall part _
      exact (Json.entriesWritable_iff hkeys).mpr (List.forall_mem_map.mpr (hall part))
  rw [hsections]
  constructor
  · intro hall s n hn
    exact (h s).isWritable_iff.mp (hall s.part s (mem_settings_part s)) n hn
  · intro hshort part s _
    exact (h s).isWritable_iff.mpr fun n hn => hshort s n hn

/-! ## Saving -/

section Saving

variable {path t : String} {w : World} {fs : FileSystem}

def fileStyle : Json.Style := ⟨some "  ", true⟩

theorem isBlank_fileStyle : fileStyle.IsBlank := by
  rintro unit ⟨⟩ c hc
  exact .inl (List.eq_of_mem_replicate (show c ∈ List.replicate 2 ' ' from hc))

theorem save_of_rendered {kind : ConfigSyntax} (hc : c.complete = .ok c.toValue)
    (hrender : render c.toValue kind = .ok t)
    (hwrite : w.files.writeText path (.bytes (Text.encodeUtf8 t)) = .ok fs) :
    c.save path kind w = (.ok (), { w with files := fs }) := by
  unfold save
  rw [hc, Action.bind_of_ok (Action.ofExcept_ok _ w), hrender]
  exact Action.changeFiles_of_ok hwrite

theorem save_of_printed (hc : c.complete = .ok c.toValue)
    (hprint : Json.print fileStyle c.toValue = .ok t)
    (hwrite : w.files.writeText path (.bytes (Text.encodeUtf8 t)) = .ok fs) :
    c.save path .json w = (.ok (), { w with files := fs }) :=
  save_of_rendered hc hprint hwrite

theorem save_of_refused {kind : ConfigSyntax} {fault : Json.WriteFault}
    (hc : c.complete = .ok c.toValue) (hrender : render c.toValue kind = .error (t, fault))
    (hwrite : w.files.writeText path (.bytes (Text.encodeUtf8 t)) = .ok fs) :
    c.save path kind w = (.error (fault.failure t), { w with files := fs }) := by
  unfold save
  rw [hc, Action.bind_of_ok (Action.ofExcept_ok _ w), hrender]
  dsimp only
  rw [Action.bind_of_ok (Action.changeFiles_of_ok hwrite)]
  rfl

theorem save_of_fault {fault : Json.WriteFault} (hc : c.complete = .ok c.toValue)
    (hprint : Json.print fileStyle c.toValue = .error (t, fault))
    (hwrite : w.files.writeText path (.bytes (Text.encodeUtf8 t)) = .ok fs) :
    c.save path .json w = (.error (fault.failure t), { w with files := fs }) :=
  save_of_refused hc hprint hwrite

end Saving

/-! ## Loading -/

theorem loadFile_of_sections {path : String} {w : World} {data : List (Value × Value)}
    (hfile : FileHolds w (some path) data)
    (hsections : ∀ part : Section, ∃ es, Value.lookup (.str part.name) data = some (.map es))
    (hcheck : checkData (.map data) = .ok ()) (hvalue : ofEntries data = .ok c) :
    ∃ w', loadFile path w = (.ok c, w') := by
  obtain ⟨logs, hload⟩ := load_apply w (some path) false true
  refine ⟨{ w with logs }, ?_⟩
  unfold loadFile
  rw [hload, fileMapping_of_holds hfile]
  have hsame :
      SameSections
        (Value.mergeEntries (Value.mergeEntries [] (filled data))
          (environmentMapping [])) data := by
    intro part
    left
    have hnone : (environmentEntries [] part.settings).isEmpty = true := by
      cases part <;> rfl
    obtain ⟨es, hes⟩ := hsections part
    rw [lookup_merged_environment [] (nodup_filled hfile.uniqueKeys.nodup), if_pos hnone,
      lookup_filled, hes]
  show (ofLayers true [filled data, environmentMapping []], _) = _
  rw [ofLayers_two, if_pos rfl, hsame.checkData_eq, hsame.ofEntries_eq, hcheck, hvalue]
  rfl

theorem loadFile_of_holds {path : String} {w : World} (hfile : FileHolds w (some path) c.entries)
    (hc : c.IsComplete) (hcheck : checkData c.toValue = .ok ()) :
    ∃ w', loadFile path w = (.ok c, w') :=
  loadFile_of_sections hfile (fun part => ⟨_, lookup_entries c part⟩) hcheck (ofEntries_entries hc)

/-- Settings that are saved as JSON are loaded again as they were, unless a whole number has too
many digits: then they are not saved. -/
theorem loadFile_of_saved_json (c : Settings) (path : String) (w : World)
    (hcheck : c.check = .ok ()) (htypes : c.HasDeclaredTypes)
    (hyaml : Text.endsIn path ".yaml" = false) (hyml : Text.endsIn path ".yml" = false)
    (hpath : ∃ fs, w.files.writeText path (.bytes []) = .ok fs) :
    (c.HasShortNumbers → ∃ w₁ w₂, c.save path .json w = (.ok (), w₁) ∧
      loadFile path w₁ = (.ok c, w₂)) ∧
    (¬ c.HasShortNumbers → ∃ w₁, c.save path .json w = (.error Failure.longNumber, w₁)) := by
  obtain ⟨hcomplete, hvalue, hdata⟩ := complete_of_check hcheck
  have hsimple := htypes.isSimple (format_of_checkData hdata)
  have hform := hasForm_toValue hsimple
  obtain ⟨fs, hfs⟩ := hpath
  constructor
  · intro hshort
    obtain ⟨t, hprint, hread, hplain⟩ :=
      Json.read_print isBlank_fileStyle hform ((isWritable_toValue hsimple).mpr hshort)
    obtain ⟨hne, fs₁, hwrite, -, hfile⟩ :=
      FileSystem.writeText_spec hfs (.bytes (Text.encodeUtf8 t))
    have hsyntaxOf : ConfigFile.syntaxOf path = .json := by
      unfold ConfigFile.syntaxOf
      rw [hyaml, hyml]
      rfl
    have hholds : FileHolds { w with files := fs₁ } (some path) c.entries := by
      have hchosen : chosen? { w with files := fs₁ } (some path) = some path := by
        unfold chosen?
        simp [hne]
      unfold FileHolds
      rw [hchosen]
      exact ConfigFile.document_of_written hfile hsyntaxOf (hplain rfl) hread
    obtain ⟨w₂, hload⟩ := loadFile_of_holds hholds hcomplete hdata
    exact ⟨_, w₂, save_of_printed hvalue hprint hwrite, hload⟩
  · intro hlong
    obtain ⟨t, hprint⟩ := Json.write_long isBlank_fileStyle hform
      (Bool.eq_false_iff.mpr (mt (isWritable_toValue hsimple).mp hlong)) 0
    obtain ⟨-, fs₁, hwrite, -⟩ := FileSystem.writeText_spec hfs (.bytes (Text.encodeUtf8 t))
    exact ⟨_, save_of_fault hvalue hprint hwrite⟩

/-- Settings with characters that are escaped, one of them as a pair, and a
limit of two and a half seconds. -/
def quotedSettings : Settings :=
  { analysis := { extensions := .list [.str "py", .str "é"]
                  excludedDirectories := .list [.str "a\"b\\c\n"]
                  workers := .int 4
                  timeout := .float (.finite false 5629499534213120 (-51)) }
    output := { title := .str "\t𝕀" } }

/-- The escaped characters and the limit are loaded as they were. -/
theorem quotedSettings_reload :
    quotedSettings.check = .ok () ∧ quotedSettings.HasShortNumbers ∧
      ∃ w₁ w₂, quotedSettings.save "c.json" .json {} = (.ok (), w₁) ∧
        loadFile "c.json" w₁ = (.ok quotedSettings, w₂) := by
  have hcheck : quotedSettings.check = .ok () := by decide +kernel
  have hshort : quotedSettings.HasShortNumbers := by
    intro s n hn
    cases s <;> cases hn
    decide +kernel
  have htypes : quotedSettings.HasDeclaredTypes :=
    { extensions := ⟨["py", "é"], rfl⟩
      excludedDirectories := ⟨["a\"b\\c\n"], rfl⟩
      workers := .inr (.inr ⟨4, rfl⟩)
      timeout := .inr (.inr (.inr ⟨_, by decide, rfl⟩))
      directory := ⟨_, rfl⟩
      title := ⟨_, rfl⟩ }
  exact ⟨hcheck, hshort,
    (loadFile_of_saved_json quotedSettings "c.json" {} hcheck htypes (by decide) (by decide)
    ⟨_, rfl⟩).1 hshort⟩

def manyWorkers : Settings :=
  ({} : Settings).set .workers (.int (Nat.pow 10 Decimal.maxDigits : Nat))

/-- They pass the check but are not saved. -/
theorem manyWorkers_unsaved :
    manyWorkers.check = .ok () ∧ manyWorkers.HasDeclaredTypes ∧
      ConfigFile.syntaxOf "d.json" = .json ∧
      ({} : World).files.writeText "d.json" (.bytes []) =
        .ok { entries := [(["d.json"], .file (.bytes []))] } ∧
      (manyWorkers.save "d.json" .json {}).1 = .error Failure.longNumber := by
  refine ⟨by decide +kernel, ?_, by decide, by decide +kernel, by decide +kernel⟩
  exact
    { extensions := ⟨Extensions.default, rfl⟩
      excludedDirectories := ⟨Discovery.defaultExcluded, rfl⟩
      workers := .inr (.inr ⟨_, rfl⟩)
      timeout := .inl rfl
      directory := ⟨_, rfl⟩
      title := ⟨_, rfl⟩ }

end Settings

end ImportAudit
