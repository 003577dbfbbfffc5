import ImportAudit.Proofs.Settings.RoundTrip
import ImportAudit.Proofs.Yaml.RoundTrip

/-!
# Settings that are saved as YAML documents

The mapping of all settings is written with the entries of each section in the order of their
names. Texts come back as they were, also those that look like other values, have marks or line
breaks, or are longer than a line.
-/

namespace ImportAudit.Settings

open Yaml (IsBlock IsDocument IsLeaf IsName)

variable {c : Settings}

def byName : Section → List Setting
  | .analysis => [.excludedDirectories, .extensions, .workers, .timeout]
  | .output => [.directory, .format, .title]

theorem mergeSort_settings (part : Section) :
    (part.settings.mergeSort fun a b => !decide (b.name < a.name)) = byName part := by
  -- The names are compared by evaluation: `<` of texts has no rules that open it.
  cases part <;>
    simp +decide only [Section.settings, byName, List.mergeSort, List.MergeSort.Internal.splitInTwo,
      List.splitAt_eq, List.length_cons, List.length_nil, List.take_succ_cons, List.drop_succ_cons,
      List.take_zero, List.drop_zero, List.merge, ↓reduceIte]

theorem mergeSort_sections :
    ([Section.analysis, .output].mergeSort fun a b => !decide (b.name < a.name)) =
      [.analysis, .output] := by
  simp +decide only [List.mergeSort, List.MergeSort.Internal.splitInTwo, List.splitAt_eq,
    List.length_cons, List.length_nil, List.take_succ_cons, List.drop_succ_cons, List.take_zero,
    List.drop_zero, List.merge, ↓reduceIte]

def document (c : Settings) : List (Value × Value) :=
  [Section.analysis, .output].map fun part =>
    (.str part.name, .map ((byName part).map fun s => (.str s.name, c.get s)))

theorem IsSimple.sorted_eq {v : Value} (h : IsSimple v) : Yaml.sorted v = v := by
  cases h with
  | texts names => exact Yaml.sorted_texts names
  | null | bool | int | float | str => rfl

theorem sorted_toValue (h : ∀ s, IsSimple (c.get s)) : Yaml.sorted c.toValue = .map c.document := by
  have hsection (part : Section) :
      Yaml.sorted (.map (part.settings.map fun s => (.str s.name, c.get s))) =
      .map ((byName part).map fun s => (.str s.name, c.get s)) := by
    rw [Yaml.sorted_map, mergeSort_settings]
    simp only [(h _).sorted_eq]
  show Yaml.sorted (.map ([Section.analysis, .output].map fun part =>
    (.str part.name, .map (part.settings.map fun s => (.str s.name, c.get s))))) = _
  rw [Yaml.sorted_map, mergeSort_sections]
  simp only [hsection]
  rfl

/-! ## The document -/

theorem isName_setting (s : Setting) : IsName s.name := by
  cases s <;> exact ⟨by decide, by decide, by decide, by decide⟩

theorem isName_section (part : Section) : IsName part.name := by
  cases part <;> exact ⟨by decide, by decide, by decide, by decide⟩

theorem IsSimple.isBlock {v : Value} (h : IsSimple v)
    (hshort : ∀ n, v = .int n → n.natAbs < 10 ^ Decimal.maxDigits) :
    IsBlock 2 v := by
  have hleaf {v : Value} (hv : IsLeaf v) : IsBlock 2 v := .leaf hv (by decide)
  have hwritable := h.isWritable_iff.mpr hshort
  cases h with
  | null => exact hleaf .null
  | bool b => exact hleaf (.bool b)
  | int n => exact hleaf (.int (Json.isLong_of_isWritable hwritable))
  | float hx => exact hleaf (.float hx)
  | str text => exact hleaf (.str text)
  | texts names =>
      cases names with
      | nil => exact .nil 2
      | cons t names =>
          refine .list (by decide) (by decide) fun x hx => ?_
          obtain ⟨text, -, rfl⟩ := List.mem_map (l := t :: names).mp hx
          exact .str text

theorem isBlock_section (h : ∀ s, IsSimple (c.get s)) (hshort : c.HasShortNumbers)
    (part : Section) :
    IsBlock 0 (.map ((byName part).map fun s => (.str s.name, c.get s))) := by
  have hkeys : ∀ e ∈ (byName part).map (fun s => (Value.str s.name, c.get s)), ∃ k, e.1 = .str k ∧
      IsName k := by
    intro e he
    obtain ⟨s, -, rfl⟩ := List.mem_map.mp he
    exact ⟨s.name, rfl, isName_setting s⟩
  have honce : (Value.textKeys ((byName part).map fun s => (.str s.name, c.get s))).Nodup := by
    rw [Value.textKeys_map]
    cases part <;> decide
  have hvalues : ∀ e ∈ (byName part).map (fun s => (Value.str s.name, c.get s)), IsBlock 2 e.2 := by
    intro e he
    obtain ⟨s, -, rfl⟩ := List.mem_map.mp he
    exact (h s).isBlock (hshort s)
  obtain ⟨s, more, hs⟩ : ∃ s more, byName part = s :: more := by
    cases part <;> exact ⟨_, _, rfl⟩
  rw [hs] at hkeys honce hvalues ⊢
  exact .map (by decide) hkeys honce hvalues

theorem isDocument (h : ∀ s, IsSimple (c.get s)) (hshort : c.HasShortNumbers) :
    IsDocument c.document where
  nonempty := List.cons_ne_nil _ _
  keys e he := by
    obtain ⟨part, -, rfl⟩ := List.mem_map.mp he
    exact ⟨part.name, rfl, isName_section part⟩
  once := by
    unfold document
    rw [Value.textKeys_map]
    decide
  values e he := by
    obtain ⟨part, -, rfl⟩ := List.mem_map.mp he
    exact isBlock_section h hshort part

/-! ## Saving and loading -/

theorem lookup_document (c : Settings) (part : Section) :
    Value.lookup (.str part.name) c.document =
      some (.map ((byName part).map fun s => (.str s.name, c.get s))) := by
  cases part <;> rfl

theorem checkData_document (c : Settings) : checkData (.map c.document) = checkData c.toValue := rfl

theorem ofEntries_document (hc : c.IsComplete) : ofEntries c.document = .ok c := by
  obtain ⟨⟨extensions, excluded, workers, timeout⟩, ⟨directory, title, format⟩, lacksExtensions,
      lacksExcluded⟩ := c
  obtain rfl : lacksExtensions = false := hc .extensions
  obtain rfl : lacksExcluded = false := hc .excludedDirectories
  rfl

theorem isPlain_of_isWritten {ch : Char} (h : Yaml.IsWritten ch) : Json.IsPlain ch := by
  rcases h with rfl | ⟨hlow, hhigh⟩
  · decide
  · refine ⟨by omega, ?_⟩
    rintro rfl
    exact absurd hlow (by decide)

theorem parse_print (h : ∀ s, IsSimple (c.get s)) (hshort : c.HasShortNumbers) :
    ConfigFile.parse .yaml (Yaml.print c.toValue) = .ok (.map c.document) := by
  rw [ConfigFile.parse, Yaml.read_print (isDocument h hshort) (sorted_toValue h)]
  rfl

/-- Settings that are saved as YAML are loaded again as they were, unless a whole number has too
many digits: then they are not saved, and the file is left empty. -/
theorem loadFile_of_saved_yaml (c : Settings) (path : String) (w : World)
    (hcheck : c.check = .ok ()) (htypes : c.HasDeclaredTypes)
    (hname : Text.endsIn path ".yaml" = true ∨ Text.endsIn path ".yml" = true)
    (hpath : ∃ fs, w.files.writeText path (.bytes []) = .ok fs) :
    (c.HasShortNumbers → ∃ w₁ w₂, c.save path .yaml w = (.ok (), w₁) ∧
      loadFile path w₁ = (.ok c, w₂)) ∧
    (¬ c.HasShortNumbers → ∃ w₁, c.save path .yaml w = (.error Failure.longNumber, w₁) ∧
      w₁.files.entryOfText path = .ok (.file (.bytes []))) := by
  obtain ⟨hcomplete, hvalue, hdata⟩ := complete_of_check hcheck
  have hsimple := htypes.isSimple (format_of_checkData hdata)
  obtain ⟨fs, hfs⟩ := hpath
  constructor
  · intro hshort
    have hrender : render c.toValue .yaml = .ok (Yaml.print c.toValue) :=
      if_pos ((isWritable_toValue hsimple).mpr hshort)
    obtain ⟨hne, fs₁, hwrite, -, hfile⟩ :=
      FileSystem.writeText_spec hfs (.bytes (Text.encodeUtf8 (Yaml.print c.toValue)))
    have hsyntaxOf : ConfigFile.syntaxOf path = .yaml := by
      unfold ConfigFile.syntaxOf
      rcases hname with h | h <;> simp [h]
    have hplain : ∀ ch ∈ (Yaml.print c.toValue).toList, Json.IsPlain ch := fun ch hch =>
      isPlain_of_isWritten
        (Yaml.isWritten_print (isDocument hsimple hshort) (sorted_toValue hsimple) ch hch)
    have hholds : FileHolds { w with files := fs₁ } (some path) c.document := by
      have hchosen : chosen? { w with files := fs₁ } (some path) = some path := by
        unfold chosen?
        simp [hne]
      unfold FileHolds
      rw [hchosen]
      refine ConfigFile.document_of_parsed hfile hplain ?_
      rw [hsyntaxOf, parse_print hsimple hshort]
    obtain ⟨w₂, hload⟩ := loadFile_of_sections hholds (fun part => ⟨_, lookup_document c part⟩)
      ((checkData_document c).trans hdata) (ofEntries_document hcomplete)
    exact ⟨_, w₂, save_of_rendered hvalue hrender hwrite, hload⟩
  · intro hlong
    have hrender : render c.toValue .yaml = .error ("", .longNumber) :=
      if_neg (mt (isWritable_toValue hsimple).mp hlong)
    obtain ⟨-, fs₁, hwrite, hfile, -⟩ := FileSystem.writeText_spec hfs (.bytes (Text.encodeUtf8 ""))
    exact ⟨_, save_of_refused hvalue hrender hwrite, hfile⟩

/-- Settings with texts that look like numbers, truth values, dates and merge keys, or
have marks and line breaks. -/
def disguisedSettings : Settings :=
  { analysis := { extensions := .list [.str "1e3", .str "yes", .str "é"]
                  excludedDirectories :=
                    .list [.str "", .str "2020-01-01", .str "<<", .str "a: b #c",
                      .str "- 'd'\n\n e"]
                  workers := .int 4
                  timeout := .float (.finite false 5629499534213120 (-51)) }
    output :=
      { title := .str ("a title that is longer than a line, " ++
          "with words enough that it is broken at one of its spaces") } }

theorem disguisedSettings_reload :
    disguisedSettings.check = .ok () ∧ disguisedSettings.HasShortNumbers ∧
      ∃ w₁ w₂, disguisedSettings.save "c.yaml" .yaml {} = (.ok (), w₁) ∧
        loadFile "c.yaml" w₁ = (.ok disguisedSettings, w₂) := by
  have hcheck : disguisedSettings.check = .ok () := by decide +kernel
  have hshort : disguisedSettings.HasShortNumbers := by
    intro s n hn
    cases s <;> cases hn
    decide +kernel
  have htypes : disguisedSettings.HasDeclaredTypes :=
    { extensions := ⟨["1e3", "yes", "é"], rfl⟩
      excludedDirectories := ⟨["", "2020-01-01", "<<", "a: b #c", "- 'd'\n\n e"], rfl⟩
      workers := .inr (.inr ⟨4, rfl⟩)
      timeout := .inr (.inr (.inr ⟨_, by decide, rfl⟩))
      directory := ⟨_, rfl⟩
      title := ⟨_, rfl⟩ }
  exact ⟨hcheck, hshort,
    (loadFile_of_saved_yaml disguisedSettings "c.yaml" {} hcheck htypes (.inl (by decide))
    ⟨_, rfl⟩).1 hshort⟩

/-- A number of workers of 4301 digits passes the check but is not saved. -/
theorem manyWorkers_unwritten :
    manyWorkers.check = .ok () ∧ manyWorkers.HasDeclaredTypes ∧
      Text.endsIn "d.yaml" ".yaml" = true ∧
      ({} : World).files.writeText "d.yaml" (.bytes []) =
        .ok { entries := [(["d.yaml"], .file (.bytes []))] } ∧
      (manyWorkers.save "d.yaml" .yaml {}).1 = .error Failure.longNumber := by
  refine ⟨by decide +kernel, ?_, by decide, by decide +kernel, by decide +kernel⟩
  exact
    { extensions := ⟨Extensions.default, rfl⟩
      excludedDirectories := ⟨Discovery.defaultExcluded, rfl⟩
      workers := .inr (.inr ⟨_, rfl⟩)
      timeout := .inl rfl
      directory := ⟨_, rfl⟩
      title := ⟨_, rfl⟩ }

end ImportAudit.Settings
