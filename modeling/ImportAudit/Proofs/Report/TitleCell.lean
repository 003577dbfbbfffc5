import ImportAudit.Proofs.Report.Document

/-!
# The title of a sheet

A report in JSON has the title as it is. A sheet has it in its first cell, as a text if there is one
column, and by what it looks like if there are more: most titles are the same either way, and those
that are not can be told by how they start.
-/

namespace ImportAudit

namespace Sheet

/-! ## What a title looks like -/

/-- A text starts with an equals sign, or is one in braces that does. -/
def IsFormula (s : String) : Prop :=
  (∃ t, s = "=" ++ t) ∨ ∃ t, s = "\x7b=" ++ t ++ "\x7d"

def IsWebLink (s : String) : Prop :=
  ∃ scheme ∈ ["http://", "https://", "ftp://", "ftps://"], ∃ t, s = scheme ++ t

def IsSchemeLink (s : String) : Prop :=
  ∃ scheme ∈ ["mailto:", "internal:", "external:"], ∃ t, s = scheme ++ t

/-- A text is shown as it is where it is written by what it looks like. -/
structure IsPlain (s : String) : Prop where
  ne_empty : s ≠ ""
  not_formula : ¬IsFormula s
  not_scheme : ¬IsSchemeLink s
  fits : IsWebLink s → linkFits s = true

theorem dropStart?_eq_some_iff {start s t : String} : dropStart? start s = some t ↔
    s = start ++ t := by
  unfold dropStart?
  constructor
  · intro h
    split at h
    · rename_i hstart
      obtain ⟨u, hu⟩ := List.isPrefixOf_iff_prefix.mp hstart
      cases h
      apply String.toList_inj.mp
      rw [String.toList_append, String.toList_ofList, ← hu, ← String.length_toList, List.drop_left]
    · cases h
  · rintro rfl
    rw [String.toList_append, if_pos (List.isPrefixOf_iff_prefix.mpr (List.prefix_append _ _)),
      ← String.length_toList, List.drop_left, String.ofList_toList]

theorem exists_formula?_iff {s : String} : (∃ f, formula? s = some f) ↔ IsFormula s := by
  have hequals (t : String) : ("=" ++ t).toList = '=' :: t.toList := String.toList_append
  have hbraces (t : String) :
      ("\x7b=" ++ t ++ "\x7d").toList = '\x7b' :: '=' :: (t.toList ++ ['\x7d']) := by
    rw [String.toList_append, String.toList_append]
    rfl
  constructor
  · rintro ⟨f, hf⟩
    unfold formula? at hf
    split at hf
    · rename_i cs hs
      refine .inl ⟨String.ofList cs, String.toList_inj.mp ?_⟩
      rw [hs, hequals, String.toList_ofList]
    · rename_i cs hs
      split at hf
      · rename_i hlast
        obtain ⟨inside, rfl⟩ := List.getLast?_eq_some_iff.mp hlast
        refine .inr ⟨String.ofList inside, String.toList_inj.mp ?_⟩
        rw [hs, hbraces, String.toList_ofList]
      · cases hf
    · cases hf
  · rintro (⟨t, rfl⟩ | ⟨t, rfl⟩)
    · unfold formula?
      rw [hequals]
      exact ⟨_, rfl⟩
    · unfold formula?
      rw [hbraces]
      exact ⟨_, if_pos List.getLast?_concat⟩

theorem isSome_dropStart?_iff {start s : String} : (dropStart? start s).isSome ↔
    ∃ t, s = start ++ t := by
  simp only [Option.isSome_iff_exists, dropStart?_eq_some_iff]

theorem any_web_iff {s : String} :
    (["http://", "https://", "ftp://", "ftps://"].any fun p => (dropStart? p s).isSome) = true ↔
      IsWebLink s := by
  simp only [List.any_eq_true, isSome_dropStart?_iff, IsWebLink]

theorem linkText?_of_web {s : String} (h : IsWebLink s) : linkText? s = some s := by
  rw [linkText?, if_pos (any_web_iff.mpr h)]

theorem IsWebLink.first {s : String} (h : IsWebLink s) :
    s.toList.head? = some 'h' ∨ s.toList.head? = some 'f' := by
  obtain ⟨scheme, hscheme, t, rfl⟩ := h
  rw [String.toList_append]
  simp only [List.mem_cons, List.not_mem_nil, or_false] at hscheme
  rcases hscheme with rfl | rfl | rfl | rfl
  · exact .inl rfl
  · exact .inl rfl
  · exact .inr rfl
  · exact .inr rfl

theorem IsSchemeLink.first {s : String} (h : IsSchemeLink s) :
    s.toList.head? = some 'm' ∨ s.toList.head? = some 'i' ∨ s.toList.head? = some 'e' := by
  obtain ⟨scheme, hscheme, t, rfl⟩ := h
  rw [String.toList_append]
  simp only [List.mem_cons, List.not_mem_nil, or_false] at hscheme
  rcases hscheme with rfl | rfl | rfl
  · exact .inl rfl
  · exact .inr (.inl rfl)
  · exact .inr (.inr rfl)

theorem IsFormula.first {s : String} (h : IsFormula s) :
    s.toList.head? = some '=' ∨ s.toList.head? = some '\x7b' := by
  rcases h with ⟨t, rfl⟩ | ⟨t, rfl⟩
  · rw [String.toList_append]
    exact .inl rfl
  · rw [String.toList_append, String.toList_append]
    exact .inr rfl

theorem IsSchemeLink.not_web {s : String} (h : IsSchemeLink s) : ¬IsWebLink s := by
  intro hweb
  rcases h.first with h | h | h <;> rcases hweb.first with hweb | hweb <;>
    exact absurd (h.symm.trans hweb) (by decide)

theorem link_not_formula {s : String} (h : IsWebLink s ∨ IsSchemeLink s) :
    s ≠ "" ∧ ¬IsFormula s := by
  have hfirst : s.toList.head? ∈ [some 'h', some 'f', some 'm', some 'i', some 'e'] := by
    rcases h with h | h
    · rcases h.first with h | h <;> rw [h] <;> decide
    · rcases h.first with h | h | h <;> rw [h] <;> decide
  constructor
  · rintro rfl
    exact absurd hfirst (by decide)
  · intro hformula
    rcases hformula.first with h | h <;> rw [h] at hfirst <;> exact absurd hfirst (by decide)

theorem linkText?_of_scheme {s : String} (h : IsSchemeLink s) :
    ∃ t, linkText? s = some t ∧ t.length < s.length := by
  have hshorter {start t : String} (hstart : 0 < start.length) (hs : dropStart? start s = some t) :
      t.length < s.length := by
    rw [dropStart?_eq_some_iff.mp hs, String.length_append]
    omega
  rw [linkText?, if_neg (mt any_web_iff.mp h.not_web)]
  split
  · rename_i t hmail
    exact ⟨t, rfl, hshorter (by decide) hmail⟩
  · rename_i t hinternal _
    exact ⟨t, rfl, hshorter (by decide) hinternal⟩
  · rename_i t hexternal _ _
    exact ⟨_, rfl, by rw [String.length_map]; exact hshorter (by decide) hexternal⟩
  · rename_i hmail hinternal hexternal
    obtain ⟨scheme, hscheme, t, hs⟩ := h
    have hdrop := dropStart?_eq_some_iff.mpr hs
    simp only [List.mem_cons, List.not_mem_nil, or_false] at hscheme
    rcases hscheme with rfl | rfl | rfl
    · exact absurd hdrop (hmail t)
    · exact absurd hdrop (hinternal t)
    · exact absurd hdrop (hexternal t)

theorem linkText?_of_none {s : String} (hweb : ¬IsWebLink s) (hscheme : ¬IsSchemeLink s) :
    linkText? s = none := by
  have habsent {scheme : String} (h : scheme ∈ ["mailto:", "internal:", "external:"]) :
      dropStart? scheme s = none := by
    rw [Option.eq_none_iff_forall_ne_some]
    intro t ht
    exact hscheme ⟨scheme, h, t, dropStart?_eq_some_iff.mp ht⟩
  rw [linkText?, if_neg (mt any_web_iff.mp hweb), habsent (by decide), habsent (by decide),
    habsent (by decide)]

/-! ## The cell of a title -/

theorem cut_eq_self_iff {s : String} : cut s = s ↔ s.length ≤ maxText := by
  rw [← String.toList_inj, toList_cut, List.take_eq_self_iff, String.length_toList]

theorem length_cut_le (s : String) : (cut s).length ≤ s.length := by
  rw [← String.length_toList, ← String.length_toList, toList_cut]
  exact List.length_take_le' _ _

theorem typedText_of_formula {s : String} (h : IsFormula s) :
    ∃ f, typedText s = some (.formula f, false) := by
  have hempty : s ≠ "" := by
    rintro rfl
    obtain ⟨f, hf⟩ := exists_formula?_iff.mpr h
    cases hf
  obtain ⟨f, hf⟩ := exists_formula?_iff.mpr h
  refine ⟨f, ?_⟩
  unfold typedText
  rw [if_neg (by simpa using hempty), hf]

theorem typedText_of_not_formula {s : String} (hempty : s ≠ "") (hformula : ¬IsFormula s) :
    typedText s = (linkText? s).elim (some (.string (cut s), false)) fun t =>
      if linkFits s then some (.string (cut t), true) else none := by
  have hnone : formula? s = none :=
    Option.eq_none_iff_forall_ne_some.mpr fun f hf => hformula (exists_formula?_iff.mp ⟨f, hf⟩)
  unfold typedText
  rw [if_neg (by simpa using hempty), hnone]
  cases linkText? s <;> rfl

/-- A text that is written by what it looks like stays the same exactly if it is
plain and short enough. -/
theorem typedText_eq_self_iff {s : String} :
    (typedText s).map (·.1) = some (.string s) ↔ IsPlain s ∧ s.length ≤ maxText := by
  have hself (hplain : IsPlain s) : some (CellContent.string (cut s)) = some (.string s) ↔
      IsPlain s ∧ s.length ≤ maxText := by
    rw [Option.some_inj, CellContent.string.injEq, cut_eq_self_iff]
    exact (and_iff_right hplain).symm
  by_cases hempty : s = ""
  · subst hempty
    exact iff_of_false (by decide) fun h => h.1.ne_empty rfl
  by_cases hformula : IsFormula s
  · obtain ⟨f, hf⟩ := typedText_of_formula hformula
    rw [hf]
    exact iff_of_false (by simp) fun h => h.1.not_formula hformula
  rw [typedText_of_not_formula hempty hformula]
  by_cases hscheme : IsSchemeLink s
  · obtain ⟨t, ht, hshorter⟩ := linkText?_of_scheme hscheme
    have hcut : cut t ≠ s := by
      intro h
      have hle := length_cut_le t
      rw [h] at hle
      omega
    rw [ht]
    refine iff_of_false ?_ fun h => h.1.not_scheme hscheme
    cases hfits : linkFits s <;> simp [hcut]
  by_cases hweb : IsWebLink s
  · rw [linkText?_of_web hweb]
    cases hfits : linkFits s with
    | false => exact iff_of_false (by simp) fun h => absurd (h.1.fits hweb) (by simp [hfits])
    | true => exact hself ⟨hempty, hformula, hscheme, fun _ => hfits⟩
  · rw [linkText?_of_none hweb hscheme]
    exact hself ⟨hempty, hformula, hscheme, fun h => absurd h hweb⟩

/-- A text that is written by what it looks like is a link exactly if it starts with a scheme and is
short enough for one. -/
theorem typedText_isLink_iff {s : String} :
    (typedText s).map (·.2) = some true ↔ (IsWebLink s ∨ IsSchemeLink s) ∧ linkFits s = true := by
  by_cases hlink : IsWebLink s ∨ IsSchemeLink s
  · obtain ⟨hempty, hformula⟩ := link_not_formula hlink
    obtain ⟨t, ht⟩ : ∃ t, linkText? s = some t := by
      rcases hlink with hweb | hscheme
      · exact ⟨s, linkText?_of_web hweb⟩
      · obtain ⟨t, ht, -⟩ := linkText?_of_scheme hscheme
        exact ⟨t, ht⟩
    rw [typedText_of_not_formula hempty hformula, ht, and_iff_right hlink]
    cases linkFits s <;> simp
  refine iff_of_false ?_ fun h => hlink h.1
  by_cases hempty : s = ""
  · subst hempty
    decide
  by_cases hformula : IsFormula s
  · obtain ⟨f, hf⟩ := typedText_of_formula hformula
    simp [hf]
  · rw [typedText_of_not_formula hempty hformula,
      linkText?_of_none (fun h => hlink (.inl h)) fun h => hlink (.inr h)]
    simp

theorem titleCells_of_many (title : String) {columns : Nat} (hmany : 1 < columns)
    (hfits : columns ≤ maxColumns) :
    titleCells (.str title) columns = .ok
      (((typedText title).map fun t => Cell.mk 0 0 t.1 .title).toList ++
        (List.range (columns - 1)).map fun i => Cell.mk 0 (i + 1) .blank .title,
        if (typedText title).map (·.2) = some true then [(0, 0)] else []) := by
  have htitle : typedTitle (.str title) = .ok (typedText title) := rfl
  unfold titleCells
  rw [if_neg (by omega), if_pos hmany, htitle]
  cases typedText title with
  | none => rfl
  | some t =>
      obtain ⟨content, isLink⟩ := t
      cases isLink <;> rfl

theorem titleCells_of_one (title : String) {columns : Nat} (hone : columns ≤ 1) :
    titleCells (.str title) columns = .ok ([⟨0, 0, .string (cut title), .title⟩], []) := by
  unfold titleCells
  rw [if_neg (by unfold maxColumns; omega), if_neg (by omega)]
  rfl

theorem titleCells_of_too_many (title : String) {columns : Nat} (hmany : maxColumns < columns) :
    titleCells (.str title) columns = .ok ([], []) := by
  unfold titleCells
  rw [if_pos hmany]
  rfl

/-! ## The first place of a sheet -/

section FirstPlace

variable {title : String} {rows : List Row} {first : List Cell × List (Nat × Nat)} {columns : Nat}

/-- The title of a sheet is at its first place exactly if the sheet has room for the columns and the
text, and, over several columns, the text is plain. -/
theorem filter_titleCells_iff (h : titleCells (.str title) columns = .ok first) :
    first.1.filter (fun c => c.row == 0 && c.column == 0) = [⟨0, 0, .string title, .title⟩] ↔
      columns ≤ maxColumns ∧ title.length ≤ maxText ∧ (1 < columns → IsPlain title) := by
  by_cases hfits : maxColumns < columns
  · rw [titleCells_of_too_many title hfits] at h
    obtain rfl := Except.ok.inj h
    exact iff_of_false (List.cons_ne_nil _ _).symm fun h => absurd h.1 (by omega)
  rw [and_iff_right (Nat.le_of_not_lt hfits)]
  by_cases hmany : 1 < columns
  · rw [titleCells_of_many title hmany (Nat.le_of_not_lt hfits)] at h
    obtain rfl := Except.ok.inj h
    have hblank : ((List.range (columns - 1)).map fun i => Cell.mk 0 (i + 1) .blank .title).filter
        (fun c => c.row == 0 && c.column == 0) = [] := by
      rw [List.filter_eq_nil_iff]
      intro c hc
      obtain ⟨i, -, rfl⟩ := List.mem_map.mp hc
      simp
    have hcell : ((typedText title).map fun t => Cell.mk 0 0 t.1 .title).toList.filter
        (fun c => c.row == 0 && c.column == 0) = [⟨0, 0, .string title, .title⟩] ↔
          (typedText title).map (·.1) = some (.string title) := by
      cases typedText title <;> simp
    rw [List.filter_append, hblank, List.append_nil, hcell, typedText_eq_self_iff]
    exact ⟨fun h => ⟨h.2, fun _ => h.1⟩, fun h => ⟨h.2 hmany, h.1⟩⟩
  · rw [titleCells_of_one title (Nat.le_of_not_lt hmany)] at h
    obtain rfl := Except.ok.inj h
    have hcell : [Cell.mk 0 0 (.string (cut title)) .title] = [⟨0, 0, .string title, .title⟩] ↔
        cut title = title := by simp
    exact hcell.trans (cut_eq_self_iff.trans ⟨fun h => ⟨h, fun h => absurd h hmany⟩, And.left⟩)

/-- Only the title can be a link, and only over several columns. -/
theorem links_titleCells_iff (h : titleCells (.str title) columns = .ok first) (place : Nat × Nat) :
    place ∈ first.2 ↔ place = (0, 0) ∧ 1 < columns ∧ columns ≤ maxColumns ∧
      (IsWebLink title ∨ IsSchemeLink title) ∧
      linkFits title = true := by
  by_cases hfits : maxColumns < columns
  · rw [titleCells_of_too_many title hfits] at h
    obtain rfl := Except.ok.inj h
    exact iff_of_false List.not_mem_nil fun h => absurd h.2.2.1 (by omega)
  by_cases hmany : 1 < columns
  · rw [titleCells_of_many title hmany (Nat.le_of_not_lt hfits)] at h
    obtain rfl := Except.ok.inj h
    rw [and_iff_right hmany, and_iff_right (Nat.le_of_not_lt hfits), ← typedText_isLink_iff]
    by_cases hlink : (typedText title).map (·.2) = some true
    · simp [hlink]
    · simp [hlink]
  · rw [titleCells_of_one title (Nat.le_of_not_lt hmany)] at h
    obtain rfl := Except.ok.inj h
    exact iff_of_false List.not_mem_nil fun h => hmany h.2.1

theorem filter_below_title (names : List String) (rows : List Row) (j : Nat) :
    (textRow 1 names (fun _ => .plain) id ++ textLines names rows).filter
      (fun c => c.row == 0 && c.column == j) = [] := by
  rw [List.filter_append, filter_textRow, filter_textLines, if_neg (by decide), if_pos (by decide)]
  rfl

end FirstPlace

section Title

variable {sheetWriter textWriter : Writer} {title : String} {rows : List Row}

/-- The title is in the report in JSON as it is. In the sheet it is merged over the columns if there
is more than one, and the first place has it as a text exactly if the sheet has room for the columns
and the text, and over several columns only if it is not empty, no formula and no link that is shown
without its scheme or left out. Nothing becomes a link but a title over several columns that starts
with a scheme and is short enough for one. -/
theorem title_in_sheet_and_report (hsheet : sheetWriter.format = .xlsx)
    (htext : textWriter.format = .json) (htitle : sheetWriter.title = .str title)
    (hheading : textWriter.title = .str title) (hindent : Writer.IsIndent textWriter.indent)
    (hrows : rows ≠ []) (htextual : ∀ r ∈ rows, r.IsTextual) :
    ∃ b bs text v columns, sheetWriter.Leaves rows (.workbook b) ∧
      textWriter.Leaves rows (.bytes bs) ∧
      Text.decode .utf8 bs = .ok text ∧ Json.read text = .ok v ∧
        v.get? "title" = some (.str title) ∧
      FirstOccurrences (rows.flatMap Row.columns) columns ∧
      b.mergedColumns =
        (if 1 < columns.length ∧ columns.length ≤ 16384 then some columns.length else none) ∧
      (b.cellsAt 0 0 = [⟨0, 0, .string title, .title⟩] ↔
        columns.length ≤ 16384 ∧ title.length ≤ 32767 ∧ (1 < columns.length → IsPlain title)) ∧
      ∀ place, place ∈ b.links ↔ place = (0, 0) ∧ 1 < columns.length ∧ columns.length ≤ 16384 ∧
        (IsWebLink title ∨ IsSchemeLink title) ∧ linkFits title = true := by
  obtain ⟨b, first, hb, hfirst, -, hcells, hlinks, hmerged⟩ := workbook_textual title htextual
  obtain ⟨bs, text, hleaves, hdecode, hread⟩ :=
    Writer.leaves_document htext hheading hindent hrows htextual
  have hdraft : sheetWriter.draft rows = .ok (.whole (.workbook b)) := by
    rw [Writer.draft, hsheet, htitle, hb]
    rfl
  refine ⟨b, bs, text, _, Table.unionColumns rows, Writer.leaves_artifact hrows hdraft, hleaves,
    hdecode, hread, rfl, Table.firstOccurrences_unionColumns rows, hmerged, ?_, fun place => ?_⟩
  · rw [Workbook.cellsAt, hcells, List.append_assoc, List.filter_append, filter_below_title,
      List.append_nil]
    exact filter_titleCells_iff hfirst
  · rw [hlinks]
    exact links_titleCells_iff hfirst place

/-- A title that starts with an equals sign is a text over one column, and is not over two; the
report in JSON has it. -/
theorem formula_title_in_sheet_and_report :
    let sheetWriter : Writer := { format := .xlsx, title := .str "=1+1" }
    let textWriter : Writer := { format := .json, title := .str "=1+1" }
    (∃ b, sheetWriter.Leaves [[("a", .str "x")]] (.workbook b) ∧
      b.cellsAt 0 0 = [⟨0, 0, .string "=1+1", .title⟩]) ∧
      ∃ b bs text v, sheetWriter.Leaves [[("a", .str "x"), ("b", .null)]] (.workbook b) ∧
        textWriter.Leaves [[("a", .str "x"), ("b", .null)]] (.bytes bs) ∧
          Text.decode .utf8 bs = .ok text ∧
        Json.read text = .ok v ∧ v.get? "title" = some (.str "=1+1") ∧
        b.cellsAt 0 0 ≠ [⟨0, 0, .string "=1+1", .title⟩] := by
  intro sheetWriter textWriter
  have hsheet : sheetWriter.format = .xlsx := rfl
  have htext : textWriter.format = .json := rfl
  have hlength {names columns : List String} (h : FirstOccurrences names columns)
      (hnames : names.Nodup) :
      columns.length = names.length :=
    ((List.perm_ext_iff_of_nodup h.nodup hnames).mpr h.mem_iff).length_eq
  constructor
  · let rows : List Row := [[("a", .str "x")]]
    obtain ⟨b, -, -, -, columns, hleaves, -, -, -, -, hunion, -, hcell, -⟩ :=
      title_in_sheet_and_report hsheet htext rfl rfl (.width 2)
        (show rows ≠ [] by decide) (by decide)
    have hone : columns.length = 1 := hlength hunion (by decide)
    exact ⟨b, hleaves, hcell.mpr ⟨by omega, by decide, fun hmany => by omega⟩⟩
  · let rows : List Row := [[("a", .str "x"), ("b", .null)]]
    obtain ⟨b, bs, text, v, columns, hleaves, hleaves', hdecode, hread, hget, hunion,
        -, hcell, -⟩ :=
      title_in_sheet_and_report hsheet htext rfl rfl (.width 2)
        (show rows ≠ [] by decide) (by decide)
    have htwo : columns.length = 2 := hlength hunion (by decide)
    refine ⟨b, bs, text, v, hleaves, hleaves', hdecode, hread, hget, fun htitle => ?_⟩
    have hplain : IsPlain "=1+1" := (hcell.mp htitle).2.2 (by omega)
    exact hplain.not_formula (.inl ⟨"1+1", rfl⟩)

end Title

end Sheet

end ImportAudit
