import ImportAudit.Proofs.Json.RoundTrip
import ImportAudit.Proofs.Report.Saving
import ImportAudit.Proofs.Text.Encoding

/-!
# The table in a report

A report in JSON is read back as its title, its columns and its lines. A sheet has the same
columns and lines at its places, as far as a sheet goes: it has so many rows and columns, and a
text in it so many characters.
-/

namespace ImportAudit

/-! ## Reports as values -/

def lineValue (columns : List String) (r : Row) : Value :=
  .map (columns.map fun c => (.str c, .str (r.textOf c)))

def reportValue (title : String) (columns : List String) (rows : List Row) : Value :=
  .map
    [(.str "title", .str title), (.str "columns", .list (columns.map .str)),
      (.str "rows", .list (rows.map (lineValue columns)))]

theorem line_keys (columns : List String) (r : Row) :
    ∀ e ∈ columns.map fun c => (Value.str c, Value.str (r.textOf c)), (∃ s, e.1 = .str s) ∧ ∃ s,
      e.2 = .str s := by
  intro e he
  obtain ⟨c, -, rfl⟩ := List.mem_map.mp he
  exact ⟨⟨c, rfl⟩, _, rfl⟩

theorem hasForm_line {columns : List String} (hnodup : columns.Nodup) (r : Row) :
    Json.HasForm (lineValue columns r) := by
  apply Json.HasForm.map
  · exact fun e he => (line_keys columns r e he).1
  · have hkeys :
        Value.textKeys (columns.map fun c => (.str c, .str (r.textOf c))) = columns.map id :=
      Value.textKeys_map columns id _
    rwa [hkeys, List.map_id]
  · intro e he
    obtain ⟨s, hs⟩ := (line_keys columns r e he).2
    rw [hs]
    exact .str s

theorem hasForm_reportValue (title : String) {columns : List String} (hnodup : columns.Nodup)
    (rows : List Row) :
    Json.HasForm (reportValue title columns rows) := by
  have hcolumns : Json.HasForm (.list (columns.map .str)) := by
    apply Json.HasForm.list
    intro v hv
    obtain ⟨c, -, rfl⟩ := List.mem_map.mp hv
    exact .str c
  have hlines : Json.HasForm (.list (rows.map (lineValue columns))) := by
    apply Json.HasForm.list
    intro v hv
    obtain ⟨r, -, rfl⟩ := List.mem_map.mp hv
    exact hasForm_line hnodup r
  apply Json.HasForm.map
  · simp
  · show ["title", "columns", "rows"].Nodup
    decide
  · simpa using ⟨.str title, hcolumns, hlines⟩

theorem isWritable_reportValue (title : String) (columns : List String) (rows : List Row) :
    (reportValue title columns rows).isWritable = true := by
  have hcolumns : Value.allWritable (columns.map .str) = true := by
    rw [Json.allWritable_iff]
    intro v hv
    obtain ⟨c, -, rfl⟩ := List.mem_map.mp hv
    rfl
  have hline (r : Row) : (lineValue columns r).isWritable = true := by
    rw [lineValue, Value.isWritable, Json.entriesWritable_iff fun e he =>
      (line_keys columns r e he).1]
    intro e he
    obtain ⟨s, hs⟩ := (line_keys columns r e he).2
    rw [hs]
    rfl
  have hlines : Value.allWritable (rows.map (lineValue columns)) = true := by
    rw [Json.allWritable_iff]
    intro v hv
    obtain ⟨r, -, rfl⟩ := List.mem_map.mp hv
    exact hline r
  simp [reportValue, Value.isWritable, Value.entriesWritable, hcolumns, hlines]

namespace Writer

variable {writer : Writer} {title : String} {rows : List Row} {path : Path}

theorem document_textual (title : String) (htextual : ∀ r ∈ rows, r.IsTextual) :
    document (.str title) rows = reportValue title (Table.unionColumns rows) rows := by
  have hlines : (rows.map fun r => Value.map ((Table.unionColumns rows).map fun c =>
      (.str c, r.shown c))) = rows.map (lineValue (Table.unionColumns rows)) := by
    apply List.map_congr_left
    intro r hr
    simp only [(htextual r hr).shown, lineValue]
  unfold document reportValue
  dsimp only
  rw [hlines]

/-- What a report can be indented by: nothing, a number of spaces, or a text of blanks. -/
inductive IsIndent : Value → Prop
  | none : IsIndent .null
  | flag (b : Bool) : IsIndent (.bool b)
  | width (n : Int) : IsIndent (.int n)
  | blanks {s : String} (h : Json.AreBlanks s.toList) : IsIndent (.str s)

theorem IsIndent.indentation {v : Value} (h : IsIndent v) :
    ∃ unit, indentation v = .ok unit ∧ ∀ ascii, (Json.Style.mk unit ascii).IsBlank := by
  have hspaces (n : Nat) : Json.AreBlanks (List.replicate n ' ') :=
    fun c hc => .inl (List.eq_of_mem_replicate hc)
  cases h with
  | none => exact ⟨_, rfl, fun _ unit hunit => by cases hunit⟩
  | flag b =>
      refine ⟨_, rfl, ?_⟩
      rintro ascii unit ⟨⟩
      cases b
      · exact hspaces 0
      · exact hspaces 1
  | width n =>
      refine ⟨_, rfl, ?_⟩
      rintro ascii unit ⟨⟩
      rw [String.toList_ofList]
      exact hspaces _
  | blanks hs =>
      refine ⟨_, rfl, ?_⟩
      rintro ascii unit ⟨⟩
      exact hs

theorem read_documentText (htitle : writer.title = .str title) (hindent : IsIndent writer.indent)
    (htextual : ∀ r ∈ rows, r.IsTextual) :
    ∃ text, writer.documentText rows = .ok (.ok text) ∧
      Json.read text = .ok (reportValue title (Table.unionColumns rows) rows) := by
  obtain ⟨unit, hunit, hblank⟩ := hindent.indentation
  obtain ⟨text, hprint, hread, -⟩ := Json.read_print (hblank false)
    (hasForm_reportValue title (Table.firstOccurrences_unionColumns rows).nodup rows)
    (isWritable_reportValue _ _ _)
  rw [← document_textual title htextual, ← htitle] at hprint
  refine ⟨text, ?_, hread⟩
  unfold documentText
  exact bind_eq_ok_iff.mpr ⟨unit, hunit, Json.printCharacters_of_print hprint⟩

/-- At every path that accepts a file and has no link beside it, a writer leaves
a content for rows. -/
def Leaves (writer : Writer) (rows : List Row) (c : Content) : Prop :=
  ∀ (path : Path) (w : World), path.name ≠ "" → w.files.Accepts path →
    w.files.linkAt? path.temporary = none →
    ∃ w' place, writer.export_ rows path w = (.ok path, w') ∧ w.files.locate path = .ok place ∧
      w'.files.entryAt? place = some (.file c) ∧
      (w.files.linkAt? path = none → w'.files.entry path = .ok (place, .file c))

theorem leaves_artifact (hrows : rows ≠ []) {c : Content}
    (hdraft : writer.draft rows = .ok (.whole c)) :
    writer.Leaves rows c := by
  intro path w hname haccepts hlink
  rcases (export_saves hname hrows hdraft).allOrNothing hname hlink with
    ⟨w', hexport, -, hreplaced⟩ | ⟨f, w', -, hrefuses, -⟩
  · obtain ⟨place, hplace, hsaved⟩ := hreplaced.saved
    refine ⟨w', place, hexport, hplace, hsaved, fun hnolink => ?_⟩
    obtain ⟨place', hplace', hentry⟩ := hreplaced.entry hname haccepts hlink hnolink
    rwa [Except.ok.inj (hplace.symm.trans hplace')]
  · exact absurd haccepts hrefuses

theorem leaves_document (hformat : writer.format = .json) (htitle : writer.title = .str title)
    (hindent : IsIndent writer.indent) (hrows : rows ≠ []) (htextual : ∀ r ∈ rows, r.IsTextual) :
    ∃ bs text, writer.Leaves rows (.bytes bs) ∧ Text.decode .utf8 bs = .ok text ∧
      Json.read text = .ok (reportValue title (Table.unionColumns rows) rows) := by
  obtain ⟨text, htext, hread⟩ := read_documentText htitle hindent htextual
  refine ⟨Text.encodeUtf8 text, text, leaves_artifact hrows ?_, Text.decode_encodeUtf8 text, hread⟩
  rw [draft, hformat, htext]
  rfl

/-- A report in JSON is decoded as its title, its columns, each once and in the order of first
appearance, and its lines. -/
theorem report_decodes_to_table (hformat : writer.format = .json)
    (htitle : writer.title = .str title) (hindent : IsIndent writer.indent) (hrows : rows ≠ [])
    (htextual : ∀ r ∈ rows, r.IsTextual) :
    ∃ bs text columns, writer.Leaves rows (.bytes bs) ∧ Text.decode .utf8 bs = .ok text ∧
      Json.read text = .ok (reportValue title columns rows) ∧
        FirstOccurrences (rows.flatMap Row.columns) columns := by
  obtain ⟨bs, text, hleaves, hdecode, hread⟩ :=
    leaves_document hformat htitle hindent hrows htextual
  exact ⟨bs, text, Table.unionColumns rows, hleaves, hdecode, hread,
    Table.firstOccurrences_unionColumns rows⟩

/-- Lines with different columns, texts that are escaped and texts beyond ASCII. -/
theorem ragged_report_decodes :
    let writer : Writer := { format := .json, title := .str "a\\b\"", indent := .int 4 }
    let rows : List Row := [[("a", .str "x\ny"), ("b", .null)], [("é", .str "😀\t"), ("a", .str "")]]
    writer.format = .json ∧ writer.title = .str "a\\b\"" ∧ IsIndent writer.indent ∧ rows ≠ [] ∧
      (∀ r ∈ rows, r.IsTextual) ∧
      ∃ bs text columns, writer.Leaves rows (.bytes bs) ∧ Text.decode .utf8 bs = .ok text ∧
        Json.read text = .ok (reportValue "a\\b\"" columns rows) ∧
          FirstOccurrences (rows.flatMap Row.columns) columns := by
  intro writer rows
  have hrows : rows ≠ [] := by decide
  have htextual : ∀ r ∈ rows, r.IsTextual := by decide
  exact ⟨rfl, rfl, .width 4, hrows, htextual,
    report_decodes_to_table rfl rfl (.width 4) hrows htextual⟩

end Writer

/-! ## Places of a table -/

namespace Value

variable {title : String} {columns : List String} {rows : List Row}

def item? (v : Value) (i : Nat) : Option Value :=
  match v with
  | list xs => xs[i]?
  | _ => none

def columnAt? (v : Value) (j : Nat) : Option String :=
  ((v.get? "columns").bind (·.item? j)).bind textKey?

def cellAt? (v : Value) (i j : Nat) : Option String :=
  (v.columnAt? j).bind fun c => (((v.get? "rows").bind (·.item? i)).bind (·.get? c)).bind textKey?

theorem lookup_map {f : String → Value} {c : String} (h : c ∈ columns) :
    lookup (str c) (columns.map fun d => (str d, f d)) = some (f c) := by
  induction columns with
  | nil => exact absurd h List.not_mem_nil
  | cons d columns ih =>
      rw [List.map_cons]
      by_cases heq : d = c
      · subst heq
        exact lookup_cons_of_eq rfl _
      · have hkey : (str d).textKey? ≠ some c := fun h => heq (Option.some.inj h)
        rw [lookup_cons_of_ne hkey]
        exact ih ((List.mem_cons.mp h).resolve_left fun h => heq h.symm)

theorem columnAt?_reportValue (title : String) (columns : List String) (rows : List Row) (j : Nat) :
    (reportValue title columns rows).columnAt? j = columns[j]? := by
  show (columns.map str)[j]?.bind textKey? = columns[j]?
  rw [List.getElem?_map]
  cases columns[j]? <;> rfl

theorem cellAt?_reportValue (title : String) (columns : List String) (rows : List Row) (i j : Nat) :
    (reportValue title columns rows).cellAt? i j = rows[i]?.bind fun r =>
      columns[j]?.map r.textOf := by
  rw [cellAt?, columnAt?_reportValue]
  cases hcolumn : columns[j]? with
  | none => cases rows[i]? <;> rfl
  | some c =>
      show (((rows.map (lineValue columns))[i]?).bind fun l => l.get? c).bind textKey? = _
      rw [List.getElem?_map]
      cases rows[i]? with
      | none => rfl
      | some r =>
          show (lookup (str c) (columns.map fun d => (str d, str (r.textOf d)))).bind textKey? = _
          rw [lookup_map (List.mem_of_getElem? hcolumn)]
          rfl

end Value

namespace Sheet

variable {sheetWriter textWriter : Writer} {title heading : String} {rows : List Row}

/-- The places of a sheet hold the table of the report in JSON: below the title its
columns, and below these its lines. A place beyond the last row or column of a sheet
is empty, and a text is cut. -/
theorem sheet_holds_table_of_report (hsheet : sheetWriter.format = .xlsx)
    (htext : textWriter.format = .json) (htitle : sheetWriter.title = .str title)
    (hheading : textWriter.title = .str heading) (hindent : Writer.IsIndent textWriter.indent)
    (hrows : rows ≠ []) (htextual : ∀ r ∈ rows, r.IsTextual) :
    ∃ b bs text v, sheetWriter.Leaves rows (.workbook b) ∧ textWriter.Leaves rows (.bytes bs) ∧
      Text.decode .utf8 bs = .ok text ∧ Json.read text = .ok v ∧
      (∀ j, b.cellsAt 1 j = ((v.columnAt? j).map (textAt 1 j .plain)).getD []) ∧
      (∀ i j,
        b.cellsAt (i + 2) j =
          ((v.cellAt? i j).map fun t => textAt (i + 2) j (styleOf t) t).getD []) ∧
      ∀ t, (cut t).toList = t.toList.take 32767 := by
  obtain ⟨b, hb, hcolumns, hcells⟩ := cellsAt_workbook title htextual
  obtain ⟨bs, text, hleaves, hdecode, hread⟩ :=
    Writer.leaves_document htext hheading hindent hrows htextual
  have hdraft : sheetWriter.draft rows = .ok (.whole (.workbook b)) := by
    rw [Writer.draft, hsheet, htitle, hb]
    rfl
  refine ⟨b, bs, text, _, Writer.leaves_artifact hrows hdraft, hleaves, hdecode, hread, fun j => ?_,
    fun i j => ?_, toList_cut⟩
  · rw [Value.columnAt?_reportValue, hcolumns]
  · rw [Value.cellAt?_reportValue, hcells]
    cases rows[i]? with
    | none => rfl
    | some r => cases (Table.unionColumns rows)[j]? <;> rfl

/-- Two lines that have one column in common, one of them with a line break. -/
theorem sheet_holds_ragged_table :
    let sheetWriter : Writer := { format := .xlsx }
    let textWriter : Writer := { format := .json, indent := .null }
    let rows : List Row := [[("a", .str "x\ny"), ("b", .null)], [("é", .str "😀"), ("a", .str "")]]
    sheetWriter.format = .xlsx ∧ textWriter.format = .json ∧
      sheetWriter.title = .str "Analysis Result" ∧
      textWriter.title = .str "Analysis Result" ∧ Writer.IsIndent textWriter.indent ∧ rows ≠ [] ∧
      (∀ r ∈ rows, r.IsTextual) ∧
      ∃ b bs text v, sheetWriter.Leaves rows (.workbook b) ∧ textWriter.Leaves rows (.bytes bs) ∧
        Text.decode .utf8 bs = .ok text ∧ Json.read text = .ok v ∧
        (∀ j, b.cellsAt 1 j = ((v.columnAt? j).map (textAt 1 j .plain)).getD []) ∧
        (∀ i j,
          b.cellsAt (i + 2) j =
            ((v.cellAt? i j).map fun t => textAt (i + 2) j (styleOf t) t).getD []) ∧
        ∀ t, (cut t).toList = t.toList.take 32767 := by
  intro sheetWriter textWriter rows
  have hrows : rows ≠ [] := by decide
  have htextual : ∀ r ∈ rows, r.IsTextual := by decide
  exact ⟨rfl, rfl, rfl, rfl, .none, hrows, htextual,
    sheet_holds_table_of_report rfl rfl rfl rfl .none hrows htextual⟩

/-- A text of 32768 characters stands in the report in JSON, and one of 32767 in the sheet. -/
theorem long_text_cut_in_sheet :
    let long := String.ofList (List.replicate 32768 'a')
    let short := String.ofList (List.replicate 32767 'a')
    let rows : List Row := [[("a", .str long)]]
    ∃ b bs text v, Writer.Leaves { format := .xlsx } rows (.workbook b) ∧
      Writer.Leaves { format := .json } rows (.bytes bs) ∧
      Text.decode .utf8 bs = .ok text ∧ Json.read text = .ok v ∧ v.cellAt? 0 0 = some long ∧
      b.cellsAt 2 0 = [⟨2, 0, .string short, .plain⟩] ∧ short ≠ long := by
  intro long short rows
  have hformat : Writer.format { format := .json } = .json := rfl
  have htextual : ∀ r ∈ rows, r.IsTextual := by
    intro r hr cell hcell
    obtain rfl := List.mem_singleton.mp hr
    obtain rfl := List.mem_singleton.mp hcell
    rfl
  have hrows : rows ≠ [] := List.cons_ne_nil _ _
  have hcolumns : Table.unionColumns rows = ["a"] := rfl
  have htext : Row.textOf [("a", .str long)] "a" = long := rfl
  have hcut : cut long = short := by
    apply String.toList_inj.mp
    rw [toList_cut, String.toList_ofList, String.toList_ofList, List.take_replicate]
    rfl
  have hstyle : styleOf long = .plain := by
    apply if_neg
    rw [String.toList_ofList, List.mem_replicate]
    decide
  have hne : short ≠ long := by
    intro heq
    have hlength := congrArg String.length heq
    rw [String.length_ofList, String.length_ofList, List.length_replicate,
      List.length_replicate] at hlength
    omega
  obtain ⟨b, hb, -, hcells⟩ := cellsAt_workbook "Analysis Result" htextual
  obtain ⟨bs, text, hleaves, hdecode, hread⟩ :=
    Writer.leaves_document hformat rfl (.width 2) hrows htextual
  have hdraft : Writer.draft { format := .xlsx } rows = .ok (.whole (.workbook b)) := by
    show Except.ok (Draft.ofWorkbook (workbook (.str "Analysis Result") rows)) = _
    rw [hb]
    rfl
  refine ⟨b, bs, text, _, Writer.leaves_artifact hrows hdraft, hleaves, hdecode, hread, ?_, ?_, hne⟩
  · rw [Value.cellAt?_reportValue, hcolumns]
    exact congrArg some htext
  · rw [hcells, hcolumns]
    show textAt 2 0 (styleOf long) long = _
    rw [hstyle, textAt, if_pos (by decide), hcut]

end Sheet

end ImportAudit
