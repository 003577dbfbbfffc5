import ImportAudit.Proofs.Analysis.File
import ImportAudit.Proofs.Table
import Std.Data.String.ToNat

/-!
# The columns of file rows

The row of a file has a column for each segment of its path and then the import
columns. Rows of different depths share a prefix of the depth columns, so the row of
the deepest file has the columns of all.
-/

namespace ImportAudit

/-! ## Depth columns -/

theorem depthColumn_injective {m n : Nat} (h : depthColumn m = depthColumn n) : m = n := by
  have hnumber : toString m = toString n := by simpa [depthColumn] using h
  exact Nat.repr_injective hnumber

theorem depthColumn_not_mem_importColumns (n : Nat) : depthColumn n ∉ Table.importColumns := by
  have hhead : (depthColumn n).toList.head? = some 'd' := by simp [depthColumn]
  intro h
  simp only [Table.importColumns, List.mem_cons, List.not_mem_nil, or_false] at h
  rcases h with h | h | h <;> rw [h] at hhead <;> simp at hhead

def depthColumnsFrom (first count : Nat) : List String :=
  (List.range' first count).map depthColumn

theorem mem_depthColumnsFrom {first count n : Nat} :
    depthColumn n ∈ depthColumnsFrom first count ↔ first ≤ n ∧ n < first + count := by
  rw [depthColumnsFrom, List.mem_map]
  constructor
  · rintro ⟨m, hm, heq⟩
    rw [← depthColumn_injective heq]
    simpa using hm
  · intro h
    exact ⟨n, by simpa using h, rfl⟩

theorem nodup_depthColumnsFrom (first count : Nat) : (depthColumnsFrom first count).Nodup :=
  List.Nodup.map (fun _ _ h => depthColumn_injective h) (List.nodup_range' 1)

theorem depthColumnsFrom_append (first count more : Nat) :
    depthColumnsFrom first (count + more) =
      depthColumnsFrom first count ++ depthColumnsFrom (first + count) more := by
  rw [depthColumnsFrom, ← List.range'_append_1, List.map_append]
  rfl

namespace Table

/-- The columns of a report on files that are up to `depth` segments deep. -/
def reportColumns (depth : Nat) : List String :=
  depthColumnsFrom 1 depth ++ importColumns

theorem length_reportColumns (depth : Nat) : (reportColumns depth).length = depth + 3 := by
  simp [reportColumns, depthColumnsFrom, importColumns]

theorem nodup_reportColumns (depth : Nat) : (reportColumns depth).Nodup := by
  refine List.Nodup.append (nodup_depthColumnsFrom 1 depth) (by decide) ?_
  intro column hdepth himport
  obtain ⟨n, -, rfl⟩ := List.mem_map.mp hdepth
  exact depthColumn_not_mem_importColumns n himport

theorem mem_reportColumns {depth : Nat} {column : String} (h : column ∈ reportColumns depth) :
    (∃ n, column = depthColumn n ∧ 1 ≤ n ∧ n ≤ depth) ∨ column ∈ importColumns := by
  rcases List.mem_append.mp h with hdepth | himport
  · obtain ⟨n, hn, rfl⟩ := List.mem_map.mp hdepth
    have hle := mem_depthColumnsFrom.mp hdepth
    exact .inl ⟨n, rfl, hle.1, by omega⟩
  · exact .inr himport

theorem depthColumn_mem_reportColumns {depth n : Nat} :
    depthColumn n ∈ reportColumns depth ↔ 1 ≤ n ∧ n ≤ depth := by
  rw [reportColumns, List.mem_append, mem_depthColumnsFrom,
    or_iff_left (depthColumn_not_mem_importColumns n)]
  omega

theorem reportColumns_subset {depth wide : Nat} (hle : depth ≤ wide) :
    reportColumns depth ⊆ reportColumns wide := by
  intro column hcolumn
  rcases mem_reportColumns hcolumn with ⟨n, rfl, hpos, hn⟩ | himport
  · exact depthColumn_mem_reportColumns.mpr ⟨hpos, Nat.le_trans hn hle⟩
  · exact List.mem_append_right _ himport

end Table

/-! ## File rows -/

/-- A row as files have it: a cell for each segment of the path, then the import
cells, none of them absent. -/
structure Row.IsFileRow (depth : Nat) (r : Row) : Prop where
  columns : r.columns = Table.reportColumns depth
  present : ∀ cell ∈ r, cell.2.isNull = false

/-- How many segments a path has below the directory that holds the root. -/
def Path.depthBelow (root path : Path) : Nat :=
  ((path.relativeTo? root.parent).getD []).length

theorem pathDepths_columns {path root : Path} {depths : List (String × String)}
    (h : pathDepths path root = .ok depths) :
    depths.map (·.1) = depthColumnsFrom 1 (root.depthBelow path) := by
  unfold pathDepths at h
  cases hsegments : path.relativeTo? root.parent with
  | none => rw [hsegments] at h; cases h
  | some segments =>
      rw [hsegments] at h
      cases h
      calc (segments.zipIdx.map fun segment => (depthColumn (segment.2 + 1), segment.1)).map (·.1)
          = (segments.zipIdx.map Prod.snd).map fun i => depthColumn (i + 1) := by
            rw [List.map_map, List.map_map]
            rfl
        _ = ((List.range' 0 segments.length).map (· + 1)).map depthColumn := by
            rw [List.zipIdx_map_snd, List.map_map]
            rfl
        _ = depthColumnsFrom 1 (root.depthBelow path) := by
            rw [← List.range'_succ_left, Path.depthBelow, hsegments]
            rfl

theorem pathDepths_eq {path root : Path} {segments : List String}
    (h : path.relativeTo? root.parent = some segments) :
    ∃ depths, pathDepths path root = .ok depths ∧ depths.map (·.2) = segments ∧
      depths.map (·.1) = (List.range' 1 depths.length).map depthColumn := by
  cases hdepths : pathDepths path root with
  | error e =>
      rw [pathDepths, h] at hdepths
      cases hdepths
  | ok depths =>
      refine ⟨depths, rfl, ?_, ?_⟩
      · rw [pathDepths, h] at hdepths
        cases hdepths
        rw [List.map_map]
        exact List.zipIdx_map_fst 0 segments
      · have hcolumns := pathDepths_columns hdepths
        have hlength : depths.length = root.depthBelow path := by
          rw [← List.length_map, hcolumns, depthColumnsFrom, List.length_map, List.length_range']
        rw [hcolumns, hlength]
        rfl

theorem columns_cells {path root : Path} {depths : List (String × String)}
    (h : pathDepths path root = .ok depths) (v : Verdict) :
    ((depths ++ v.cells).map fun cell => (cell.1, Value.str cell.2)).map (·.1) =
      Table.reportColumns (root.depthBelow path) := by
  rw [List.map_map, List.map_append, Table.reportColumns, ← pathDepths_columns h]
  rfl

theorem fileRow_eq {path root : Path} {depths : List (String × String)}
    (h : pathDepths path root = .ok depths) (v : Verdict) :
    fileRow depths v = (depths ++ v.cells).map fun cell => (cell.1, Value.str cell.2) := by
  apply Row.ofCells_of_nodup
  rw [columns_cells h]
  exact Table.nodup_reportColumns _

theorem isFileRow_fileRow {path root : Path} {depths : List (String × String)}
    (h : pathDepths path root = .ok depths) (v : Verdict) :
    Row.IsFileRow (root.depthBelow path) (fileRow depths v) := by
  rw [fileRow_eq h]
  refine ⟨columns_cells h v, fun cell hcell => ?_⟩
  obtain ⟨⟨c, s⟩, -, rfl⟩ := List.mem_map.mp hcell
  rfl

theorem cell?_fileRow {path root : Path} {depths : List (String × String)}
    (h : pathDepths path root = .ok depths) {v : Verdict} {column text : String}
    (hcell : (column, text) ∈ v.cells) :
    (fileRow depths v).cell? column = some (.str text) := by
  rw [fileRow_eq h]
  apply Row.cell?_of_mem
  · change (((depths ++ v.cells).map fun cell => (cell.1, Value.str cell.2)).map (·.1)).Nodup
    rw [columns_cells h]
    exact Table.nodup_reportColumns _
  · exact List.mem_map.mpr ⟨_, List.mem_append_right depths hcell, rfl⟩

namespace Row.IsFileRow

variable {depth wide : Nat} {r : Row}

theorem mem_of_cell? (h : r.IsFileRow depth) {column : String} {value : Value}
    (hcell : r.cell? column = some value) : column ∈ Table.reportColumns depth := by
  rw [← h.columns]
  exact List.mem_map.mpr ⟨_, Row.mem_of_cell? hcell, rfl⟩

theorem length_eq (h : r.IsFileRow depth) : r.length = depth + 3 := by
  rw [← Table.length_reportColumns depth, ← h.columns, Row.columns, List.length_map]

theorem nodup (h : r.IsFileRow depth) : r.columns.Nodup := by
  rw [h.columns]
  exact Table.nodup_reportColumns depth

theorem cell?_ne_null (h : r.IsFileRow depth) (column : String) : r.cell? column ≠ some .null := by
  intro hnull
  have hpresent := h.present _ (Row.mem_of_cell? hnull)
  cases hpresent

/-- The row as part of a wider table: after its own depth columns stand the absent ones. -/
theorem fit_eq (h : r.IsFileRow depth) (hle : depth ≤ wide) :
    r.fit (Table.reportColumns wide) =
      r.fit (depthColumnsFrom 1 depth) ++
        ((depthColumnsFrom (1 + depth) (wide - depth)).map fun name => (name, .null)) ++
        r.fit Table.importColumns := by
  have hsplit : Table.reportColumns wide =
      depthColumnsFrom 1 depth ++ depthColumnsFrom (1 + depth) (wide - depth) ++
        Table.importColumns := by
    rw [← depthColumnsFrom_append, Nat.add_sub_cancel' hle]
    rfl
  have habsent : ∀ name ∈ depthColumnsFrom (1 + depth) (wide - depth), name ∉ r.columns := by
    intro name hname hmem
    obtain ⟨n, -, rfl⟩ := List.mem_map.mp hname
    have hdeep := mem_depthColumnsFrom.mp hname
    rw [h.columns] at hmem
    have hshallow := Table.depthColumn_mem_reportColumns.mp hmem
    omega
  rw [hsplit, Row.fit_append, Row.fit_append, Row.fit_of_absent habsent]

theorem filter_fit (h : r.IsFileRow depth) (hle : depth ≤ wide) :
    (r.fit (Table.reportColumns wide)).filter (fun cell => !cell.2.isNull) = r := by
  have hself : r.fit (depthColumnsFrom 1 depth) ++ r.fit Table.importColumns = r := by
    rw [← Row.fit_append]
    have hfit := Row.fit_self h.nodup
    rwa [h.columns] at hfit
  have hpresent : r.filter (fun cell => !cell.2.isNull) = r := by
    rw [List.filter_eq_self]
    intro cell hcell
    rw [h.present cell hcell]
    rfl
  have habsent :
      ((depthColumnsFrom (1 + depth) (wide - depth)).map fun name => (name, Value.null)).filter
      (fun cell => !cell.2.isNull) = [] := by
    rw [List.filter_eq_nil_iff]
    intro cell hcell
    obtain ⟨name, -, rfl⟩ := List.mem_map.mp hcell
    simp [Value.isNull]
  calc (r.fit (Table.reportColumns wide)).filter (fun cell => !cell.2.isNull)
      = (r.fit (depthColumnsFrom 1 depth) ++ r.fit Table.importColumns).filter
          (fun cell => !cell.2.isNull) := by
        rw [h.fit_eq hle, List.filter_append, List.filter_append, habsent, List.append_nil,
          List.filter_append]
    _ = r := by rw [hself, hpresent]

theorem cell?_fit_of_some (h : r.IsFileRow depth) (hle : depth ≤ wide) {column : String}
    {value : Value} (hcell : r.cell? column = some value) :
    (r.fit (Table.reportColumns wide)).cell? column = some value := by
  rw [Row.cell?_fit (Table.reportColumns_subset hle (h.mem_of_cell? hcell)), hcell]
  rfl

/-- In a wider table exactly the cells of the depths beyond the row are absent. -/
theorem cell?_fit_eq_null_iff (h : r.IsFileRow depth) {column : String}
    (hcolumn : column ∈ Table.reportColumns wide) :
    (r.fit (Table.reportColumns wide)).cell? column = some .null ↔
      ∃ n, depth < n ∧ column = depthColumn n := by
  rw [Row.cell?_fit hcolumn]
  cases hcell : r.cell? column with
  | some value =>
      have hmem := h.mem_of_cell? hcell
      have hne : value ≠ .null := fun hnull => h.cell?_ne_null column (hnull ▸ hcell)
      constructor
      · intro hnull
        exact absurd (Option.some.inj hnull) hne
      · rintro ⟨n, hn, rfl⟩
        have hshallow := Table.depthColumn_mem_reportColumns.mp hmem
        omega
  | none =>
      have hmissing : column ∉ Table.reportColumns depth := by
        rw [← h.columns]
        exact Row.cell?_eq_none_iff.mp hcell
      constructor
      · intro _
        rcases Table.mem_reportColumns hcolumn with ⟨n, rfl, hpos, -⟩ | himport
        · refine ⟨n, ?_, rfl⟩
          by_contra hshallow
          exact hmissing (Table.depthColumn_mem_reportColumns.mpr ⟨hpos, by omega⟩)
        · exact absurd (List.mem_append_right _ himport) hmissing
      · intro _
        rfl

end Row.IsFileRow

/-! ## Tables of file rows -/

/-- The widest of some file rows is that of the deepest file. -/
theorem Table.columns_widest {β : Type} {files : List β} {row : β → Row} {depth : β → Nat}
    (hrow : ∀ file ∈ files, (row file).IsFileRow (depth file)) (hne : files ≠ []) :
    ∃ deepest, (files.map depth).max? = some deepest ∧
      (widest (files.map row)).columns = reportColumns deepest := by
  have hmem : widest (files.map row) ∈ files.map row := widest_mem (by simpa using hne)
  obtain ⟨file, hfile, hwidest⟩ := List.mem_map.mp hmem
  refine ⟨depth file, ?_, by rw [← hwidest, (hrow file hfile).columns]⟩
  rw [List.max?_eq_some_iff]
  refine ⟨List.mem_map.mpr ⟨file, hfile, rfl⟩, fun n hn => ?_⟩
  obtain ⟨other, hother, rfl⟩ := List.mem_map.mp hn
  have hle := length_le_widest (List.mem_map.mpr ⟨other, hother, rfl⟩ : row other ∈ files.map row)
  rw [← hwidest, (hrow file hfile).length_eq, (hrow other hother).length_eq] at hle
  omega

end ImportAudit
