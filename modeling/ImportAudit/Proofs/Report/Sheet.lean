import ImportAudit.Proofs.Analysis.Failures
import ImportAudit.Proofs.Table
import ImportAudit.Report.Sheet

/-!
# The cells of a sheet

A sheet is read place by place. Of a report whose cells are texts, the second row has the columns
and each further row a line of the report, as far as a sheet goes.
-/

namespace ImportAudit

def Workbook.cellsAt (b : Workbook) (row column : Nat) : List Cell :=
  b.cells.filter fun c => c.row == row && c.column == column

namespace Sheet

theorem toList_cut (s : String) : (cut s).toList = s.toList.take maxText := by
  unfold cut
  split
  · rw [String.toList_ofList]
  · rename_i hshort
    rw [List.take_of_length_le]
    rw [String.length_toList]
    exact Nat.le_of_not_lt hshort

def textAt (row column : Nat) (style : CellStyle) (s : String) : List Cell :=
  if row < maxRows ∧ column < maxColumns then [⟨row, column, .string (cut s), style⟩] else []

def styleOf (s : String) : CellStyle :=
  if '\n' ∈ s.toList then .wrapped else .plain

theorem textCell_str (row column : Nat) (style : CellStyle) (s : String) :
    ∃ c, textCell row column style (.str s) = .ok c ∧ c.toList = textAt row column style s := by
  unfold textCell textAt
  split
  · exact ⟨_, rfl, rfl⟩
  · exact ⟨_, rfl, rfl⟩

theorem dataCell_textual {r : Row} (h : r.IsTextual) (row column : Nat) (name : String) :
    ∃ c, dataCell row column (r.shown name) = .ok c ∧
      c.toList = textAt row column (styleOf (r.textOf name)) (r.textOf name) := by
  unfold dataCell
  rw [h.shown name]
  have hstyle : (if (r.textOf name).toList.contains '\n' then CellStyle.wrapped else .plain) =
      styleOf (r.textOf name) := by
    simp [styleOf]
  dsimp only
  rw [hstyle]
  exact textCell_str row column _ _

/-! ## Cells one after the other -/

section Positions

variable {α β : Type}

theorem mapM_filterMap {f : α → Except Failure (Option β)} {g : α → List β}
    {xs : List α} (h : ∀ x ∈ xs, ∃ c, f x = .ok c ∧ c.toList = g x) :
    (do return (← xs.mapM f).filterMap id : Except Failure (List β)) = .ok (xs.flatMap g) := by
  obtain ⟨cs, hcs, hg⟩ : ∃ cs, xs.mapM f = .ok cs ∧ cs.filterMap id = xs.flatMap g := by
    induction xs with
    | nil => exact ⟨[], rfl, rfl⟩
    | cons x xs ih =>
        obtain ⟨c, hc, hx⟩ := h x List.mem_cons_self
        obtain ⟨cs, hcs, hxs⟩ := ih fun y hy => h y (List.mem_cons_of_mem x hy)
        refine ⟨c :: cs, ?_, ?_⟩
        · rw [List.mapM_cons, hc, hcs]
          rfl
        · rw [List.flatMap_cons, ← hx, ← hxs]
          cases c <;> rfl
  rw [hcs, ← hg]
  rfl

/-- Of a list that is gone through with its positions, what stands at one of them. -/
theorem flatMap_zipIdx_at (xs : List α) (g : α → List β) (n j : Nat) :
    ((xs.zipIdx n).flatMap fun x => if x.2 = j then g x.1 else []) =
      if j < n then [] else (xs[j - n]?.map g).getD [] := by
  induction xs generalizing n with
  | nil => simp
  | cons x xs ih =>
      rw [List.zipIdx_cons, List.flatMap_cons, ih]
      rcases Nat.lt_trichotomy j n with hlt | heq | hgt
      · simp [hlt, Nat.lt_succ_of_lt hlt, Nat.ne_of_gt hlt]
      · simp [heq]
      · obtain ⟨k, rfl⟩ : ∃ k, j = n + 1 + k := ⟨j - (n + 1), by omega⟩
        have hk : n + 1 + k - n = k + 1 := by omega
        simp [hk,
          show ¬n + 1 + k < n + 1 by
            omega, show ¬n + 1 + k < n by omega, show n ≠ n + 1 + k by omega]

end Positions

/-! ## Rows of cells -/

def textRow (row : Nat) (names : List String) (style : String → CellStyle)
    (text : String → String) : List Cell :=
  names.zipIdx.flatMap fun c => textAt row c.2 (style c.1) (text c.1)

theorem filter_textRow (row i j : Nat) (names : List String) (style : String → CellStyle)
    (text : String → String) :
    (textRow row names style text).filter (fun c => c.row == i && c.column == j) =
      if row = i then (names[j]?.map fun c => textAt i j (style c) (text c)).getD [] else [] := by
  have hcell (c : String × Nat) :
      (textAt row c.2 (style c.1) (text c.1)).filter (fun c => c.row == i && c.column == j) =
        if row = i then if c.2 = j then textAt i j (style c.1) (text c.1) else [] else [] := by
    unfold textAt
    by_cases hi : row = i <;> by_cases hj : c.2 = j <;> split <;> simp_all
  unfold textRow
  rw [List.filter_flatMap]
  simp only [hcell]
  by_cases hi : row = i
  · have hat := flatMap_zipIdx_at names (fun c => textAt i j (style c) (text c)) 0 j
    simpa [hi] using hat
  · simp [hi]

theorem headerCells_eq (columns : List String) :
    headerCells columns = .ok (textRow 1 columns (fun _ => .plain) id) :=
  mapM_filterMap fun c _ => textCell_str 1 c.2 .plain c.1

theorem rowCells_textual {r : Row} (h : r.IsTextual) (columns : List String) (row : Nat) :
    rowCells columns row r = .ok (textRow row columns (fun c => styleOf (r.textOf c)) r.textOf) :=
  mapM_filterMap fun c _ => dataCell_textual h row c.2 c.1

theorem titleCells_str (title : String) (columns : Nat) :
    ∃ first, titleCells (.str title) columns = .ok first ∧ ∀ c ∈ first.1, c.row = 0 := by
  unfold titleCells
  split
  · exact ⟨_, rfl, fun c hc => absurd hc List.not_mem_nil⟩
  · split
    · have hblank {c : Cell} (hc : c ∈ (List.range (columns - 1)).map fun i =>
          Cell.mk 0 (i + 1) .blank .title) : c.row = 0 := by
        obtain ⟨i, -, rfl⟩ := List.mem_map.mp hc
        rfl
      have htitle : typedTitle (.str title) = .ok (typedText title) := rfl
      rw [htitle]
      cases typedText title with
      | none => exact ⟨_, rfl, fun c hc => hblank hc⟩
      | some typed =>
          refine ⟨_, rfl, fun c hc => ?_⟩
          rcases List.mem_cons.mp hc with rfl | hc
          · rfl
          · exact hblank hc
    · exact ⟨_, rfl, fun c hc => by rw [List.mem_singleton.mp hc]⟩

def textLines (columns : List String) (rows : List Row) : List Cell :=
  rows.zipIdx.flatMap fun r => textRow (r.2 + 2) columns
    (fun c => styleOf (r.1.textOf c)) r.1.textOf

theorem mapM_rowCells_textual {rows : List Row} (h : ∀ r ∈ rows, r.IsTextual)
    (columns : List String) :
    (rows.zipIdx.mapM fun r => rowCells columns (r.2 + 2) r.1) =
      .ok (rows.zipIdx.map fun r => textRow (r.2 + 2) columns
        (fun c => styleOf (r.1.textOf c)) r.1.textOf) := by
  rw [mapM_eq_ok_iff, List.map_map]
  apply List.map_congr_left
  intro r hr
  exact rowCells_textual (h r.1 (List.fst_mem_of_mem_zipIdx hr)) _ _

/-- A report of texts has a workbook: a title, the columns, and the lines. -/
theorem workbook_textual (title : String) {rows : List Row} (h : ∀ r ∈ rows, r.IsTextual) :
    ∃ b first, workbook (.str title) rows = .ok b ∧
      titleCells (.str title) (Table.unionColumns rows).length = .ok first ∧
      (∀ c ∈ first.1, c.row = 0) ∧
      b.cells = first.1 ++ textRow 1 (Table.unionColumns rows)
        (fun _ => .plain) id ++ textLines (Table.unionColumns rows) rows ∧
      b.links = first.2 ∧
      b.mergedColumns = if 1 < (Table.unionColumns rows).length ∧
        (Table.unionColumns rows).length ≤ maxColumns then
        some (Table.unionColumns rows).length else none := by
  obtain ⟨first, htitle, hfirst⟩ := titleCells_str title (Table.unionColumns rows).length
  unfold workbook
  dsimp only
  rw [htitle, headerCells_eq, mapM_rowCells_textual h]
  exact ⟨_, first, rfl, rfl, hfirst, by rw [textLines, List.flatMap_def], rfl, rfl⟩

/-! ## Sheets that cannot be made -/

section Failures

variable {P : Failure → Prop} {title : Value} {rows : List Row} {v : Value}

theorem text_failsOnly (v : Value) : FailsOnly Failure.IsUnforeseen (text v) := by
  unfold text
  split
  · exact .ok _
  · unfold tornText
    split
    · exact .ok _
    · exact .error rfl
  · exact .error rfl
  · split
    · exact .error rfl
    · split <;> exact .error rfl

theorem textCell_failsOnly (h : FailsOnly P (text v)) (row column : Nat) (style : CellStyle) :
    FailsOnly P (textCell row column style v) := by
  unfold textCell
  split
  · exact .map h _
  · exact .ok _

theorem dataCell_failsOnly (row column : Nat) (v : Value) :
    FailsOnly Failure.IsUnforeseen (dataCell row column v) := by
  unfold dataCell
  split
  all_goals first | exact textCell_failsOnly (text_failsOnly _) _ _ _ | exact .error rfl

theorem typedTitle_failsOnly (title : Value) :
    FailsOnly Failure.IsUnforeseen (typedTitle title) := by
  have hnumber (x : Double) : FailsOnly Failure.IsUnforeseen (number x) := by
    cases x <;> first | exact .ok _ | exact .error rfl
  unfold typedTitle
  dsimp only
  split
  case h_3 =>
    split
    · exact .error rfl
    · exact .map (hnumber _) _
  case h_6 t =>
    split
    · exact .map (text_failsOnly (.torn t)) _
    · exact .error rfl
    · exact .ok _
  case h_7 =>
    refine .map ?_ _
    unfold bytesNumber
    dsimp only
    split
    · exact hnumber _
    · exact .error rfl
  case h_9 =>
    split
    · exact .error rfl
    · exact .map (hnumber _) _
  all_goals first | exact .ok _ | exact .error rfl | exact .map (hnumber _) _

theorem titleCells_failsOnly (htyped : FailsOnly P (typedTitle title))
    (htext : FailsOnly P (text title)) (columns : Nat) :
    FailsOnly P (titleCells title columns) := by
  unfold titleCells
  split
  · exact .ok _
  · split
    · refine .bind htyped fun first _ => ?_
      split <;> exact .ok _
    · exact .bind htext fun _ _ => .ok _

theorem workbook_failsOnly
    (htitle : FailsOnly P (titleCells title (Table.unionColumns rows).length))
    (hrows : ∀ r ∈ rows, ∀ row column name, FailsOnly P (dataCell row column (r.shown name))) :
    FailsOnly P (workbook title rows) := by
  unfold workbook
  dsimp only
  rw [headerCells_eq]
  refine .bind htitle fun first _ => .bind (.ok _) fun header _ => .bind ?_ fun data _ => .ok _
  refine .mapM fun r hr => .bind (.mapM fun c _ => ?_) fun _ _ => .ok _
  exact hrows r.1 (List.fst_mem_of_mem_zipIdx hr) _ _ _

theorem workbook_isUnforeseen (title : Value) (rows : List Row) :
    FailsOnly Failure.IsUnforeseen (workbook title rows) :=
  workbook_failsOnly (titleCells_failsOnly (typedTitle_failsOnly _) (text_failsOnly _) _)
    fun _ _ row column _ => dataCell_failsOnly row column _

theorem text_isUnencodable (h : v.isText = true) : FailsOnly Failure.IsUnencodable (text v) := by
  cases v with
  | str s => exact .ok _
  | torn t =>
      show FailsOnly _ (tornText t)
      unfold tornText
      split
      · exact .ok _
      · exact .error ⟨_, rfl⟩
  | _ => cases h

theorem workbook_isUnencodable (htitle : title.isText = true) (hrows : ∀ r ∈ rows, r.HasTexts) :
    FailsOnly Failure.IsUnencodable (workbook title rows) := by
  refine workbook_failsOnly (titleCells_failsOnly ?_ (text_isUnencodable htitle) _)
    fun r hr row column name => ?_
  · cases title with
    | str s => exact .ok _
    | torn t =>
        unfold typedTitle
        dsimp only
        split
        · exact .map (text_isUnencodable (v := .torn t) rfl) _
        · exact .error ⟨_, rfl⟩
        · exact .ok _
    | _ => cases htitle
  · have htext := (hrows r hr).isText_shown name
    generalize r.shown name = v at htext
    cases v with
    | str s => exact textCell_failsOnly (text_isUnencodable rfl) _ _ _
    | torn t => exact textCell_failsOnly (text_isUnencodable rfl) _ _ _
    | _ => cases htext

end Failures

/-! ## The places of a report -/

theorem filter_title {first : List Cell} (h : ∀ c ∈ first, c.row = 0) {i : Nat}
    (hi : i ≠ 0) (j : Nat) :
    first.filter (fun c => c.row == i && c.column == j) = [] := by
  apply List.filter_eq_nil_iff.mpr
  intro c hc
  simp [h c hc, Ne.symm hi]

theorem filter_textLines (columns : List String) (rows : List Row) (i j : Nat) :
    (textLines columns rows).filter (fun c => c.row == i && c.column == j) =
      if i < 2 then [] else (rows[i - 2]?.map fun r =>
        (columns[j]?.map fun c => textAt i j (styleOf (r.textOf c)) (r.textOf c)).getD
          []).getD [] := by
  unfold textLines
  rw [List.filter_flatMap]
  simp only [filter_textRow]
  by_cases hi : i < 2
  · rw [if_pos hi, List.flatMap_eq_nil_iff]
    intro r _
    rw [if_neg (by omega)]
  · have hat := flatMap_zipIdx_at rows
      (fun r => (columns[j]?.map fun c => textAt i j (styleOf (r.textOf c)) (r.textOf c)).getD []) 0
        (i - 2)
    have hrow (n : Nat) : n + 2 = i ↔ n = i - 2 := by omega
    simpa [hi, hrow] using hat

/-- What the places below the title hold. -/
theorem cellsAt_workbook (title : String) {rows : List Row} (h : ∀ r ∈ rows, r.IsTextual) :
    ∃ b, workbook (.str title) rows = .ok b ∧
      (∀ j, b.cellsAt 1 j = ((Table.unionColumns rows)[j]?.map (textAt 1 j .plain)).getD []) ∧
      ∀ i j, b.cellsAt (i + 2) j = (rows[i]?.map fun r =>
        ((Table.unionColumns rows)[j]?.map fun c =>
          textAt (i + 2) j (styleOf (r.textOf c)) (r.textOf c)).getD []).getD [] := by
  obtain ⟨b, first, hb, -, hfirst, hcells, -⟩ := workbook_textual title h
  refine ⟨b, hb, fun j => ?_, fun i j => ?_⟩
  · rw [Workbook.cellsAt, hcells, List.filter_append, List.filter_append,
      filter_title hfirst (by decide), filter_textRow, filter_textLines]
    simp
  · rw [Workbook.cellsAt, hcells, List.filter_append, List.filter_append,
      filter_title hfirst (by omega), filter_textRow, filter_textLines, if_neg (by omega),
      if_neg (by omega)]
    rfl

end Sheet

end ImportAudit
