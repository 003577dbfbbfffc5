import ImportAudit.Proofs.FirstOccurrences
import ImportAudit.Table

/-!
# Rows and tables

A row is read through its columns. Columns that come once are put down as they are given, and a row
that is fitted to further columns keeps its cells; so the widest row can give its columns to all.
-/

namespace ImportAudit

def Value.isNull : Value → Bool
  | .null => true
  | _ => false

/-- Whether a value is a text, be it one that can be encoded or not. -/
def Value.isText : Value → Bool
  | str _ | torn _ => true
  | _ => false

def Value.isTextual : Value → Bool
  | .null | .str _ => true
  | _ => false

theorem Value.isTextual_iff {v : Value} : v.isTextual = true ↔ v = .null ∨ ∃ s, v = .str s := by
  cases v <;> simp [Value.isTextual]

namespace Row

variable {r : Row} {column : String} {value : Value}

theorem cell?_cons_self (rest : Row) : Row.cell? ((column, value) :: rest) column = some value := by
  simp [cell?]

theorem cell?_cons_of_ne {cell : String × Value} (hne : cell.1 ≠ column) (rest : Row) :
    Row.cell? (cell :: rest) column = Row.cell? rest column := by
  simp [cell?, hne]

theorem cell?_eq_none_iff : r.cell? column = none ↔ column ∉ r.columns := by
  simp only [cell?, columns, Option.map_eq_none_iff, List.find?_eq_none, List.mem_map, beq_iff_eq]
  constructor
  · rintro h ⟨cell, hcell, heq⟩
    exact h cell hcell heq
  · intro h cell hcell heq
    exact h ⟨cell, hcell, heq⟩

theorem mem_of_cell? (h : r.cell? column = some value) : (column, value) ∈ r := by
  obtain ⟨cell, hcell, rfl⟩ := Option.map_eq_some_iff.mp h
  have hcolumn : cell.1 = column := by simpa using List.find?_some hcell
  rw [← hcolumn]
  exact List.mem_of_find?_eq_some hcell

theorem cell?_of_mem (hnodup : r.columns.Nodup) (h : (column, value) ∈ r) :
    r.cell? column = some value := by
  induction r with
  | nil => exact absurd h List.not_mem_nil
  | cons cell r ih =>
      obtain ⟨hnew, hnodup⟩ := List.nodup_cons.mp hnodup
      rcases List.mem_cons.mp h with rfl | h
      · exact cell?_cons_self r
      · have hne : cell.1 ≠ column := fun heq => hnew (List.mem_map.mpr ⟨_, h, heq.symm⟩)
        rw [cell?_cons_of_ne hne, ih hnodup h]

/-! ## Rows of texts -/

/-- Whether every cell of a row is a text that can be encoded, or absent. -/
def IsTextual (r : Row) : Prop :=
  ∀ cell ∈ r, cell.2.isTextual = true

instance (r : Row) : Decidable r.IsTextual :=
  inferInstanceAs (Decidable (∀ cell ∈ r, _))

/-- The text in a column, which is empty where the cell is absent. -/
def textOf (r : Row) (column : String) : String :=
  match r.cell? column with
  | some (.str s) => s
  | _ => ""

theorem IsTextual.shown (h : r.IsTextual) (column : String) :
    r.shown column = .str (r.textOf column) := by
  unfold Row.shown textOf
  cases hcell : r.cell? column with
  | none => rfl
  | some v =>
      rcases Value.isTextual_iff.mp (h _ (mem_of_cell? hcell)) with hv | ⟨s, hv⟩
      · obtain rfl : v = .null := hv
        rfl
      · obtain rfl : v = .str s := hv
        by_cases hs : s = ""
        · subst hs
          rfl
        · have htruthy : (Value.str s).isTruthy = true := by simpa [Value.isTruthy] using hs
          dsimp only
          rw [Option.getD_some, if_pos htruthy]

def HasTexts (r : Row) : Prop :=
  ∀ cell ∈ r, cell.2.isNull = true ∨ cell.2.isText = true

instance (r : Row) : Decidable r.HasTexts :=
  inferInstanceAs (Decidable (∀ cell ∈ r, _))

theorem HasTexts.isText_shown (h : r.HasTexts) (column : String) :
    (r.shown column).isText = true := by
  unfold Row.shown
  cases hcell : r.cell? column with
  | none => rfl
  | some v =>
      have hv := h _ (mem_of_cell? hcell)
      dsimp only [Option.getD_some]
      split
      · rename_i htruthy
        refine hv.resolve_left fun hnull => ?_
        cases v with
        | null => cases htruthy
        | _ => cases hnull
      · rfl

theorem shown_torn {t : Text.Torn} (h : r.cell? column = some (.torn t)) :
    r.shown column = .torn t := by
  unfold Row.shown
  rw [h]
  rfl

/-! ## Cells put down one after the other -/

theorem put_of_not_mem (h : column ∉ r.columns) : put column value r = r ++ [(column, value)] := by
  induction r with
  | nil => rfl
  | cons cell r ih =>
      simp only [columns, List.map_cons, List.mem_cons, not_or] at h
      have hne : ¬(cell.1 == column) = true := by
        simpa using fun heq => h.1 heq.symm
      rw [put, if_neg hne, ih h.2, List.cons_append]

/-- Cells whose columns are all different make the row that they are. -/
theorem ofCells_of_nodup {cells : List (String × Value)} (hnodup : (cells.map (·.1)).Nodup) :
    ofCells cells = cells := by
  have hfold : ∀ (before : Row), (before.columns ++ cells.map (·.1)).Nodup →
      cells.foldl (fun r c => put c.1 c.2 r) before = before ++ cells := by
    clear hnodup
    induction cells with
    | nil => intro before _; simp
    | cons cell cells ih =>
        intro before hnodup
        have hnew : cell.1 ∉ before.columns := by
          intro hmem
          exact List.disjoint_of_nodup_append hnodup hmem List.mem_cons_self
        rw [List.foldl_cons, put_of_not_mem hnew, ih, List.append_assoc]
        · rfl
        · simpa [columns] using hnodup
  exact hfold [] (by simpa [columns] using hnodup)

/-! ## Rows fitted to columns -/

@[simp] theorem columns_fit (names : List String) (r : Row) : (r.fit names).columns = names := by
  simp [fit, columns, Function.comp_def]

theorem fit_append (names more : List String) (r : Row) :
    r.fit (names ++ more) = r.fit names ++ r.fit more := by
  simp [fit]

theorem fit_of_absent {names : List String} (h : ∀ name ∈ names, name ∉ r.columns) :
    r.fit names = names.map fun name => (name, .null) := by
  apply List.map_congr_left
  intro name hname
  rw [cell?_eq_none_iff.mpr (h name hname)]
  rfl

theorem cell?_fit {names : List String} (h : column ∈ names) :
    (r.fit names).cell? column = some ((r.cell? column).getD .null) := by
  induction names with
  | nil => exact absurd h List.not_mem_nil
  | cons name names ih =>
      by_cases heq : name = column
      · subst heq
        exact cell?_cons_self _
      · have hmem : column ∈ names := (List.mem_cons.mp h).resolve_left fun h => heq h.symm
        rw [fit, List.map_cons, cell?_cons_of_ne heq]
        exact ih hmem

theorem fit_self (hnodup : r.columns.Nodup) : r.fit r.columns = r := by
  induction r with
  | nil => rfl
  | cons cell r ih =>
      obtain ⟨hnew, hnodup⟩ := List.nodup_cons.mp hnodup
      have hrest : Row.fit (columns r) (cell :: r) = r := by
        calc Row.fit (columns r) (cell :: r) = Row.fit (columns r) r := by
              apply List.map_congr_left
              intro name hname
              have hne : cell.1 ≠ name := by
                rintro rfl
                exact hnew hname
              rw [cell?_cons_of_ne hne]
          _ = r := ih hnodup
      have hfirst : Row.cell? (cell :: r) cell.1 = some cell.2 := cell?_cons_self r
      show (cell.1, _) :: Row.fit (columns r) (cell :: r) = cell :: r
      rw [hrest, hfirst]
      rfl

end Row

namespace Table

variable {rows : List Row} {names : List String}

/-! ## The widest row -/

theorem foldl_widest (rows : List Row) (best : Row) :
    let wide := rows.foldl (fun best r => if best.length < r.length then r else best) best
    wide ∈ best :: rows ∧ ∀ r ∈ best :: rows, r.length ≤ wide.length := by
  induction rows generalizing best with
  | nil => simp
  | cons r rows ih =>
      obtain ⟨hmem, hle⟩ := ih (if best.length < r.length then r else best)
      rw [List.foldl_cons]
      have hbest := hle _ List.mem_cons_self
      refine ⟨?_, fun s hs => ?_⟩
      · rcases List.mem_cons.mp hmem with heq | hrows
        · rw [heq]
          split <;> simp
        · exact List.mem_cons_of_mem _ (List.mem_cons_of_mem _ hrows)
      · have hchoice : best.length ≤ (if best.length < r.length then r else best).length ∧
            r.length ≤ (if best.length < r.length then r else best).length := by
          split <;> omega
        rcases List.mem_cons.mp hs with rfl | hs
        · exact Nat.le_trans hchoice.1 hbest
        · rcases List.mem_cons.mp hs with rfl | hs
          · exact Nat.le_trans hchoice.2 hbest
          · exact hle s (List.mem_cons_of_mem _ hs)

theorem widest_mem (hne : rows ≠ []) : widest rows ∈ rows := by
  cases rows with
  | nil => exact absurd rfl hne
  | cons r rows => exact (foldl_widest rows r).1

theorem length_le_widest {r : Row} (hr : r ∈ rows) : r.length ≤ (widest rows).length := by
  cases rows with
  | nil => exact absurd hr List.not_mem_nil
  | cons first rows => exact (foldl_widest rows first).2 r hr

/-! ## Tables whose rows agree -/

/-- A table whose rows have the same columns is aligned. -/
theorem align_of_same_columns (hne : rows ≠ []) (hnodup : names.Nodup)
    (hsame : ∀ r ∈ rows, r.columns = names) : align rows = (names, rows) := by
  have hwidest : (widest rows).columns = names := hsame _ (widest_mem hne)
  have hfit : rows.map (Row.fit names) = rows := by
    calc rows.map (Row.fit names) = rows.map id := by
          apply List.map_congr_left
          intro r hr
          have hcolumns := hsame r hr
          rw [← hcolumns, Row.fit_self (hcolumns ▸ hnodup)]
          rfl
      _ = rows := List.map_id rows
  rw [align, hwidest, hfit]

theorem firstOccurrences_unionColumns (rows : List Row) :
    FirstOccurrences (rows.flatMap Row.columns) (unionColumns rows) :=
  firstOccurrences_eraseDups _

theorem unionColumns_of_same_columns (hne : rows ≠ []) (hnodup : names.Nodup)
    (hsame : ∀ r ∈ rows, r.columns = names) : unionColumns rows = names := by
  cases rows with
  | nil => exact absurd rfl hne
  | cons r rows =>
      have hfirst : r.columns = names := hsame r List.mem_cons_self
      have hrest : ∀ name ∈ rows.flatMap Row.columns, name ∈ names := by
        intro name hname
        obtain ⟨s, hs, hname⟩ := List.mem_flatMap.mp hname
        exact hsame s (List.mem_cons_of_mem r hs) ▸ hname
      rw [unionColumns, List.flatMap_cons, hfirst, eraseDups_append_of_subset hrest,
        eraseDups_of_nodup hnodup]

end Table

end ImportAudit
