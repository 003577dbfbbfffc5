import ImportAudit.Proofs.Yaml.Cursor
import ImportAudit.Yaml.Print

/-!
# Pages

What is written only grows. A new line is started where something else than indentation stands on
the line, or where the line is too long already.
-/

namespace ImportAudit.Yaml

theorem isSpecial_eq_false_iff {c : Char} : isSpecial c = false ↔ IsWritten c := by
  unfold isSpecial IsWritten IsInline
  rw [Bool.not_eq_false', Bool.or_eq_true, beq_iff_eq, Bool.and_eq_true, decide_eq_true_eq,
    decide_eq_true_eq]
  rfl

namespace Page

variable {p : Page} {n : Nat}

def chars (p : Page) : List Char := p.text.toList

@[simp] theorem chars_put (p : Page) (cs : List Char) : (p.put cs).chars = p.chars ++ cs := by
  unfold chars put
  rw [String.toList_append, String.toList_ofList]

@[simp] theorem chars_endLine (p : Page) (c : Char) : (p.endLine c).chars = p.chars ++ [c] :=
  String.toList_push c

@[simp] theorem chars_midLine (p : Page) : p.midLine.chars = p.chars := rfl

@[simp] theorem column_midLine (p : Page) : p.midLine.column = p.column := rfl

@[simp] theorem column_put (p : Page) (cs : List Char) :
    (p.put cs).column = p.column + cs.length := rfl

theorem chars_mark (p : Page) (m : String) (spaced afterBlank keepsIndent : Bool) :
    (p.mark m spaced afterBlank keepsIndent).chars =
      p.chars ++ (if p.afterBlank || !spaced then m.toList else ' ' :: m.toList) :=
  chars_put p _

theorem indent_fresh (hcolumn : p.column = 0) (hblank : p.afterBlank = true)
    (honly : p.onlyIndented = true) :
    (p.indent n).chars = p.chars ++ List.replicate n ' ' ∧ (p.indent n).column = n := by
  unfold indent
  rw [honly, hblank, hcolumn]
  simp only [Bool.not_true, Nat.not_lt_zero, decide_false, Bool.and_false, Bool.or_self,
    Bool.false_eq_true, if_false, hcolumn, Nat.sub_zero]
  split
  · exact ⟨chars_put p _, by simp [put, hcolumn]⟩
  · have hn : n = 0 := by omega
    subst hn
    exact ⟨by simp, hcolumn⟩

theorem indent_newLine (h : p.onlyIndented = false ∨ n < p.column) :
    (p.indent n).chars = p.chars ++ '\n' :: List.replicate n ' ' ∧ (p.indent n).column = n := by
  have hbreaks : p.indent n = (p.endLine '\n').indent n := by
    have hnew :
        (!p.onlyIndented || decide (n < p.column) || (p.column == n && !p.afterBlank)) = true := by
      rcases h with h | h <;> simp [h]
    have hold : (!(p.endLine '\n').onlyIndented || decide (n < (p.endLine '\n').column) ||
        ((p.endLine '\n').column == n && !(p.endLine '\n').afterBlank)) = false := by
      simp [endLine]
    unfold indent
    rw [hnew, hold]
    rfl
  obtain ⟨hchars, hcolumn⟩ := indent_fresh (p := p.endLine '\n') (n := n) rfl rfl rfl
  rw [hbreaks, hchars, hcolumn, chars_endLine, List.append_assoc]
  exact ⟨rfl, rfl⟩

theorem afterBlank_indent (h : p.onlyIndented = false) : (p.indent n).afterBlank = true := by
  unfold indent
  rw [h]
  simp only [Bool.not_false, Bool.true_or, if_true]
  split <;> rfl

theorem chars_endLines (k : Nat) (p : Page) :
    ((List.replicate k '\n').foldl endLine p).chars = p.chars ++ List.replicate k '\n' := by
  induction k generalizing p with
  | zero => exact (List.append_nil _).symm
  | succ k ih =>
      rw [List.replicate_succ, List.foldl_cons, ih, chars_endLine, List.append_assoc]
      rfl

theorem indent_endLines (k : Nat) (p : Page) :
    (((List.replicate (k + 1) '\n').foldl endLine p).indent n).chars =
      p.chars ++ (List.replicate (k + 1) '\n' ++ List.replicate n ' ') := by
  obtain ⟨q, hq⟩ : ∃ q, (List.replicate (k + 1) '\n').foldl endLine p = endLine q '\n' := by
    refine ⟨(List.replicate k '\n').foldl endLine p, ?_⟩
    rw [List.replicate_succ', List.foldl_append]
    rfl
  have hchars := chars_endLines (k + 1) p
  rw [hq] at hchars ⊢
  rw [(indent_fresh (p := q.endLine '\n') rfl rfl rfl).1, hchars, List.append_assoc]

end Page

end ImportAudit.Yaml
