import ImportAudit.Yaml.Cursor

/-!
# Going over written characters

What is written consists of line feeds and of the characters of ASCII from the space to the tilde.
Over those a cursor moves as one expects: to the right, or to the start of the next line.
-/

namespace ImportAudit.Yaml

def IsInline (c : Char) : Prop := 0x20 ≤ c.toNat ∧ c.toNat ≤ 0x7e

instance : DecidablePred IsInline :=
  fun c => inferInstanceAs (Decidable (0x20 ≤ c.toNat ∧ c.toNat ≤ 0x7e))

def IsWritten (c : Char) : Prop := c = '\n' ∨ IsInline c

instance : DecidablePred IsWritten := fun c => inferInstanceAs (Decidable (c = '\n' ∨ IsInline c))

section Characters

variable {c : Char}

theorem IsInline.isBreak (h : IsInline c) : isBreak c = false := by
  have hfeed : c ≠ '\n' := by
    rintro rfl
    exact absurd h (by decide)
  have hreturn : c ≠ '\r' := by
    rintro rfl
    exact absurd h (by decide)
  obtain ⟨-, hhigh⟩ := h
  unfold Yaml.isBreak
  simp only [Bool.or_eq_false_iff, beq_eq_false_iff_ne]
  exact ⟨⟨⟨⟨hfeed, hreturn⟩, by omega⟩, by omega⟩, by omega⟩

theorem IsInline.endsLine (h : IsInline c) : endsLine c = false := by
  unfold Yaml.endsLine
  rw [h.isBreak, Bool.or_false, beq_eq_false_iff_ne]
  rintro rfl
  exact absurd h (by decide)

theorem IsInline.endsWord (h : IsInline c) : endsWord c = (c == ' ') := by
  have htab : (c == '\t') = false := by
    rw [beq_eq_false_iff_ne]
    rintro rfl
    exact absurd h (by decide)
  unfold Yaml.endsWord
  rw [h.endsLine, htab, Bool.or_false, Bool.or_false]

theorem IsInline.ne_stop (h : IsInline c) : c ≠ stop := by
  rintro rfl
  exact absurd h (by decide)

theorem IsWritten.isReadable (h : IsWritten c) : isReadable c = true := by
  rcases h with rfl | ⟨hlow, hhigh⟩
  · rfl
  · unfold Yaml.isReadable
    simp [hlow, hhigh]

theorem isInline_of_all {cs : List Char} (h : (cs.all fun c => decide (IsInline c)) = true) :
    ∀ c ∈ cs, IsInline c :=
  fun c hc => of_decide_eq_true (List.all_eq_true.mp h c hc)

theorem isInline_space : IsInline ' ' := by decide

theorem isInline_replicate {n : Nat} : ∀ x ∈ List.replicate n ' ', IsInline x := by
  intro x hx
  rw [List.eq_of_mem_replicate hx]
  exact isInline_space

end Characters

def NotNext (p : Char → Bool) (rest : List Char) : Prop :=
  ∀ x ∈ rest.head?, p x = false

theorem notNext_cons {p : Char → Bool} {x : Char} {rest : List Char} (h : p x = false) :
    NotNext p (x :: rest) := by
  rintro _ ⟨⟩
  exact h

theorem takeWhile_of_notNext {p : Char → Bool} {run rest : List Char} (hrun : ∀ x ∈ run, p x = true)
    (hrest : NotNext p rest) : (run ++ rest).takeWhile p = run := by
  rw [List.takeWhile_append_of_pos hrun]
  cases rest with
  | nil => simp
  | cons x rest =>
      have hx : p x = false := hrest x rfl
      simp [hx]

namespace Cursor

variable {c : Cursor} {x y : Char} {run rest : List Char}

def past (c : Cursor) (n : Nat) (rest : List Char) : Cursor :=
  ⟨rest, c.index + n, c.line, c.column + n⟩

def newLine (c : Cursor) (rest : List Char) : Cursor := ⟨rest, c.index + 1, c.line + 1, 0⟩

theorem here_of_cons (h : c.rest = x :: rest) : c.here = x := by
  unfold here peek
  rw [h]
  rfl

theorem here_of_nil (h : c.rest = []) : c.here = stop := by
  unfold here peek
  rw [h]
  rfl

theorem peek_one_of_cons (h : c.rest = x :: y :: rest) : c.peek 1 = y := by
  unfold peek
  rw [h]
  rfl

theorem step_inline (h : c.rest = x :: rest) (hx : IsInline x) : c.step = c.past 1 rest := by
  have hmark : (x.toNat == 0xfeff) = false := by
    have := hx.2
    rw [beq_eq_false_iff_ne]
    omega
  unfold step
  rw [h]
  simp [hx.isBreak, hmark, past]

theorem step_newLine (h : c.rest = '\n' :: rest) : c.step = c.newLine rest := by
  unfold step
  rw [h]
  rfl

theorem advance_inline (h : c.rest = run ++ rest) (hrun : ∀ x ∈ run, IsInline x) :
    c.advance run.length = c.past run.length rest := by
  induction run generalizing c with
  | nil =>
      obtain ⟨_, index, line, column⟩ := c
      cases h
      rfl
  | cons x run ih =>
      have hstep : c.step = c.past 1 (run ++ rest) := step_inline h (hrun x List.mem_cons_self)
      rw [List.length_cons, advance, hstep, ih rfl fun y hy => hrun y (List.mem_cons_of_mem x hy)]
      simp only [past, Cursor.mk.injEq, true_and]
      omega

theorem takeWhile_inline {p : Char → Bool} (h : c.rest = run ++ rest)
    (hrun : ∀ x ∈ run, IsInline x ∧ p x = true) (hrest : NotNext p rest) :
    c.takeWhile p = (run, c.past run.length rest) := by
  unfold Cursor.takeWhile
  dsimp only
  rw [h, takeWhile_of_notNext (fun x hx => (hrun x hx).2) hrest, advance_inline h fun x hx =>
    (hrun x hx).1]

theorem takeWhile_none {p : Char → Bool} (h : NotNext p c.rest) : c.takeWhile p = ([], c) :=
  takeWhile_inline (show c.rest = [] ++ c.rest from rfl) (fun _ hx => absurd hx List.not_mem_nil) h

theorem skipWhile_spaces {p : Char → Bool} {n : Nat} (h : c.rest = List.replicate n ' ' ++ rest)
    (hp : p ' ' = true) (hrest : NotNext p rest) : c.skipWhile p = c.past n rest := by
  have hrun : ∀ x ∈ List.replicate n ' ', IsInline x ∧ p x = true := by
    intro x hx
    rw [List.eq_of_mem_replicate hx]
    exact ⟨isInline_space, hp⟩
  unfold skipWhile
  rw [takeWhile_inline h hrun hrest, List.length_replicate]

/-! ## Line breaks -/

theorem lineBreak_newLine (h : c.rest = '\n' :: rest) : c.lineBreak = (['\n'], c.newLine rest) := by
  unfold lineBreak
  rw [here_of_cons h, step_newLine h]
  rfl

theorem lineBreak_none (h : ∀ x ∈ c.rest.head?, IsInline x) : c.lineBreak = ([], c) := by
  cases hrest : c.rest with
  | nil =>
      unfold lineBreak
      rw [here_of_nil hrest]
      rfl
  | cons x rest =>
      have hx : IsInline x := h x (by rw [hrest]; rfl)
      have hbreak := hx.isBreak
      unfold lineBreak
      rw [here_of_cons hrest]
      unfold isBreak at hbreak
      simp only [Bool.or_eq_false_iff] at hbreak
      obtain ⟨⟨⟨⟨hfeed, hreturn⟩, hnext⟩, hline⟩, hparagraph⟩ := hbreak
      simp [hfeed, hreturn, hnext, isBreak, hline, hparagraph]

theorem atSeparator_false (h : ∀ x ∈ c.rest.head?, x ≠ '-' ∧ x ≠ '.') : c.atSeparator = false := by
  have hhere : c.here ≠ '-' ∧ c.here ≠ '.' := by
    cases hrest : c.rest with
    | nil =>
        rw [here_of_nil hrest]
        decide
    | cons x rest =>
        rw [here_of_cons hrest]
        exact h x (by rw [hrest]; rfl)
  unfold atSeparator atMark
  simp [hhere.1, hhere.2]

/-! ## The next token -/

def StartsToken (rest : List Char) : Prop :=
  ∀ x ∈ rest.head?, IsInline x ∧ x ≠ ' ' ∧ x ≠ '#'

theorem StartsToken.notNext_space (h : StartsToken rest) : NotNext (· == ' ') rest :=
  fun x hx => beq_eq_false_iff_ne.mpr (h x hx).2.1

theorem StartsToken.inline (h : StartsToken rest) : ∀ x ∈ rest.head?, IsInline x :=
  fun x hx => (h x hx).1

theorem skipComment_spaces {n : Nat} (h : c.rest = List.replicate n ' ' ++ rest)
    (hrest : NotNext (· == ' ') rest) (hmark : NotNext (· == '#') rest) :
    c.skipComment = c.past n rest := by
  have hhere : ((c.past n rest).here == '#') = false := by
    cases hrest' : rest with
    | nil => rfl
    | cons x rest' =>
        rw [here_of_cons (show (c.past n (x :: rest')).rest = x :: rest' from rfl)]
        exact hmark x (by rw [hrest']; rfl)
  unfold skipComment
  rw [skipWhile_spaces h (by rfl) hrest]
  simp only [hhere, Bool.false_eq_true, if_false]

theorem toToken_spaces {n : Nat} (h : c.rest = List.replicate n ' ' ++ rest)
    (hrest : StartsToken rest) (fuel : Nat) (broken : Bool) :
    c.toToken (fuel + 1) broken = (c.past n rest, broken) := by
  have hmark : NotNext (· == '#') rest := fun x hx => beq_eq_false_iff_ne.mpr (hrest x hx).2.2
  unfold toToken
  rw [skipComment_spaces h hrest.notNext_space hmark]
  dsimp only
  rw [lineBreak_none hrest.inline]

theorem toToken_newLine {n : Nat} (h : c.rest = '\n' :: (List.replicate n ' ' ++ rest))
    (hrest : StartsToken rest) (fuel : Nat) (broken : Bool) :
    c.toToken (fuel + 2) broken =
      ((c.newLine (List.replicate n ' ' ++ rest)).past n rest, true) := by
  have hcomment : c.skipComment = c.past 0 ('\n' :: (List.replicate n ' ' ++ rest)) :=
    skipComment_spaces (n := 0) h (notNext_cons (by rfl)) (notNext_cons (by rfl))
  have hc : c.past 0 ('\n' :: (List.replicate n ' ' ++ rest)) = c := by
    rw [← h]
    rfl
  unfold toToken
  dsimp only
  rw [hcomment, hc, lineBreak_newLine h]
  exact toToken_spaces rfl hrest fuel true

end Cursor

end ImportAudit.Yaml
