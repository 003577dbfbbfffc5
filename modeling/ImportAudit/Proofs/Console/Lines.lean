import ImportAudit.Console
import ImportAudit.Proofs.Text.LowerContext
import ImportAudit.Text.Printable

/-!
# Texts that fit a line

A text of printable characters that fits the width is printed as one line. Of any text the first
line is a start of it, with blanks after it at most.
-/

namespace ImportAudit.Console

variable {cs u v w : List Char} {c : Char} {width : Nat}

/-! ## Cells -/

/-- Whether no character of a text joins those around it, and spaces are the only blanks in it. -/
structure IsPlain (cs : List Char) : Prop where
  unjoined : joiner ∉ cs
  spaces : ∀ c ∈ cs, Text.isBlank c = true → c = ' '

theorem IsPlain.of_subset (h : IsPlain cs) (hu : ∀ c ∈ u, c ∈ cs) : IsPlain u :=
  ⟨fun hc => h.unjoined (hu _ hc), fun c hc => h.spaces c (hu c hc)⟩

theorem isPlain_append : IsPlain (u ++ v) ↔ IsPlain u ∧ IsPlain v := by
  constructor
  · intro h
    exact ⟨h.of_subset fun c => List.mem_append_left v, h.of_subset fun c =>
      List.mem_append_right u⟩
  · rintro ⟨hu, hv⟩
    refine ⟨fun hc => ?_, fun c hc => ?_⟩
    · exact (List.mem_append.mp hc).elim hu.unjoined hv.unjoined
    · exact (List.mem_append.mp hc).elim (hu.spaces c) (hv.spaces c)

theorem IsPlain.tail (h : IsPlain (c :: cs)) : IsPlain cs :=
  h.of_subset fun _ => List.mem_cons_of_mem c

theorem IsPlain.not_mem_of_blank (h : IsPlain cs) {d : Char} (hblank : Text.isBlank d = true)
    (hne : d ≠ ' ') : d ∉ cs :=
  fun hd => hne (h.spaces d hd hblank)

theorem widens_space : widens ' ' = false := by
  rw [widens, Text.inRanges_eq]
  decide +kernel

theorem cellsFrom_space (skip : Bool) (cs : List Char) :
    cellsFrom (some ' ') skip cs = cellsFrom none skip cs := by
  induction cs generalizing skip with
  | nil => rfl
  | cons c cs ih => simp [cellsFrom, ih, widens_space]

/-- Whether a character has a glyph of its own wherever no joiner stands before it. -/
def HasGlyph (c : Char) : Prop :=
  (c == joiner) = false ∧ (c == presentationMark) = false ∧ charWidth c ≠ 0

theorem hasGlyph_space : HasGlyph ' ' := by
  refine ⟨?_, ?_, ?_⟩ <;> decide

/-- The cells before a glyph and those after it are counted apart. -/
theorem cellsFrom_append_glyph (hu : joiner ∉ u) (hc : HasGlyph c) (last : Option Char)
    (v : List Char) :
    cellsFrom last false (u ++ c :: v) = cellsFrom last false u +
      (charWidth c + cellsFrom (some c) false v) := by
  obtain ⟨hjoiner, hmark, hwidth⟩ := hc
  induction u generalizing last with
  | nil => simp [cellsFrom, hjoiner, hmark, hwidth]
  | cons d u ih =>
      obtain ⟨hd, hu⟩ := List.ne_and_not_mem_of_not_mem_cons hu
      have hunjoined : (d == joiner) = false := beq_eq_false_iff_ne.mpr fun heq => hd heq.symm
      simp only [List.cons_append, cellsFrom, hunjoined, Bool.false_eq_true, if_false]
      split
      · cases last with
        | none => exact ih hu none
        | some l => rw [ih hu none, Nat.add_assoc]
      · split
        · exact ih hu last
        · rw [ih hu (some d), Nat.add_assoc]

theorem cells_concat (hu : joiner ∉ u) (hc : HasGlyph c) :
    cells (u ++ [c]) = cells u + charWidth c :=
  cellsFrom_append_glyph hu hc none []

theorem cells_append_space (hu : joiner ∉ u) (v : List Char) :
    cells (u ++ ' ' :: v) = cells (u ++ [' ']) + cells v := by
  rw [cells_concat hu hasGlyph_space, cells, cellsFrom_append_glyph hu hasGlyph_space,
    cellsFrom_space, Nat.add_assoc]
  rfl

theorem cellsFrom_le_append (last : Option Char) (skip : Bool) (u v : List Char) :
    cellsFrom last skip u ≤ cellsFrom last skip (u ++ v) := by
  induction u generalizing last skip with
  | nil => exact Nat.zero_le _
  | cons c u ih =>
      simp only [List.cons_append, cellsFrom]
      repeat' split
      all_goals first | exact ih _ _ | exact Nat.add_le_add_left (ih _ _) _

theorem cells_le_of_isPrefix (h : u <+: cs) : cells u ≤ cells cs := by
  obtain ⟨v, rfl⟩ := h
  exact cellsFrom_le_append none false u v

/-! ## Words -/

/-- Whether the words of a text are some words that end in a space, and one more. -/
structure IsWords (init : List (List Char)) (w cs : List Char) : Prop where
  spaced : ∀ x ∈ init, ∃ u, x = u ++ [' ']
  last : w ≠ []
  joined : init.flatten ++ w = cs

theorem exists_blankRuns (h : IsPlain cs) (hne : cs ≠ []) : ∃ init w, blankRuns cs = init ++ [w] ∧
    IsWords init w cs := by
  induction cs with
  | nil => exact absurd rfl hne
  | cons c cs ih =>
      rw [blankRuns]
      by_cases hcs : cs = []
      · subst hcs
        exact ⟨[], [c], rfl, ⟨fun x hx => absurd hx List.not_mem_nil, List.cons_ne_nil c [], rfl⟩⟩
      · obtain ⟨init, w, hruns, hwords⟩ := ih h.tail hcs
        rw [hruns]
        cases init with
        | nil =>
            have hw : w = cs := hwords.joined
            dsimp only [List.nil_append]
            split
            next hcut =>
              have hc : c = ' ' := h.spaces c List.mem_cons_self (Bool.and_eq_true_iff.mp hcut).1
              refine ⟨[[c]], w, rfl, ⟨fun x hx => ⟨[], ?_⟩, hwords.last, by rw [hw]; rfl⟩⟩
              rw [List.mem_singleton.mp hx, hc]
              rfl
            next =>
              exact ⟨[], c :: w, rfl,
                ⟨fun x hx => absurd hx List.not_mem_nil, List.cons_ne_nil c w, by rw [hw]; rfl⟩⟩
        | cons x init =>
            dsimp only [List.cons_append]
            split
            next hcut =>
              have hc : c = ' ' := h.spaces c List.mem_cons_self (Bool.and_eq_true_iff.mp hcut).1
              refine ⟨[c] :: x :: init, w, rfl,
                ⟨List.forall_mem_cons.mpr ⟨⟨[], by rw [hc]; rfl⟩, hwords.spaced⟩,
                hwords.last, ?_⟩⟩
              rw [← hwords.joined]
              rfl
            next =>
              obtain ⟨⟨u, hu⟩, hspaced⟩ := List.forall_mem_cons.mp hwords.spaced
              refine ⟨(c :: x) :: init, w, rfl,
                ⟨List.forall_mem_cons.mpr ⟨⟨c :: u, by rw [hu]; rfl⟩, hspaced⟩, hwords.last, ?_⟩⟩
              rw [← hwords.joined]
              rfl

theorem exists_wordRuns (h : IsPlain cs) (hne : cs ≠ []) : ∃ init w, wordRuns cs = init ++ [w] ∧
    IsWords init w cs := by
  obtain ⟨init, w, hruns, hwords⟩ := exists_blankRuns h hne
  unfold wordRuns
  rw [hruns]
  match init, hwords with
  | [], hwords => exact ⟨[], w, rfl, hwords⟩
  | [g], hwords =>
      dsimp only [List.cons_append, List.nil_append]
      split
      · refine ⟨[], g ++ w, rfl,
          ⟨fun x hx => absurd hx List.not_mem_nil, by simp [hwords.last], ?_⟩⟩
        rw [← hwords.joined]
        simp
      · exact ⟨[g], w, rfl, hwords⟩
  | g :: x :: init, hwords =>
      dsimp only [List.cons_append]
      split
      · obtain ⟨-, ⟨u, hu⟩, hspaced⟩ :=
          (List.forall_mem_cons.mp hwords.spaced).imp_right List.forall_mem_cons.mp
        refine ⟨(g ++ x) :: init, w, rfl,
          ⟨List.forall_mem_cons.mpr ⟨⟨g ++ u, by rw [hu, List.append_assoc]⟩, hspaced⟩,
          hwords.last, ?_⟩⟩
        rw [← hwords.joined]
        simp
      · exact ⟨g :: x :: init, w, rfl, hwords⟩

theorem IsWords.unjoined {init : List (List Char)} (h : IsWords init w cs) (hcs : IsPlain cs) :
    ∀ x ∈ init, joiner ∉ x := by
  intro x hx hjoiner
  refine hcs.unjoined ?_
  rw [← h.joined]
  exact List.mem_append_left w (List.mem_flatten.mpr ⟨x, hx, hjoiner⟩)

theorem trimEnd_isPrefix (w : List Char) : trimEnd w <+: w := by
  rw [← List.reverse_suffix, trimEnd, List.reverse_reverse]
  exact List.dropWhile_suffix _

theorem cells_append_of_spaced {x : List Char} (hspaced : ∃ u, x = u ++ [' ']) (hx : joiner ∉ x)
    (v : List Char) :
    cells (x ++ v) = cells x + cells v := by
  obtain ⟨u, rfl⟩ := hspaced
  rw [List.append_assoc, List.singleton_append]
  exact cells_append_space (fun hu => hx (List.mem_append_left _ hu)) v

section Breaks

variable {init : List (List Char)} (hspaced : ∀ x ∈ init, ∃ u, x = u ++ [' '])
  (hunjoined : ∀ x ∈ init, joiner ∉ x)

include hspaced hunjoined

theorem cells_flatten_append (v : List Char) :
    cells (init.flatten ++ v) = cells init.flatten + cells v := by
  induction init with
  | nil => exact (Nat.zero_add (cells v)).symm
  | cons x init ih =>
      obtain ⟨hx, hspaced⟩ := List.forall_mem_cons.mp hspaced
      obtain ⟨hjoiner, hunjoined⟩ := List.forall_mem_cons.mp hunjoined
      rw [List.flatten_cons, List.append_assoc, cells_append_of_spaced hx hjoiner,
        cells_append_of_spaced hx hjoiner, ih hspaced hunjoined, Nat.add_assoc]

/-- Words that fit are passed over without a break. -/
theorem breaksFrom_append (start used : Nat) (hfits : used + cells init.flatten ≤ width)
    (ws : List (List Char)) :
    breaksFrom width .fold start used (init ++ ws) =
      breaksFrom width .fold (start + init.flatten.length) (used + cells init.flatten) ws := by
  induction init generalizing start used with
  | nil => rfl
  | cons x init ih =>
      obtain ⟨hx, hspaced⟩ := List.forall_mem_cons.mp hspaced
      obtain ⟨hjoiner, hunjoined⟩ := List.forall_mem_cons.mp hunjoined
      rw [List.flatten_cons, cells_append_of_spaced hx hjoiner] at hfits
      have hsize := cells_le_of_isPrefix (trimEnd_isPrefix x)
      rw [List.cons_append, breaksFrom]
      dsimp only
      rw [if_pos (by omega), ih hspaced hunjoined (start + x.length) (used + cells x) (by omega),
        List.flatten_cons, cells_append_of_spaced hx hjoiner, List.length_append, Nat.add_assoc,
        Nat.add_assoc]

end Breaks

theorem breaksFrom_of_fits (h : IsPlain cs) (hfits : cells cs ≤ width) :
    breaksFrom width .fold 0 0 (wordRuns cs) = [] := by
  by_cases hne : cs = []
  · rw [hne]
    rfl
  · obtain ⟨init, w, hruns, hwords⟩ := exists_wordRuns h hne
    have hunjoined := hwords.unjoined h
    rw [← hwords.joined, cells_flatten_append hwords.spaced hunjoined] at hfits
    have hsize := cells_le_of_isPrefix (trimEnd_isPrefix w)
    rw [hruns, breaksFrom_append hwords.spaced hunjoined 0 0 (by omega), breaksFrom]
    dsimp only
    rw [if_pos (by omega)]
    rfl

/-! ## Lines -/

theorem withoutTabs_of_not_mem (h : '\t' ∉ cs) : withoutTabs cs = cs := by
  rw [withoutTabs, Text.splitList_of_free]
  · rfl
  · exact fun c hc => beq_eq_false_iff_ne.mpr fun heq => h (heq ▸ hc)

theorem wrap_of_not_mem (htab : '\t' ∉ cs) (hline : '\n' ∉ cs) : wrap width .fold .natural cs =
    (cutAt 0 cs (breaksFrom width .fold 0 0 (wordRuns cs))).map fun l =>
      truncate width .fold (dropExcess width l) := by
  rw [wrap, Text.splitList_of_free, List.flatMap_singleton, wrapLine, withoutTabs_of_not_mem htab]
  · rfl
  · exact fun c hc => beq_eq_false_iff_ne.mpr fun heq => hline (heq ▸ hc)

theorem dropExcess_eq_self (h : (∀ c ∈ cs.getLast?, Text.isBlank c = false) ∨ cs.length ≤ width) :
    dropExcess width cs = cs := by
  unfold dropExcess
  dsimp only
  have hnone : min (cs.reverse.takeWhile Text.isBlank).length (cs.length - width) = 0 := by
    rcases h with hlast | hlength
    · have hblanks : cs.reverse.takeWhile Text.isBlank = [] := by
        cases hreverse : cs.reverse with
        | nil => rfl
        | cons c rest =>
            refine List.takeWhile_cons_of_neg ?_
            rw [hlast c (by rw [← List.head?_reverse, hreverse]; rfl)]
            decide
      rw [hblanks, List.length_nil, Nat.zero_min]
    · rw [Nat.sub_eq_zero_of_le hlength, Nat.min_zero]
  rw [hnone, Nat.sub_zero, List.take_length]

theorem printed_cons (width : Nat) (l : List Char) (lines : List (List Char)) :
    (printed width (l :: lines)).toList = crop width l ++ '\n' :: (printed width lines).toList := by
  simp [printed]

theorem printed_wrap_of_fits (h : IsPlain cs) (hfits : cells cs ≤ width)
    (hend : (∀ c ∈ cs.getLast?, Text.isBlank c = false) ∨ cs.length ≤ width) :
    printed width (wrap width .fold .natural cs) = String.ofList (cs ++ ['\n']) := by
  have hlines : wrap width .fold .natural cs = [cs] := by
    have htab : '\t' ∉ cs := h.not_mem_of_blank (by decide) (by decide)
    have hline : '\n' ∉ cs := h.not_mem_of_blank (by decide) (by decide)
    rw [wrap_of_not_mem htab hline, breaksFrom_of_fits h hfits, cutAt, List.map_singleton,
      dropExcess_eq_self hend, truncate, if_pos hfits]
  apply String.toList_inj.mp
  rw [hlines, printed_cons, crop, if_pos hfits, String.toList_ofList]
  rfl

/-! ## The first line -/

/-- Whether a line is a start of a text, with spaces after it. -/
def IsStart (cs l : List Char) : Prop :=
  ∃ p k, p <+: cs ∧ l = p ++ List.replicate k ' '

theorem IsStart.of_isPrefix (h : u <+: cs) : IsStart cs u :=
  ⟨u, 0, h, (List.append_nil u).symm⟩

theorem IsStart.trans (hu : IsStart cs u) (hv : IsStart u v) : IsStart cs v := by
  obtain ⟨p, k, hp, rfl⟩ := hu
  obtain ⟨q, m, hq, rfl⟩ := hv
  have htake : q = p.take q.length ++ List.replicate (min (q.length - p.length) k) ' ' := by
    have hcut := List.prefix_iff_eq_take.mp hq
    rwa [List.take_append, List.take_replicate] at hcut
  have hstart : p.take q.length <+: p := List.take_prefix _ p
  refine ⟨p.take q.length, min (q.length - p.length) k + m, hstart.trans hp, ?_⟩
  rw [← List.replicate_append_replicate, ← List.append_assoc, ← htake]

theorem glyphsFrom_chars (done : List Glyph) (last : Option Char) (joined : Bool) (cs : List Char) :
    (glyphsFrom done last joined cs).flatMap Glyph.chars =
      done.reverse.flatMap Glyph.chars ++ cs := by
  induction cs generalizing done last joined with
  | nil => rw [glyphsFrom, List.append_nil]
  | cons c cs ih =>
      cases done with
      | nil =>
          rw [glyphsFrom, ih]
          rfl
      | cons g gs =>
          have hextended (more : Nat) :
              (⟨g.chars ++ [c], g.width + more⟩ :: gs : List Glyph).reverse.flatMap
                Glyph.chars ++ cs =
              (g :: gs).reverse.flatMap Glyph.chars ++ c :: cs := by simp
          rw [glyphsFrom]
          dsimp only
          repeat' split
          all_goals rw [ih]
          all_goals first | exact hextended _ | simp

theorem glyphs_chars (cs : List Char) : (glyphs cs).flatMap Glyph.chars = cs :=
  glyphsFrom_chars [] none false cs

theorem isStart_fill (room : Nat) (gs : List Glyph) :
    IsStart (gs.flatMap Glyph.chars) (fill room gs) := by
  induction gs generalizing room with
  | nil =>
      cases room <;> exact .of_isPrefix List.nil_prefix
  | cons g gs ih =>
      cases room with
      | zero => exact .of_isPrefix List.nil_prefix
      | succ room =>
          rw [fill, List.flatMap_cons]
          split
          · exact ⟨[], 1, List.nil_prefix, rfl⟩
          · obtain ⟨p, k, hp, hfill⟩ := ih (room + 1 - g.width)
            rw [hfill]
            exact ⟨g.chars ++ p, k, List.prefix_append_right_inj g.chars |>.mpr hp,
              (List.append_assoc _ _ _).symm⟩

theorem isStart_crop (width : Nat) (cs : List Char) : IsStart cs (crop width cs) := by
  unfold crop
  split
  · exact .of_isPrefix (List.prefix_refl cs)
  · have hfill := isStart_fill width (glyphs cs)
    rwa [glyphs_chars] at hfill

theorem isStart_truncate (width : Nat) (cs : List Char) : IsStart cs (truncate width .fold cs) := by
  unfold truncate
  split
  next => exact .of_isPrefix (List.prefix_refl cs)
  next hwide =>
    rw [setCells]
    dsimp only
    rw [if_neg hwide]
    have hfill := isStart_fill width (glyphs cs)
    rwa [glyphs_chars] at hfill

theorem cutAt_cons (start : Nat) (cs : List Char) (breaks : List Nat) :
    ∃ n rest, cutAt start cs breaks = cs.take n :: rest ∧ (breaks = [] ↔ rest = []) := by
  cases breaks with
  | nil => exact ⟨cs.length, [], by rw [cutAt, List.take_length], by simp⟩
  | cons p ps =>
      refine ⟨p - start, cutAt p (cs.drop (p - start)) ps, rfl,
        iff_of_false (List.cons_ne_nil p ps) fun h => ?_⟩
      cases ps <;> cases h

/-- What is printed of a text: a line that is a start of it, and more lines if
the text is broken. -/
theorem exists_printed (width : Nat) (htab : '\t' ∉ cs) (hline : '\n' ∉ cs) :
    ∃ l rest, (printed width (wrap width .fold .natural cs)).toList = l ++ '\n' :: rest ∧
      IsStart cs l ∧ (breaksFrom width .fold 0 0 (wordRuns cs) = [] ↔ rest = []) := by
  rw [wrap_of_not_mem htab hline]
  obtain ⟨n, lines, hlines, hbreaks⟩ := cutAt_cons 0 cs (breaksFrom width .fold 0 0 (wordRuns cs))
  rw [hlines, List.map_cons, printed_cons]
  refine ⟨_, _, rfl, ?_, ?_⟩
  · refine .trans (.trans (.of_isPrefix ?_) (isStart_truncate width _)) (isStart_crop width _)
    rw [dropExcess, List.take_take]
    exact List.take_prefix _ cs
  · rw [hbreaks]
    cases lines with
    | nil => exact iff_of_true rfl rfl
    | cons l lines =>
        rw [List.map_cons, printed_cons]
        simp

/-! ## Texts that do not fit -/

theorem chop_go_ne_nil {line : List Char} {size : Nat} {gs : List Glyph}
    (h : size ≠ 0 ∨ ∃ g ∈ gs, g.width ≠ 0) :
    chop.go width line size gs ≠ [] := by
  induction gs generalizing line size with
  | nil =>
      rw [chop.go, if_neg (by simpa using h)]
      exact List.cons_ne_nil _ _
  | cons g gs ih =>
      rw [chop.go]
      split
      · exact List.cons_ne_nil _ _
      · apply ih
        rcases h with hsize | ⟨g', hg', hwidth⟩
        · exact .inl (by omega)
        · rcases List.mem_cons.mp hg' with rfl | hg'
          · exact .inl (by omega)
          · exact .inr ⟨g', hg', hwidth⟩

theorem exists_glyph (hu : joiner ∉ u) (hc : HasGlyph c) (done : List Glyph) (last : Option Char) :
    ∃ g ∈ glyphsFrom done last false (u ++ [c]), g.width ≠ 0 := by
  obtain ⟨hjoiner, hmark, hwidth⟩ := hc
  induction u generalizing done last with
  | nil =>
      refine ⟨⟨[c], charWidth c⟩, ?_, hwidth⟩
      cases done <;> simp [glyphsFrom, hjoiner, hmark, hwidth]
  | cons d u ih =>
      obtain ⟨hd, hu⟩ := List.ne_and_not_mem_of_not_mem_cons hu
      have hunjoined : (d == joiner) = false := beq_eq_false_iff_ne.mpr fun heq => hd heq.symm
      rw [List.cons_append]
      cases done with
      | nil => exact ih hu _ _
      | cons g gs =>
          simp only [glyphsFrom, hunjoined, Bool.false_eq_true, if_false]
          repeat' split
          all_goals exact ih hu _ _

theorem chop_ne_nil (hu : joiner ∉ u) (hc : HasGlyph c) : chop width (u ++ [c]) ≠ [] :=
  chop_go_ne_nil (.inr (exists_glyph hu hc [] none))

theorem foldBreaks_ne_nil {start : Nat} (hstart : start ≠ 0) {pieces : List (List Char)}
    (h : pieces ≠ []) :
    foldBreaks start pieces ≠ [] := by
  cases pieces with
  | nil => exact absurd rfl h
  | cons piece pieces =>
      rw [foldBreaks, if_neg hstart]
      exact List.cons_ne_nil _ _

theorem trimEnd_append (hc : Text.isBlank c = false) (u : List Char) :
    trimEnd (u ++ [c]) = u ++ [c] := by
  rw [trimEnd, List.reverse_append, List.reverse_singleton, List.singleton_append,
    List.dropWhile_cons_of_neg (by simp [hc]), ← List.singleton_append, List.reverse_append,
    List.reverse_reverse]
  rfl

theorem exists_first_blankRun (c : Char) (cs : List Char) :
    ∃ w ws, blankRuns (c :: cs) = (c :: w) :: ws := by
  rw [blankRuns]
  split
  · exact ⟨_, _, rfl⟩
  · split <;> exact ⟨_, _, rfl⟩

theorem wordRuns_after_sign {a b : Char} (ha : Text.isBlank a = false) (hb : Text.isBlank b = false)
    (v : List Char) :
    wordRuns (a :: ' ' :: b :: v) = [a, ' '] :: blankRuns (b :: v) := by
  obtain ⟨w, ws, hruns⟩ := exists_first_blankRun b v
  have hspace : blankRuns (' ' :: b :: v) = [' '] :: (b :: w) :: ws := by
    rw [blankRuns, hruns]
    dsimp only
    rw [List.head?_cons, Option.any_some, hb]
    rfl
  have hsign : blankRuns (a :: ' ' :: b :: v) = [a, ' '] :: (b :: w) :: ws := by
    rw [blankRuns, hspace]
    dsimp only
    rw [ha]
    rfl
  rw [wordRuns, hsign, hruns]
  dsimp only
  rw [List.all_cons, ha]
  rfl

/-- A text is broken if its last character is the only one that does not fit, and comes
after a word of one character. -/
theorem breaksFrom_ne_nil {a b : Char} (h : IsPlain (a :: ' ' :: b :: (u ++ [c])))
    (ha : Text.isBlank a = false) (hb : Text.isBlank b = false) (hglyph : HasGlyph c)
    (hc : Text.isBlank c = false) (hfits : cells (a :: ' ' :: b :: u) ≤ width)
    (hwide : width < cells (a :: ' ' :: b :: (u ++ [c]))) :
    breaksFrom width .fold 0 0 (wordRuns (a :: ' ' :: b :: (u ++ [c]))) ≠ [] := by
  obtain ⟨init, w, hruns, hwords⟩ := exists_blankRuns h.tail.tail (List.cons_ne_nil b _)
  -- The last word ends with the last character, so that all words before it fit.
  have hinit : IsWords ([a, ' '] :: init) w (a :: ' ' :: b :: (u ++ [c])) :=
    ⟨List.forall_mem_cons.mpr ⟨⟨[a], rfl⟩, hwords.spaced⟩,
      hwords.last, by rw [← hwords.joined]; rfl⟩
  have hunjoined := hinit.unjoined h
  obtain ⟨w', d, rfl⟩ : ∃ w' d, w = w' ++ [d] :=
    ⟨_, _, (List.dropLast_concat_getLast hwords.last).symm⟩
  have hjoined : ([a, ' '] :: init).flatten ++ w' ++ [d] = a :: ' ' :: b :: u ++ [c] := by
    rw [List.append_assoc, hinit.joined]
    rfl
  obtain ⟨hbefore, hlast⟩ := List.append_inj' hjoined rfl
  obtain rfl := List.singleton_inj.mp hlast
  have hused : cells ([a, ' '] :: init).flatten ≤ width := by
    refine Nat.le_trans (cells_le_of_isPrefix ?_) hfits
    rw [← hbefore]
    exact List.prefix_append _ _
  have hcells : width < cells ([a, ' '] :: init).flatten + cells (w' ++ [d]) := by
    rwa [← cells_flatten_append hinit.spaced hunjoined, hinit.joined]
  have hspace : cells ([a, ' '] :: init).flatten ≠ 0 := by
    have hjoiner : joiner ∉ [a, ' '] := hunjoined _ List.mem_cons_self
    have hsign : cells ([a] ++ [' ']) = cells [a] + 1 :=
      cells_concat (fun hj => hjoiner (List.mem_append_left [' '] hj)) hasGlyph_space
    have hsigned : cells ([a] ++ [' ']) ≤ cells ([a, ' '] :: init).flatten :=
      cells_le_of_isPrefix (List.prefix_append _ _)
    omega
  have hstart : 0 + ([a, ' '] :: init).flatten.length ≠ 0 := by simp
  rw [wordRuns_after_sign ha hb, hruns, ← List.cons_append,
    breaksFrom_append hinit.spaced hunjoined 0 0 (by omega), breaksFrom]
  dsimp only
  rw [trimEnd_append hc, if_neg (by omega)]
  split
  · refine fun hnil =>
      foldBreaks_ne_nil hstart (chop_ne_nil ?_ hglyph) (List.append_eq_nil_iff.mp hnil).1
    exact fun hw => h.unjoined (hinit.joined ▸ by simp [hw])
  · rw [if_neg (not_or.mpr ⟨by omega, hstart⟩)]
    exact List.cons_ne_nil _ _

end ImportAudit.Console
