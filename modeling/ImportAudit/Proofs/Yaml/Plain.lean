import ImportAudit.Proofs.Yaml.QuotedWriting

/-!
# Plain texts

A plain text is written as words with spaces between them, of which a single one may have become a
line break. It is read as the text it stands for, up to a line with less indentation.
-/

namespace ImportAudit.Yaml

structure IsPlainWord (w : List Char) : Prop where
  nonempty : w ≠ []
  inline : ∀ x ∈ w, IsInline x ∧ x ≠ ' '
  last : w.getLast? ≠ some ':'

inductive PlainGap (n : Nat) : List Char → List Char → Prop
  | spaces (m : Nat) : PlainGap n (List.replicate (m + 1) ' ') (List.replicate (m + 1) ' ')
  | line : PlainGap n ('\n' :: List.replicate n ' ') [' ']

/-- Words with gaps between them, on lines that are indented by `n`. -/
inductive Plain (n : Nat) : List Char → List Char → Prop
  | word {w : List Char} (hw : IsPlainWord w) : Plain n w w
  | gap {w g s src text : List Char} (hw : IsPlainWord w) (hg : PlainGap n g s)
      (hmark : NotNext (· == '#') src)
      (h : Plain n src text) : Plain n (w ++ (g ++ src)) (w ++ (s ++ text))

variable {n : Nat} {src text : List Char}

theorem Plain.exists_cons (h : Plain n src text) :
    ∃ x src' text', src = x :: src' ∧ text = x :: text' ∧ IsInline x ∧ x ≠ ' ' := by
  have hword {w : List Char} (hw : IsPlainWord w) : ∃ x w', w = x :: w' ∧ IsInline x ∧ x ≠ ' ' := by
    obtain ⟨x, w', rfl⟩ := List.exists_cons_of_ne_nil hw.nonempty
    exact ⟨x, w', rfl, hw.inline x List.mem_cons_self⟩
  cases h with
  | word hw =>
      obtain ⟨x, w', rfl, hx⟩ := hword hw
      exact ⟨x, w', w', rfl, rfl, hx⟩
  | gap hw hg hmark h =>
      obtain ⟨x, w', rfl, hx⟩ := hword hw
      exact ⟨x, _, _, rfl, rfl, hx⟩

theorem Plain.startsWord (h : Plain n src text) (rest : List Char) : StartsWord (src ++ rest) := by
  obtain ⟨x, src', -, rfl, -, hx⟩ := h.exists_cons
  rintro _ ⟨⟩
  exact hx

theorem Plain.isWritten (h : Plain n src text) : ∀ y ∈ src, IsWritten y := by
  induction h with
  | word hw => exact fun y hy => .inr (hw.inline y hy).1
  | gap hw hg hmark h ih =>
      refine List.forall_mem_append.mpr ⟨fun y hy => .inr (hw.inline y hy).1,
        List.forall_mem_append.mpr ⟨?_, ih⟩⟩
      cases hg with
      | spaces m => exact isWritten_spaces
      | line => exact List.forall_mem_cons.mpr ⟨.inl rfl, isWritten_spaces⟩

theorem Plain.eq_of_not_mem (h : Plain n src text) (hspace : ' ' ∉ text) : src = text := by
  cases h with
  | word hw => rfl
  | gap hw hg hmark h =>
      refine absurd (List.mem_append_right _ (List.mem_append_left _ ?_)) hspace
      cases hg <;> exact List.mem_cons_self

/-! ## Reading -/

/-- A line starts with a token at a column, or the text ends. -/
structure StartsLine (column : Nat) (rest : List Char) : Prop where
  token : Cursor.StartsToken rest
  notSeparator : column = 0 → ∀ x ∈ rest.head?, x ≠ '-' ∧ x ≠ '.'

section Reading

variable {c : Cursor} {rest : List Char}

theorem plainLength_word {w next : List Char} (hw : ∀ x ∈ w, IsInline x ∧ x ≠ ' ')
    (hlast : w.getLast? ≠ some ':') (hnext : plainLength false next = 0) :
    plainLength false (w ++ next) = w.length := by
  induction w with
  | nil => exact hnext
  | cons x w ih =>
      have hx : endsWord x = false := by
        obtain ⟨hinline, hspace⟩ := hw x List.mem_cons_self
        rw [hinline.endsWord, beq_eq_false_iff_ne]
        exact hspace
      have hends : endsPlain false x ((w ++ next).head?.getD stop) = false := by
        unfold endsPlain
        cases w with
        | nil =>
            have hcolon : (x == ':') = false := by
              rw [beq_eq_false_iff_ne]
              rintro rfl
              exact hlast rfl
            simp [hx, hcolon]
        | cons y w =>
            have hy : endsWord y = false := by
              obtain ⟨hinline, hspace⟩ := hw y (List.mem_cons_of_mem x List.mem_cons_self)
              rw [hinline.endsWord, beq_eq_false_iff_ne]
              exact hspace
            simp [hx, hy]
      have hlast' : w.getLast? ≠ some ':' := by
        cases w with
        | nil => exact Option.some_ne_none _ ∘ Eq.symm
        | cons y w => rwa [List.getLast?_cons_cons] at hlast
      rw [List.cons_append, plainLength, hends, if_neg Bool.false_ne_true,
        ih (fun y hy => hw y (List.mem_cons_of_mem x hy)) hlast', List.length_cons, Nat.add_comm]

theorem IsPlainWord.length {w next : List Char} (hw : IsPlainWord w)
    (hnext : plainLength false next = 0) :
    plainLength false (w ++ next) = w.length :=
  plainLength_word hw.inline hw.last hnext

theorem plainSpace_spaces {m : Nat} (h : c.rest = List.replicate m ' ' ++ rest)
    (hrest : StartsWord rest) (fuel : Nat) :
    plainSpace fuel c = (List.replicate m ' ', false, c.past m rest) := by
  have hspace : NotNext (· == ' ') rest := fun x hx => beq_eq_false_iff_ne.mpr (hrest x hx).2
  have htake := Cursor.takeWhile_inline (p := (· == ' ')) h
    (fun x hx => by rw [List.eq_of_mem_replicate hx]; decide) hspace
  rw [List.length_replicate] at htake
  unfold plainSpace
  rw [htake]
  dsimp only
  rw [Cursor.lineBreak_none fun x hx => (hrest x hx).1]

theorem plainSpace_newLine {m : Nat} (h : c.rest = '\n' :: (List.replicate m ' ' ++ rest))
    (hrest : StartsWord rest) (hseparator : m = 0 → ∀ x ∈ rest.head?, x ≠ '-' ∧ x ≠ '.')
    {fuel : Nat} (hfuel : 0 < fuel) :
    plainSpace fuel c = ([' '], true, (c.newLine (List.replicate m ' ' ++ rest)).past m rest) := by
  obtain ⟨fuel, rfl⟩ := Nat.exists_eq_succ_of_ne_zero (Nat.ne_of_gt hfuel)
  have hspace : NotNext (· == ' ') rest := fun x hx => beq_eq_false_iff_ne.mpr (hrest x hx).2
  have htake : c.takeWhile (· == ' ') = ([], c) := Cursor.takeWhile_none (h ▸ notNext_cons rfl)
  have hnext : (c.newLine (List.replicate m ' ' ++ rest)).atSeparator = false := by
    refine Cursor.atSeparator_false fun x hx => ?_
    cases m with
    | zero => exact hseparator rfl x hx
    | succ m =>
        cases hx
        decide
  have hbreaks : plainBreaks (fuel + 1) (c.newLine (List.replicate m ' ' ++ rest)) =
      (some [], (c.newLine (List.replicate m ' ' ++ rest)).past m rest) := by
    rw [plainBreaks, Cursor.skipWhile_spaces rfl rfl hspace]
    dsimp only
    rw [Cursor.lineBreak_none fun x hx => (hrest x hx).1]
  unfold plainSpace
  rw [htake]
  dsimp only
  rw [Cursor.lineBreak_newLine h]
  dsimp only
  rw [hnext, if_neg Bool.false_ne_true, hbreaks]
  rfl

theorem StartsLine.startsWord {column : Nat} (h : StartsLine column rest) : StartsWord rest :=
  fun x hx => ⟨(h.token x hx).1, (h.token x hx).2.1⟩

theorem here_ne_mark {m : Nat} (h : NotNext (· == '#') rest) :
    ((c.past m rest).here == '#') = false := by
  cases rest with
  | nil => rfl
  | cons x rest => exact h x rfl

theorem plainLength_blank {x : Char} (h : endsWord x = true) :
    plainLength false (x :: rest) = 0 := by
  rw [plainLength]
  unfold endsPlain
  rw [h]
  rfl

theorem PlainGap.plainLength {g s : List Char} (h : PlainGap n g s) :
    plainLength false (g ++ rest) = 0 := by
  cases h with
  | spaces m => exact plainLength_blank rfl
  | line => exact plainLength_blank rfl

theorem Plain.plainLength_ne_zero {next : List Char} (h : Plain n src text)
    (hnext : plainLength false next = 0) :
    plainLength false (src ++ next) ≠ 0 := by
  have hword {w next : List Char} (hw : IsPlainWord w) (hnext : Yaml.plainLength false next = 0) :
      Yaml.plainLength false (w ++ next) ≠ 0 := by
    rw [hw.length hnext]
    exact mt List.length_eq_zero_iff.mp hw.nonempty
  cases h with
  | word hw => exact hword hw hnext
  | gap hw hg hmark h =>
      rw [List.append_assoc, List.append_assoc]
      exact hword hw hg.plainLength

/-- One word of a plain text, and what comes after the space that follows it. -/
theorem plainText_word {w next : List Char} (hw : IsPlainWord w) (hmark : NotNext (· == '#') w)
    (hnext : plainLength false next = 0) (h : c.rest = w ++ next) (indent fuel : Nat)
    (space : List Char) {s : List Char} {broken : Bool} {c₁ : Cursor}
    (hspace : plainSpace fuel (c.past w.length next) = (s, broken, c₁)) :
    plainText false indent (fuel + 1) space c =
      if s.isEmpty || c₁.here == '#' || decide (c₁.column < indent) then (space ++ w, broken, c₁)
      else if (if c₁.here == '#' then 0 else plainLength false c₁.rest) = 0 then
        (space ++ w, broken, c₁)
      else Prod.map (space ++ w ++ ·) id (plainText false indent fuel s c₁) := by
  have hhere : (c.here == '#') = false := by
    obtain ⟨x, w, rfl⟩ := List.exists_cons_of_ne_nil hw.nonempty
    rw [Cursor.here_of_cons h]
    exact hmark x rfl
  have hlength : plainLength false c.rest = w.length := by
    rw [h]
    exact hw.length hnext
  have hpos : w.length ≠ 0 := mt List.length_eq_zero_iff.mp hw.nonempty
  have htake : c.rest.take w.length = w := by
    rw [h]
    exact List.take_left
  rw [plainText, hhere, if_neg Bool.false_ne_true, hlength]
  dsimp only
  rw [if_neg hpos, htake, Cursor.advance_inline h fun x hx => (hw.inline x hx).1, hspace]
  rfl

/-- A plain text is read up to the next line with less indentation. -/
theorem plainText_of_plain (indent fuel : Nat) {j : Nat} (hp : Plain n src text)
    (hmark : NotNext (· == '#') src) (hn : 0 < n) (hindent : indent ≤ n) (hj : j < indent)
    (hrest : StartsLine j rest) (h : c.rest = src ++ '\n' :: (List.replicate j ' ' ++ rest))
    (hcolumn : indent ≤ c.column) (space : List Char) (hfuel : src.length < fuel) :
    ∃ c', plainText false indent fuel space c = (space ++ text, true, c') ∧ c'.rest = rest ∧
      c'.column = j ∧
      c.line < c'.line := by
  have hend : plainLength false ('\n' :: (List.replicate j ' ' ++ rest)) = 0 :=
    plainLength_blank rfl
  induction hp generalizing c space fuel with
  | @word w hw =>
      obtain ⟨fuel, rfl⟩ :=
        Nat.exists_eq_succ_of_ne_zero (Nat.ne_of_gt (Nat.lt_of_le_of_lt (Nat.zero_le _) hfuel))
      have hpos : 0 < w.length := List.length_pos_iff.mpr hw.nonempty
      have hspace :=
        plainSpace_newLine (c := c.past w.length _) rfl hrest.startsWord hrest.notSeparator
        (show 0 < fuel by omega)
      refine ⟨((c.past w.length ('\n' :: (List.replicate j ' ' ++ rest))).newLine
        (List.replicate j ' ' ++ rest)).past j rest, ?_, rfl, ?_, Nat.lt_succ_self _⟩
      · rw [plainText_word hw hmark hend h indent fuel space hspace, if_pos]
        simp [Cursor.past, Cursor.newLine, hj]
      · exact Nat.zero_add j
  | @gap w g s src text hw hg hmark' hp ih =>
      obtain ⟨fuel, rfl⟩ :=
        Nat.exists_eq_succ_of_ne_zero (Nat.ne_of_gt (Nat.lt_of_le_of_lt (Nat.zero_le _) hfuel))
      have hpos : 0 < w.length := List.length_pos_iff.mpr hw.nonempty
      have hmark₁ : NotNext (· == '#') w := by
        obtain ⟨x, w, rfl⟩ := List.exists_cons_of_ne_nil hw.nonempty
        exact hmark
      have hsplit : c.rest = w ++ (g ++ (src ++ '\n' :: (List.replicate j ' ' ++ rest))) := by
        rw [h]
        simp
      simp only [List.length_append] at hfuel
      have hstarts := hp.startsWord ('\n' :: (List.replicate j ' ' ++ rest))
      -- The space leads to the next word, on the same line or on one that is indented.
      obtain ⟨broken, c₁, hspace, hrest₁, hhere, hcolumn₁, hline⟩ : ∃ broken c₁,
          plainSpace fuel (c.past w.length (g ++ (src ++ '\n' :: (List.replicate j ' ' ++ rest)))) =
            (s, broken, c₁) ∧
            c₁.rest = src ++ '\n' :: (List.replicate j ' ' ++ rest) ∧ (c₁.here == '#') = false ∧
              indent ≤ c₁.column ∧
            c.line ≤ c₁.line := by
        have hmark₂ : NotNext (· == '#') (src ++ '\n' :: (List.replicate j ' ' ++ rest)) := by
          obtain ⟨x, src', -, rfl, -, -⟩ := hp.exists_cons
          exact hmark'
        cases hg with
        | spaces m =>
            refine ⟨_, _, plainSpace_spaces rfl hstarts fuel, rfl, here_ne_mark hmark₂, ?_,
              Nat.le_refl _⟩
            simp only [Cursor.past]
            omega
        | line =>
            refine ⟨_, _, plainSpace_newLine rfl hstarts
              (fun hzero => absurd hzero (Nat.ne_of_gt hn)) (by omega), rfl,
              here_ne_mark hmark₂, ?_, Nat.le_succ _⟩
            simp only [Cursor.past, Cursor.newLine, Nat.zero_add]
            exact hindent
      obtain ⟨c', hread, hrest', hcolumn', hline'⟩ :=
        ih fuel hmark' hrest₁ hcolumn₁ s (show src.length < fuel by omega)
      refine ⟨c', ?_, hrest', hcolumn', Nat.lt_of_le_of_lt hline hline'⟩
      have hempty : s.isEmpty = false := by
        cases hg with
        | spaces m => rfl
        | line => rfl
      rw [plainText_word hw hmark₁ hg.plainLength hsplit indent fuel space hspace, hempty, hhere,
        if_neg (by simpa using hcolumn₁), if_neg Bool.false_ne_true, hrest₁,
        if_neg (hp.plainLength_ne_zero hend), hread]
      simp [Prod.map]

theorem plainText_key {w : List Char} {y : Char} (hw : IsPlainWord w) (hmark : NotNext (· == '#') w)
    (hy : endsWord y = true) (h : c.rest = w ++ ':' :: y :: rest) (indent fuel : Nat) :
    plainText false indent (fuel + 1) [] c = (w, false, c.past w.length (':' :: y :: rest)) := by
  have hend : plainLength false (':' :: y :: rest) = 0 := by
    have hends : endsPlain false ':' y = true := by
      unfold endsPlain
      rw [hy]
      rfl
    rw [plainLength]
    exact if_pos hends
  have hstarts : StartsWord (':' :: y :: rest) := by
    rintro _ ⟨⟩
    decide
  have hspace :=
    plainSpace_spaces (c := c.past w.length (':' :: y :: rest)) (m := 0) rfl hstarts fuel
  rw [plainText_word hw hmark hend h indent fuel [] hspace]
  rfl

end Reading

/-! ## Writing -/

def endsNext (cs : List Char) : Bool := endsWord (cs.head?.getD stop)

structure PlainRest (x : Char) (cs : List Char) : Prop where
  inline : ∀ y ∈ x :: cs, IsInline y
  colon : x = ':' → endsNext cs = false
  marks : hasInnerMark x cs = false
  last : (x :: cs).getLast? ≠ some ' '

theorem hasInnerMark_cons (x y : Char) (cs : List Char) :
    hasInnerMark x (y :: cs) = (innerMark y (endsWord x) (endsNext cs) || hasInnerMark y cs) := by
  cases cs <;> rfl

theorem PlainRest.tail {x y : Char} {cs : List Char} (h : PlainRest x (y :: cs)) :
    PlainRest y cs ∧ (x = ' ' → y ≠ '#') := by
  have hmarks := h.marks
  rw [hasInnerMark_cons, Bool.or_eq_false_iff] at hmarks
  obtain ⟨hmark, hrest⟩ := hmarks
  unfold innerMark at hmark
  refine ⟨⟨fun z hz => h.inline z (List.mem_cons_of_mem x hz), ?_, hrest, ?_⟩, ?_⟩
  · rintro rfl
    simpa using hmark
  · have hlast := h.last
    rwa [List.getLast?_cons_cons] at hlast
  · rintro rfl rfl
    cases hmark

theorem Plain.cons {x : Char} (hx : IsInline x ∧ x ≠ ' ') (h : Plain n src text) :
    Plain n (x :: src) (x :: text) := by
  have hword {w : List Char} (hw : IsPlainWord w) : IsPlainWord (x :: w) := by
    refine ⟨List.cons_ne_nil x w, List.forall_mem_cons.mpr ⟨hx, hw.inline⟩, ?_⟩
    obtain ⟨y, w, rfl⟩ := List.exists_cons_of_ne_nil hw.nonempty
    rw [List.getLast?_cons_cons]
    exact hw.last
  cases h with
  | word hw => exact .word (hword hw)
  | gap hw hg hmark h => exact .gap (hword hw) hg hmark h

theorem isPlainWord_singleton {x : Char} (hx : IsInline x ∧ x ≠ ' ') (hcolon : x ≠ ':') :
    IsPlainWord [x] where
  nonempty := List.cons_ne_nil x []
  inline y hy := by
    rw [List.mem_singleton.mp hy]
    exact hx
  last h := hcolon (Option.some.inj h)

theorem writePlain_go (split : Bool) (hn : n ≤ Page.width) (cs : List Char) :
    (∀ (run : List Char) (x : Char) (p : Page), x ≠ ' ' → PlainRest x cs →
      ∃ S, (writePlain.go split n cs (run ++ [x]) false p).chars = p.chars ++ (run ++ S) ∧
        Plain n S (x :: cs)) ∧
    ∀ (m : Nat) (p : Page), PlainRest ' ' cs →
      ∃ g s S text, (writePlain.go split n cs (List.replicate (m + 1) ' ') true p).chars =
        p.chars ++ (g ++ S) ∧
        List.replicate (m + 1) ' ' ++ cs = s ++ text ∧ PlainGap n g s ∧ NotNext (· == '#') S ∧
          Plain n S text := by
  induction cs with
  | nil =>
      refine ⟨fun run x p hx h => ?_, fun m p h => absurd rfl h.last⟩
      have hcolon : x ≠ ':' := fun hcolon => by cases h.colon hcolon
      refine ⟨[x], ?_, .word (isPlainWord_singleton ⟨h.inline x List.mem_cons_self, hx⟩ hcolon)⟩
      exact Page.chars_put p _
  | cons c cs ih =>
      obtain ⟨ihword, ihgap⟩ := ih
      refine ⟨fun run x p hx h => ?_, fun m p h => ?_⟩
      · obtain ⟨htail, -⟩ := h.tail
        have hx' : IsInline x ∧ x ≠ ' ' := ⟨h.inline x List.mem_cons_self, hx⟩
        rw [writePlain.go]
        by_cases hc : c = ' '
        · subst hc
          obtain ⟨g, s, S, text, hchars, hsplit, hg, hmark, hplain⟩ :=
            ihgap 0 (p.put (run ++ [x])) htail
          have hcolon : x ≠ ':' := fun hcolon => by cases h.colon hcolon
          refine ⟨x :: (g ++ S), ?_, ?_⟩
          · rw [if_neg (by decide)]
            refine hchars.trans ?_
            rw [Page.chars_put]
            simp
          · have hgap := Plain.gap (isPlainWord_singleton hx' hcolon) hg hmark hplain
            rw [← hsplit] at hgap
            exact hgap
        · obtain ⟨S, hchars, hplain⟩ := ihword (run ++ [x]) c p hc htail
          refine ⟨x :: S, ?_, hplain.cons hx'⟩
          rw [if_pos (by rw [beq_eq_false_iff_ne.mpr hc]; rfl), hchars]
          simp
      · obtain ⟨htail, hnumber⟩ := h.tail
        rw [writePlain.go]
        by_cases hc : c = ' '
        · subst hc
          obtain ⟨g, s, S, text, hchars, hsplit, hplain⟩ := ihgap (m + 1) p htail
          refine ⟨g, s, S, text, ?_, ?_, hplain⟩
          · rw [if_pos (by rfl), ← List.replicate_succ']
            exact hchars
          · rw [← hsplit, List.replicate_succ' (n := m + 1)]
            simp
        · rw [if_neg (by rw [beq_eq_false_iff_ne.mpr hc]; decide), beq_eq_false_iff_ne.mpr hc]
          dsimp only
          have hgo (p : Page) : ∃ S, (writePlain.go split n cs [c] false p).chars = p.chars ++ S ∧
              NotNext (· == '#') S ∧ Plain n S (c :: cs) := by
            obtain ⟨S, hchars, hplain⟩ := ihword [] c p hc htail
            refine ⟨S, hchars, ?_, hplain⟩
            obtain ⟨y, S', text', rfl, htext, -⟩ := hplain.exists_cons
            obtain ⟨rfl, -⟩ := List.cons.inj htext
            exact notNext_cons (beq_eq_false_iff_ne.mpr (hnumber rfl))
          split
          · rename_i hfold
            simp only [List.length_replicate, Bool.true_and, Bool.and_eq_true, decide_eq_true_eq,
              Nat.add_eq_right] at hfold
            obtain ⟨⟨rfl, -⟩, hlong⟩ := hfold
            obtain ⟨S, hchars, hmark, hplain⟩ := hgo (p.indent n).midLine
            refine ⟨_, _, S, c :: cs, ?_, rfl, .line, hmark, hplain⟩
            rw [hchars, Page.chars_midLine, (Page.indent_newLine (.inr (by omega))).1]
            simp
          · obtain ⟨S, hchars, hmark, hplain⟩ := hgo (p.put (List.replicate (m + 1) ' '))
            refine ⟨_, _, S, c :: cs, ?_, rfl, .spaces m, hmark, hplain⟩
            rw [hchars, Page.chars_put]
            simp

theorem traits_plain_eq {s : String} {c : Char} {cs : List Char} (hs : s.toList = c :: cs) :
    (traits s).plain =
      (!((c == ' ') || isWrittenBreak c || ((c :: cs).getLast?.getD ' ' == ' ') ||
          isWrittenBreak ((c :: cs).getLast?.getD ' ')) &&
        !hasPair isWrittenBreak (· == ' ') (c :: cs) &&
        !((c :: cs).any isSpecial || hasPair (· == ' ') isWrittenBreak (c :: cs)) &&
          !(c :: cs).any isWrittenBreak &&
        !((["---".toList, "...".toList].any fun m => m.isPrefixOf (c :: cs)) ||
          opensMark c (endsNext cs) ||
          hasInnerMark c cs)) := by
  unfold traits
  rw [hs]
  cases cs <;> rfl

theorem traits_plain {s : String} {c : Char} {cs : List Char} (hs : s.toList = c :: cs)
    (h : (traits s).plain = true) :
    PlainRest c cs ∧ c ≠ ' ' ∧ opensMark c (endsNext cs) = false := by
  rw [traits_plain_eq hs] at h
  simp only [Bool.and_eq_true, Bool.not_eq_eq_eq_not, Bool.not_true, Bool.or_eq_false_iff,
    beq_eq_false_iff_ne] at h
  obtain ⟨⟨⟨⟨⟨⟨⟨hspace, -⟩, hlast⟩, -⟩, -⟩, hspecial, -⟩, hbreaks⟩, ⟨-, hopens⟩, hinner⟩ := h
  refine ⟨⟨fun d hd => ?_, ?_, hinner, ?_⟩, hspace, hopens⟩
  · have hwritten :=
      isSpecial_eq_false_iff.mp (Bool.eq_false_iff.mpr (List.any_eq_false.mp hspecial d hd))
    have hbreak := Bool.eq_false_iff.mpr (List.any_eq_false.mp hbreaks d hd)
    rw [isWrittenBreak_eq hwritten, beq_eq_false_iff_ne] at hbreak
    exact hwritten.resolve_left hbreak
  · rintro rfl
    unfold opensMark at hopens
    simpa using (Bool.or_eq_false_iff.mp hopens).2
  · intro h
    rw [h] at hlast
    exact hlast rfl

theorem onlyIndented_go {split : Bool} (cs run : List Char) (spaces : Bool) {p : Page}
    (h : p.onlyIndented = false) :
    (writePlain.go split n cs run spaces p).onlyIndented = false := by
  induction cs generalizing run spaces p with
  | nil => exact h
  | cons c cs ih =>
      rw [writePlain.go]
      split
      · exact ih _ _ h
      · refine ih _ _ ?_
        split
        · rfl
        · exact h

theorem writePlain_spec (split : Bool) (hn : n ≤ Page.width) {s : String} {c : Char}
    {cs : List Char} (hs : s.toList = c :: cs) (h : (traits s).plain = true) (p : Page) :
    ∃ S, (writePlain split n s p).chars = p.chars ++ (p.blankBefore ++ S) ∧ Plain n S s.toList := by
  obtain ⟨hrest, hc, -⟩ := traits_plain hs h
  have hempty : (s == "") = false := by
    rw [beq_eq_false_iff_ne]
    rintro rfl
    cases hs
  obtain ⟨S, hchars, hplain⟩ := (writePlain_go split hn cs).1 [] c
    (if p.afterBlank then p else p.put [' ']).midLine hc hrest
  rw [hs]
  refine ⟨S, ?_, hplain⟩
  have hfirst : writePlain split n s p =
      writePlain.go split n cs [c] false (if p.afterBlank then p else p.put [' ']).midLine := by
    unfold writePlain
    rw [hempty, if_neg Bool.false_ne_true, hs, writePlain.go, beq_eq_false_iff_ne.mpr hc]
    rfl
  rw [hfirst]
  refine hchars.trans ?_
  unfold Page.blankBefore
  cases p.afterBlank <;> simp

end ImportAudit.Yaml
