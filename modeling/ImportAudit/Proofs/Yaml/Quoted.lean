import ImportAudit.Proofs.Yaml.Cursor
import ImportAudit.Yaml.Text

/-!
# Texts in quotes

What may stand between two quotes, as words with gaps between them, together with the text that it
stands for. A text in quotes is read as what it stands for, whatever follows it.
-/

namespace ImportAudit.Yaml

def StartsWord (rest : List Char) : Prop :=
  ∀ x ∈ rest.head?, IsInline x ∧ x ≠ ' '

theorem StartsWord.notNext_blank {rest : List Char} (h : StartsWord rest) :
    NotNext (fun ch => ch == ' ' || ch == '\t') rest := by
  intro x hx
  obtain ⟨hinline, hspace⟩ := h x hx
  have hends := hinline.endsWord
  unfold endsWord at hends
  grind

theorem startsWord_append {src rest : List Char} (hsrc : StartsWord src) (hrest : StartsWord rest) :
    StartsWord (src ++ rest) := by
  cases src with
  | nil => exact hrest
  | cons x src => exact hsrc

def closing (double : Bool) : Char := if double then '"' else '\''

structure IsOrdinary (x : Char) : Prop where
  inline : IsInline x
  notSpace : x ≠ ' '
  notSingle : x ≠ '\''
  notDouble : x ≠ '"'
  notEscape : x ≠ '\\'

theorem IsOrdinary.taken {x : Char} (h : IsOrdinary x) :
    (!(x == '\'' || x == '"' || x == '\\' || endsWord x)) = true := by
  have hends : endsWord x = false := by
    rw [h.inline.endsWord, beq_eq_false_iff_ne]
    exact h.notSpace
  rw [hends, beq_eq_false_iff_ne.mpr h.notSingle, beq_eq_false_iff_ne.mpr h.notDouble,
    beq_eq_false_iff_ne.mpr h.notEscape]
  rfl

structure IsEscape (e : List Char) (x : Char) : Prop where
  inline : ∀ y ∈ e, IsInline y
  read (fuel : Nat) {c : Cursor} {rest : List Char} (h : c.rest = e ++ rest) :
    escape fuel c = .ok ([.char x], c.past e.length rest)

/-- Whether a character with a meaning in the other quotes stands for itself. -/
def isOtherMark (double : Bool) (x : Char) : Bool :=
  (double && x == '\'') || (!double && (x == '"' || x == '\\'))

inductive QuotedAtom (double : Bool) : List Char → Char → Prop
  | ordinary {x : Char} (h : IsOrdinary x) : QuotedAtom double [x] x
  | mark {x : Char} (h : isOtherMark double x = true) : QuotedAtom double [x] x
  | quote (h : double = false) : QuotedAtom double ['\'', '\''] '\''
  | escaped {e : List Char} {x : Char} (h : double = true) (he : IsEscape e x) :
      QuotedAtom double ('\\' :: e) x

/-- A word in quotes.  In double quotes a line may be broken inside of it. -/
inductive QuotedWord (double : Bool) : List Char → List Char → Prop
  | nil : QuotedWord double [] []
  | atom {a src text : List Char} {x : Char} (ha : QuotedAtom double a x)
      (hw : QuotedWord double src text) :
      QuotedWord double (a ++ src) (x :: text)
  | line {n : Nat} {src text : List Char} (hdouble : double = true) (hn : 0 < n) (hsrc : src ≠ [])
      (hw : QuotedWord double src text) : QuotedWord double
        ('\\' :: '\n' :: (List.replicate n ' ' ++ src)) text

def foldedBreaks (k : Nat) : List Char := if k = 0 then [' '] else List.replicate k '\n'

inductive QuotedGap (double : Bool) : List Char → List Char → Prop
  | spaces (n : Nat) : QuotedGap double (List.replicate (n + 1) ' ') (List.replicate (n + 1) ' ')
  | lines (k : Nat) {n : Nat} (hdouble : double = false) (hn : 0 < n) :
      QuotedGap double ('\n' :: (List.replicate k '\n' ++ List.replicate n ' ')) (foldedBreaks k)

inductive Quoted (double : Bool) : List Char → List Char → Prop
  | word {w t : List Char} (hw : QuotedWord double w t) : Quoted double w t
  | gap {w t g s src text : List Char} (hw : QuotedWord double w t) (hg : QuotedGap double g s)
      (hsrc : StartsWord src)
      (h : Quoted double src text) : Quoted double (w ++ (g ++ src)) (t ++ (s ++ text))

variable {double : Bool}

/-! ## Reading words -/

theorem QuotedAtom.startsWord {a : List Char} {x : Char} (h : QuotedAtom double a x)
    (rest : List Char) :
    StartsWord (a ++ rest) := by
  cases h with
  | ordinary h =>
      rintro _ ⟨⟩
      exact ⟨h.inline, h.notSpace⟩
  | mark h =>
      unfold isOtherMark at h
      simp only [Bool.or_eq_true, Bool.and_eq_true, beq_iff_eq] at h
      rcases h with ⟨-, rfl⟩ | ⟨-, rfl | rfl⟩ <;> rintro _ ⟨⟩ <;> decide
  | quote h =>
      rintro _ ⟨⟩
      decide
  | escaped h he =>
      rintro _ ⟨⟩
      decide

theorem QuotedWord.startsWord {w t : List Char} (h : QuotedWord double w t) : StartsWord w := by
  cases h with
  | nil => exact fun _ hx => absurd hx (Option.not_mem_none _)
  | atom ha hw => exact ha.startsWord _
  | line hdouble hn hsrc hw =>
      rintro _ ⟨⟩
      decide

section Reading

variable {c : Cursor} {x : Char} {rest : List Char}

theorem quotedBreaks_lines {n k : Nat} (hn : 0 < n)
    (h : c.rest = List.replicate k '\n' ++ (List.replicate n ' ' ++ rest))
    (hrest : StartsWord rest) {fuel : Nat} (hfuel : k < fuel) :
    ∃ c', quotedBreaks fuel c = .ok (List.replicate k ['\n'], c') ∧ c'.rest = rest ∧
      c.line ≤ c'.line := by
  induction k generalizing c fuel with
  | zero =>
      obtain ⟨fuel, rfl⟩ := Nat.exists_eq_succ_of_ne_zero (Nat.ne_of_gt hfuel)
      have hspaces : c.rest = List.replicate n ' ' ++ rest := h
      have hseparator : c.atSeparator = false := by
        obtain ⟨n, rfl⟩ := Nat.exists_eq_succ_of_ne_zero (Nat.ne_of_gt hn)
        refine Cursor.atSeparator_false fun y hy => ?_
        rw [hspaces, List.replicate_succ] at hy
        cases hy
        decide
      refine ⟨c.past n rest, ?_, rfl, Nat.le_refl _⟩
      rw [quotedBreaks, hseparator, Cursor.skipWhile_spaces hspaces rfl hrest.notNext_blank]
      dsimp only
      rw [Cursor.lineBreak_none fun y hy => (hrest y hy).1]
      rfl
  | succ k ih =>
      obtain ⟨fuel, rfl⟩ :=
        Nat.exists_eq_succ_of_ne_zero (Nat.ne_of_gt (Nat.lt_of_le_of_lt (Nat.zero_le _) hfuel))
      have hbreak : c.rest = '\n' :: (List.replicate k '\n' ++ (List.replicate n ' ' ++ rest)) := by
        rw [h, List.replicate_succ, List.cons_append]
      have hseparator : c.atSeparator = false := by
        refine Cursor.atSeparator_false fun y hy => ?_
        rw [hbreak] at hy
        cases hy
        decide
      have hskip : (c.skipWhile fun ch => ch == ' ' || ch == '\t') = c := by
        rw [Cursor.skipWhile_spaces (n := 0) hbreak rfl (notNext_cons rfl), ← hbreak]
        rfl
      obtain ⟨c', hread, hrest', hline⟩ := ih (c := c.newLine _) rfl (Nat.lt_of_succ_lt_succ hfuel)
      refine ⟨c', ?_, hrest', Nat.le_trans (Nat.le_succ _) hline⟩
      rw [quotedBreaks, hseparator, hskip]
      dsimp only
      rw [Cursor.lineBreak_newLine hbreak]
      dsimp only [Bool.false_eq_true]
      rw [if_neg Bool.false_ne_true, hread, List.replicate_succ]
      rfl

theorem escape_line {n : Nat} (hn : 0 < n) (h : c.rest = '\n' :: (List.replicate n ' ' ++ rest))
    (hrest : StartsWord rest) {fuel : Nat} (hfuel : 0 < fuel) : ∃ c', escape fuel c = .ok ([], c') ∧
      c'.rest = rest ∧ c.line ≤ c'.line := by
  obtain ⟨c', hread, hrest', hline⟩ :=
    quotedBreaks_lines (k := 0) (c := c.newLine (List.replicate n ' ' ++ rest)) hn rfl hrest hfuel
  refine ⟨c', ?_, hrest', Nat.le_trans (Nat.le_succ _) hline⟩
  have hletter : escapes.lookup '\n' = none := by decide
  have hlength : escapeLength? '\n' = none := by decide
  unfold escape
  dsimp only
  rw [Cursor.here_of_cons h, hletter, hlength]
  dsimp only
  rw [Cursor.lineBreak_newLine h]
  dsimp only
  rw [hread]
  rfl

theorem takeWhile_cons {p : Char → Bool} (h : c.rest = x :: rest) (hx : IsInline x)
    (hp : p x = true) :
    c.takeWhile p = (x :: ((c.past 1 rest).takeWhile p).1, ((c.past 1 rest).takeWhile p).2) := by
  unfold Cursor.takeWhile
  dsimp only
  rw [h, List.takeWhile_cons_of_pos hp, List.length_cons, Cursor.advance, Cursor.step_inline h hx]
  rfl

theorem quotedWord_ordinary (h : c.rest = x :: rest) (hx : IsOrdinary x) (fuel : Nat) :
    quotedWord double (fuel + 1) c =
      (quotedWord double (fuel + 1) (c.past 1 rest)).map (Prod.map (.char x :: ·) id) := by
  rw [quotedWord, quotedWord, takeWhile_cons h hx.inline hx.taken]
  generalize (c.past 1 rest).takeWhile _ = q
  obtain ⟨run, c₁⟩ := q
  dsimp only
  split
  · cases quotedWord double fuel (c₁.advance 2) <;> rfl
  · split
    · cases quotedWord double fuel c₁.step <;> rfl
    · split
      · cases escape fuel c₁.step with
        | error f => rfl
        | ok q =>
            dsimp only [bind, Except.bind]
            cases quotedWord double fuel q.2 <;> rfl
      · rfl

/-- Other characters, which end a run of those, are looked at one by one. -/
theorem quotedWord_mark (h : c.rest = x :: rest)
    (hx : (!(x == '\'' || x == '"' || x == '\\' || endsWord x)) = false)
    (fuel : Nat) :
    quotedWord double (fuel + 1) c =
      if !double && x == '\'' && c.peek 1 == '\'' then
        (quotedWord double fuel (c.advance 2)).map (Prod.map (.char '\'' :: ·) id)
      else if isOtherMark double x then
        (quotedWord double fuel c.step).map (Prod.map (.char x :: ·) id)
      else if double && x == '\\' then
        (escape fuel c.step).bind fun q => (quotedWord double fuel q.2).map (Prod.map (q.1 ++ ·) id)
      else .ok ([], c) := by
  have htake :
      (c.takeWhile fun ch => !(ch == '\'' || ch == '"' || ch == '\\' || endsWord ch)) =
        ([], c) := by
    unfold Cursor.takeWhile
    dsimp only
    rw [h, List.takeWhile_cons_of_neg (by rw [hx]; exact Bool.false_ne_true)]
    rfl
  rw [quotedWord, htake]
  dsimp only
  rw [Cursor.here_of_cons h]
  unfold isOtherMark
  split
  · cases quotedWord double fuel (c.advance 2) <;> rfl
  · split
    · cases quotedWord double fuel c.step <;> rfl
    · split
      · cases escape fuel c.step with
        | error f => rfl
        | ok q =>
            dsimp only [bind, Except.bind]
            cases quotedWord double fuel q.2 <;> rfl
      · rfl

/-- What ends a word: a blank, a line break or the closing quote. -/
inductive EndsQuoted (double : Bool) : List Char → Prop
  | blank (rest : List Char) : EndsQuoted double (' ' :: rest)
  | newLine (rest : List Char) : EndsQuoted double ('\n' :: rest)
  | closing {rest : List Char} (h : NotNext (· == '\'') rest) :
      EndsQuoted double (closing double :: rest)

theorem quotedWord_end {next : List Char} (hnext : EndsQuoted double next) (h : c.rest = next)
    (fuel : Nat) :
    quotedWord double (fuel + 1) c = .ok ([], c) := by
  cases hnext with
  | blank rest =>
      rw [quotedWord_mark h (by rfl)]
      cases double <;> rfl
  | newLine rest =>
      rw [quotedWord_mark h (by rfl)]
      cases double <;> rfl
  | @closing rest hrest =>
      have hpeek : (c.peek 1 == '\'') = false := by
        unfold Cursor.peek
        rw [h]
        cases rest with
        | nil => rfl
        | cons y rest => exact hrest y rfl
      rw [quotedWord_mark h (by cases double <;> rfl), hpeek]
      cases double <;> rfl

/-- An atom is read in one step; a character of a run takes no fuel. -/
theorem quotedWord_atom {a : List Char} (ha : QuotedAtom double a x) (h : c.rest = a ++ rest)
    (fuel : Nat) :
    ∃ c' fuel', fuel ≤ fuel' ∧ c'.rest = rest ∧ c'.line = c.line ∧
      quotedWord double (fuel + 1) c =
        (quotedWord double fuel' c').map (Prod.map (.char x :: ·) id) := by
  cases ha with
  | ordinary hx =>
      exact ⟨c.past 1 rest, fuel + 1, Nat.le_succ fuel, rfl, rfl, quotedWord_ordinary h hx fuel⟩
  | mark hx =>
      have hinline : IsInline x := ((QuotedAtom.mark hx).startsWord [] x rfl).1
      have hmark := hx
      unfold isOtherMark at hmark
      rw [List.singleton_append] at h
      refine ⟨c.past 1 rest, fuel, Nat.le_refl fuel, rfl, rfl, ?_⟩
      rw [quotedWord_mark h (by grind), hx, if_neg (by grind), if_pos rfl,
        Cursor.step_inline h hinline]
  | quote hdouble =>
      subst hdouble
      have hadvance : c.advance 2 = c.past 2 rest :=
        Cursor.advance_inline (show c.rest = ['\'', '\''] ++ rest from h) (isInline_of_all rfl)
      have hpeek : c.peek 1 = '\'' := Cursor.peek_one_of_cons h
      refine ⟨c.past 2 rest, fuel, Nat.le_refl fuel, rfl, rfl, ?_⟩
      rw [quotedWord_mark h (by rfl), hpeek, hadvance]
      rfl
  | @escaped e x hdouble he =>
      subst hdouble
      have hstep : c.step = c.past 1 (e ++ rest) := Cursor.step_inline h (by decide)
      refine ⟨(c.past 1 (e ++ rest)).past e.length rest, fuel, Nat.le_refl fuel, rfl, rfl, ?_⟩
      rw [quotedWord_mark h (by rfl), hstep, he.read fuel rfl]
      rfl

theorem quotedWord_of_word {w t next : List Char} (hw : QuotedWord double w t)
    (hnext : EndsQuoted double next) (h : c.rest = w ++ next) {fuel : Nat}
    (hfuel : w.length < fuel) :
    ∃ c', quotedWord double fuel c = .ok (t.map .char, c') ∧ c'.rest = next ∧
      c.line ≤ c'.line := by
  induction hw generalizing c fuel with
  | nil =>
      obtain ⟨fuel, rfl⟩ := Nat.exists_eq_succ_of_ne_zero (Nat.ne_of_gt hfuel)
      exact ⟨c, quotedWord_end hnext h fuel, h, Nat.le_refl _⟩
  | @atom a src text x ha hw ih =>
      obtain ⟨fuel, rfl⟩ :=
        Nat.exists_eq_succ_of_ne_zero (Nat.ne_of_gt (Nat.lt_of_le_of_lt (Nat.zero_le _) hfuel))
      rw [List.append_assoc] at h
      obtain ⟨c₁, fuel₁, hfuel₁, hrest₁, hline₁, hstep⟩ := quotedWord_atom ha h fuel
      have hpos : 0 < a.length := by cases ha <;> exact Nat.succ_pos _
      rw [List.length_append] at hfuel
      obtain ⟨c', hread, hrest, hline⟩ := ih hrest₁ (show src.length < fuel₁ by omega)
      refine ⟨c', ?_, hrest, hline₁ ▸ hline⟩
      rw [hstep, hread]
      rfl
  | @line n src text hdouble hn hsrc hw ih =>
      subst hdouble
      obtain ⟨fuel, rfl⟩ :=
        Nat.exists_eq_succ_of_ne_zero (Nat.ne_of_gt (Nat.lt_of_le_of_lt (Nat.zero_le _) hfuel))
      simp only [List.length_cons, List.length_append, List.length_replicate] at hfuel
      have hbreak : c.rest = '\\' :: '\n' :: (List.replicate n ' ' ++ (src ++ next)) := by
        rw [h]
        simp
      have hstep : c.step = c.past 1 ('\n' :: (List.replicate n ' ' ++ (src ++ next))) :=
        Cursor.step_inline hbreak (by decide)
      have hstarts : StartsWord (src ++ next) := by
        cases src with
        | nil => exact absurd rfl hsrc
        | cons y src => exact hw.startsWord
      obtain ⟨c₁, hescape, hrest₁, hline₁⟩ :=
        escape_line (c := c.past 1 ('\n' :: (List.replicate n ' ' ++ (src ++ next)))) hn rfl hstarts
          (show 0 < fuel by omega)
      obtain ⟨c', hread, hrest, hline⟩ := ih hrest₁ (show src.length < fuel by omega)
      refine ⟨c', ?_, hrest, Nat.le_trans hline₁ hline⟩
      rw [quotedWord_mark hbreak (by rfl), hstep, hescape]
      show (quotedWord true fuel c₁).map _ = _
      rw [hread]
      rfl

/-! ## Reading whole texts -/

theorem fold_replicate (k : Nat) : fold ['\n'] (List.replicate k ['\n']) = foldedBreaks k := by
  unfold fold foldedBreaks
  cases k with
  | zero => rfl
  | succ k => simp [List.replicate_succ, List.flatten_replicate_singleton]

theorem quotedSpace_of_gap {g s : List Char} (hg : QuotedGap double g s) (hrest : StartsWord rest)
    (hne : rest ≠ []) (h : c.rest = g ++ rest) {fuel : Nat} (hfuel : g.length ≤ fuel) :
    ∃ c', quotedSpace fuel c = .ok (s, c') ∧ c'.rest = rest ∧ c.line ≤ c'.line := by
  cases hg with
  | spaces n =>
      have htake := Cursor.takeWhile_inline (p := fun ch => ch == ' ' || ch == '\t') h
        (fun x hx => by rw [List.eq_of_mem_replicate hx]; decide) hrest.notNext_blank
      refine ⟨c.past (List.replicate (n + 1) ' ').length rest, ?_, rfl, Nat.le_refl _⟩
      obtain ⟨y, rest, rfl⟩ := List.exists_cons_of_ne_nil hne
      have hy : IsInline y := (hrest y rfl).1
      unfold quotedSpace
      rw [htake]
      dsimp only
      rw [Cursor.here_of_cons (show (c.past _ (y :: rest)).rest = y :: rest from rfl),
        beq_eq_false_iff_ne.mpr hy.ne_stop, Cursor.lineBreak_none fun x hx => (hrest x hx).1]
      rfl
  | @lines k n hdouble hn =>
      rw [List.cons_append, List.append_assoc] at h
      have htake : (c.takeWhile fun ch => ch == ' ' || ch == '\t') = ([], c) :=
        Cursor.takeWhile_none (h ▸ notNext_cons rfl)
      obtain ⟨c', hread, hrest', hline⟩ :=
        quotedBreaks_lines (c := c.newLine _) (k := k) hn rfl hrest
        (show k < fuel by simp only [List.length_cons, List.length_append,
          List.length_replicate] at hfuel; omega)
      refine ⟨c', ?_, hrest', Nat.le_trans (Nat.le_succ _) hline⟩
      unfold quotedSpace
      rw [htake]
      dsimp only
      rw [Cursor.here_of_cons h, Cursor.lineBreak_newLine h]
      dsimp only
      rw [if_neg (by decide), hread, ← fold_replicate]
      rfl

theorem QuotedGap.endsQuoted {g s rest : List Char} (h : QuotedGap double g s) :
    EndsQuoted double (g ++ rest) := by
  cases h with
  | spaces n => exact .blank _
  | lines k hdouble hn => exact .newLine _

theorem QuotedGap.length_pos {g s : List Char} (h : QuotedGap double g s) : 0 < g.length := by
  cases h with
  | spaces n => exact Nat.succ_pos _
  | lines k hdouble hn => exact Nat.succ_pos _

theorem startsWord_closing : StartsWord (closing double :: rest) := by
  rintro _ ⟨⟩
  cases double <;> decide

theorem quotedRest_of_quoted {src text : List Char} (hq : Quoted double src text)
    (hrest : NotNext (· == '\'') rest) (h : c.rest = src ++ closing double :: rest) {fuel : Nat}
    (hfuel : src.length < fuel) :
    ∃ c', quotedRest double fuel c = .ok (text.map .char, c') ∧ c'.rest = rest ∧
      c.line ≤ c'.line := by
  induction hq generalizing c fuel with
  | @word w t hw =>
      obtain ⟨fuel, rfl⟩ :=
        Nat.exists_eq_succ_of_ne_zero (Nat.ne_of_gt (Nat.lt_of_le_of_lt (Nat.zero_le _) hfuel))
      obtain ⟨c₁, hread, hrest₁, hline⟩ := quotedWord_of_word hw (.closing hrest) h hfuel
      have hinline : IsInline (closing double) := by cases double <;> decide
      refine ⟨c₁.past 1 rest, ?_, rfl, hline⟩
      rw [quotedRest, hread]
      show (if c₁.here == closing double then _ else _) = _
      rw [Cursor.here_of_cons hrest₁, beq_self_eq_true, if_pos rfl,
        Cursor.step_inline hrest₁ hinline]
      rfl
  | @gap w t g s src text hw hg hsrc hq ih =>
      obtain ⟨fuel, rfl⟩ :=
        Nat.exists_eq_succ_of_ne_zero (Nat.ne_of_gt (Nat.lt_of_le_of_lt (Nat.zero_le _) hfuel))
      have hsplit : c.rest = w ++ (g ++ (src ++ closing double :: rest)) := by
        rw [h]
        simp
      have hpos := hg.length_pos
      simp only [List.length_append] at hfuel
      obtain ⟨c₁, hread₁, hrest₁, hline₁⟩ :=
        quotedWord_of_word hw hg.endsQuoted hsplit (show w.length < fuel + 1 by omega)
      obtain ⟨c₂, hread₂, hrest₂, hline₂⟩ :=
        quotedSpace_of_gap hg (startsWord_append hsrc startsWord_closing) (by simp)
        hrest₁ (show g.length ≤ fuel + 1 by omega)
      obtain ⟨c', hread, hrest', hline⟩ := ih hrest₂ (show src.length < fuel by omega)
      have hopen : (c₁.here == closing double) = false := by
        obtain ⟨y, g', rfl, hy⟩ : ∃ y g', g = y :: g' ∧ (y = ' ' ∨ y = '\n') := by
          cases hg with
          | spaces n => exact ⟨' ', List.replicate n ' ', rfl, .inl rfl⟩
          | lines k hdouble hn => exact ⟨'\n', _, rfl, .inr rfl⟩
        rw [Cursor.here_of_cons hrest₁]
        rcases hy with rfl | rfl <;> cases double <;> rfl
      refine ⟨c', ?_, hrest', Nat.le_trans hline₁ (Nat.le_trans hline₂ hline)⟩
      rw [quotedRest, hread₁]
      show (if c₁.here == closing double then _ else _) = _
      rw [hopen, if_neg Bool.false_ne_true, hread₂]
      dsimp only [bind, Except.bind]
      rw [hread, ← List.append_assoc, List.map_append, List.map_append]
      rfl

theorem quotedText_of_quoted {src text : List Char} (hq : Quoted double src text)
    (hrest : NotNext (· == '\'') rest)
    (h : c.rest = closing double :: (src ++ closing double :: rest)) :
    ∃ c', quotedText double c = .ok (text.map .char, c') ∧ c'.rest = rest ∧ c.line ≤ c'.line := by
  have hinline : IsInline (closing double) := by cases double <;> decide
  have hfuel : src.length < c.rest.length + 1 := by
    rw [h]
    simp only [List.length_cons, List.length_append]
    omega
  unfold quotedText
  rw [Cursor.step_inline h hinline]
  exact quotedRest_of_quoted (c := c.past 1 (src ++ closing double :: rest)) hq hrest rfl hfuel

end Reading

end ImportAudit.Yaml
