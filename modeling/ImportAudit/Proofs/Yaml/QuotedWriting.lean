import ImportAudit.Proofs.Json.Atoms
import ImportAudit.Proofs.Yaml.Page
import ImportAudit.Proofs.Yaml.Quoted
import Mathlib.Data.List.Chain

/-!
# Writing texts in quotes

What is written between two quotes stands for the text, wherever lines are broken.
-/

namespace ImportAudit.Yaml

variable {double : Bool} {src text : List Char}

/-! ## Texts in quotes, from the front -/

theorem Quoted.nil : Quoted double [] [] := .word .nil

theorem Quoted.atom {a : List Char} {x : Char} (ha : QuotedAtom double a x)
    (h : Quoted double src text) :
    Quoted double (a ++ src) (x :: text) := by
  cases h with
  | word hw => exact .word (.atom ha hw)
  | gap hw hg hsrc h =>
      rw [← List.append_assoc]
      exact .gap (.atom ha hw) hg hsrc h

theorem QuotedWord.eq_nil {text : List Char} (h : QuotedWord double [] text) : text = [] := by
  generalize hw : ([] : List Char) = w at h
  cases h with
  | nil => rfl
  | atom ha _ => cases ha <;> cases hw
  | line => cases hw

theorem Quoted.startsWord (h : Quoted double src text) (hspace : NotNext (· == ' ') text)
    (hbreak : double = false → NotNext (· == '\n') text) : StartsWord src := by
  cases h with
  | word hw => exact hw.startsWord
  | @gap w t g s src text hw hg hsrc h =>
      cases w with
      | cons x w => exact hw.startsWord
      | nil =>
          rw [hw.eq_nil] at hspace hbreak
          cases hg with
          | spaces n => exact absurd (hspace ' ' rfl) (by decide)
          | lines k hdouble hn =>
              cases k with
              | zero => exact absurd (hspace ' ' rfl) (by decide)
              | succ k => exact absurd (hbreak hdouble '\n' rfl) (by decide)

theorem Quoted.gap_front {g s : List Char} (hg : QuotedGap double g s) (h : Quoted double src text)
    (hspace : NotNext (· == ' ') text) (hbreak : double = false → NotNext (· == '\n') text) :
    Quoted double (g ++ src) (s ++ text) :=
  .gap .nil hg (h.startsWord hspace hbreak) h

/-- A line of a text in double quotes may be broken before anything but a space. -/
theorem Quoted.line {n : Nat} (hn : 0 < n) (hsrc : src ≠ []) (hstarts : StartsWord src)
    (h : Quoted true src text) :
    Quoted true ('\\' :: '\n' :: (List.replicate n ' ' ++ src)) text := by
  cases h with
  | word hw => exact .word (.line rfl hn hsrc hw)
  | @gap w t g s src text hw hg hsrc' h =>
      have hw' : w ≠ [] := by
        rintro rfl
        cases hg with
        | spaces n => exact (hstarts ' ' rfl).2 rfl
        | lines k hdouble hn => cases hdouble
      have happend : '\\' :: '\n' :: (List.replicate n ' ' ++ (w ++ (g ++ src))) =
          '\\' :: '\n' :: (List.replicate n ' ' ++ w) ++ (g ++ src) := by simp
      rw [happend]
      exact .gap (.line rfl hn hw' hw) hg hsrc' h

theorem Quoted.space (h : Quoted true src text) : Quoted true (' ' :: src) (' ' :: text) := by
  have hspaces {src text : List Char} (hsrc : StartsWord src) (h : Quoted true src text) :
      Quoted true (' ' :: src) (' ' :: text) := .gap .nil (.spaces 0) hsrc h
  cases h with
  | word hw => exact hspaces hw.startsWord (.word hw)
  | @gap w t g s src text hw hg hsrc h =>
      cases w with
      | cons x w => exact hspaces hw.startsWord (.gap hw hg hsrc h)
      | nil =>
          rw [hw.eq_nil]
          cases hg with
          | spaces n => exact .gap .nil (.spaces (n + 1)) hsrc h
          | lines k hdouble hn => cases hdouble

/-! ## What is written -/

theorem QuotedAtom.isWritten {a : List Char} {x : Char} (h : QuotedAtom double a x) :
    ∀ y ∈ a, IsWritten y := by
  cases h with
  | ordinary hx =>
      intro y hy
      rw [List.mem_singleton.mp hy]
      exact .inr hx.inline
  | mark hx =>
      intro y hy
      rw [List.mem_singleton.mp hy]
      exact .inr ((QuotedAtom.mark hx).startsWord [] x rfl).1
  | quote h => exact fun y hy => .inr (isInline_of_all rfl y hy)
  | escaped h he =>
      intro y hy
      rcases List.mem_cons.mp hy with rfl | hy
      · decide
      · exact .inr (he.inline y hy)

theorem isWritten_spaces {n : Nat} : ∀ y ∈ List.replicate n ' ', IsWritten y :=
  fun y hy => .inr (isInline_replicate y hy)

theorem QuotedWord.isWritten (h : QuotedWord double src text) : ∀ y ∈ src, IsWritten y := by
  induction h with
  | nil => exact fun y hy => absurd hy List.not_mem_nil
  | atom ha hw ih => exact List.forall_mem_append.mpr ⟨ha.isWritten, ih⟩
  | line hdouble hn hsrc hw ih =>
      refine List.forall_mem_cons.mpr ⟨by decide, List.forall_mem_cons.mpr ⟨by decide, ?_⟩⟩
      exact List.forall_mem_append.mpr ⟨isWritten_spaces, ih⟩

theorem QuotedGap.isWritten {g s : List Char} (h : QuotedGap double g s) :
    ∀ y ∈ g, IsWritten y := by
  cases h with
  | spaces n => exact isWritten_spaces
  | lines k hdouble hn =>
      refine List.forall_mem_cons.mpr ⟨.inl rfl, List.forall_mem_append.mpr ⟨?_, isWritten_spaces⟩⟩
      exact fun y hy => .inl (List.eq_of_mem_replicate hy)

theorem Quoted.isWritten (h : Quoted double src text) : ∀ y ∈ src, IsWritten y := by
  induction h with
  | word hw => exact hw.isWritten
  | gap hw hg hsrc h ih =>
      exact List.forall_mem_append.mpr ⟨hw.isWritten, List.forall_mem_append.mpr ⟨hg.isWritten, ih⟩⟩

/-! ## Single quotes -/

def Separated (cs : List Char) : Prop :=
  cs.IsChain fun a b => (a == '\n' && b == ' ') = false ∧ (a == ' ' && b == '\n') = false

theorem isWrittenBreak_eq {c : Char} (h : IsWritten c) : isWrittenBreak c = (c == '\n') := by
  rcases h with rfl | ⟨-, hhigh⟩
  · rfl
  · unfold isWrittenBreak
    have hnext : (c.toNat == 0x85) = false := beq_eq_false_iff_ne.mpr (by omega)
    have hline : (c.toNat == 0x2028) = false := beq_eq_false_iff_ne.mpr (by omega)
    have hparagraph : (c.toNat == 0x2029) = false := beq_eq_false_iff_ne.mpr (by omega)
    rw [hnext, hline, hparagraph, Bool.or_false, Bool.or_false, Bool.or_false]

theorem separated_of_hasPair {cs : List Char} (hcs : ∀ x ∈ cs, IsWritten x)
    (hafter : hasPair isWrittenBreak (· == ' ') cs = false)
    (hbefore : hasPair (· == ' ') isWrittenBreak cs = false) : Separated cs := by
  induction cs with
  | nil => exact .nil
  | cons a cs ih =>
      cases cs with
      | nil => exact .singleton a
      | cons b cs =>
          have ha := isWrittenBreak_eq (hcs a List.mem_cons_self)
          have hb := isWrittenBreak_eq (hcs b (List.mem_cons_of_mem a List.mem_cons_self))
          rw [hasPair, Bool.or_eq_false_iff] at hafter hbefore
          rw [ha] at hafter
          rw [hb] at hbefore
          exact List.isChain_cons_cons.mpr ⟨⟨hafter.1, hbefore.1⟩,
            ih (fun x hx => hcs x (List.mem_cons_of_mem a hx)) hafter.2 hbefore.2⟩

inductive Pending : Run → List Char → Prop
  | word {run : List Char} (h : ∀ x ∈ run, IsInline x ∧ x ≠ ' ' ∧ x ≠ '\'') : Pending .word run
  | spaces (m : Nat) : Pending .spaces (List.replicate (m + 1) ' ')
  | breaks (m : Nat) : Pending .breaks (List.replicate (m + 1) '\n')

theorem quotedAtom_single {x : Char} (h : IsInline x ∧ x ≠ ' ' ∧ x ≠ '\'') :
    QuotedAtom false [x] x := by
  by_cases hmark : x = '"' ∨ x = '\\'
  · refine .mark ?_
    rcases hmark with rfl | rfl <;> rfl
  · rw [not_or] at hmark
    exact .ordinary ⟨h.1, h.2.1, h.2.2, hmark.1, hmark.2⟩

theorem quoted_run {run : List Char} (hrun : ∀ x ∈ run, IsInline x ∧ x ≠ ' ' ∧ x ≠ '\'')
    (h : Quoted false src text) :
    Quoted false (run ++ src) (run ++ text) := by
  induction run with
  | nil => exact h
  | cons x run ih =>
      have hx := quotedAtom_single (hrun x List.mem_cons_self)
      exact Quoted.atom (a := [x]) hx (ih fun y hy => hrun y (List.mem_cons_of_mem x hy))

/-- A run is written so that it stands for itself before any text that does not
go on with a blank. -/
theorem flush_spec (split : Bool) {n : Nat} (hn : 0 < n) (hwidth : n ≤ Page.width)
    {run : List Char} {kind : Run} (hrun : Pending kind run) (first last : Bool) (p : Page) :
    ∃ S, (writeSingle.flush split n run kind first last p).chars = p.chars ++ S ∧
      ∀ {src text : List Char}, Quoted false src text →
        (kind ≠ .word → NotNext (· == ' ') text ∧ NotNext (· == '\n') text) →
          Quoted false (S ++ src) (run ++ text) := by
  cases hrun with
  | word hrun => exact ⟨run, Page.chars_put p run, fun h _ => quoted_run hrun h⟩
  | spaces m =>
      unfold writeSingle.flush
      dsimp only
      split
      · rename_i hfold
        simp only [List.length_replicate, Bool.and_eq_true, decide_eq_true_eq,
          Nat.add_eq_right] at hfold
        obtain ⟨⟨⟨⟨rfl, hlong⟩, -⟩, -⟩, -⟩ := hfold
        refine ⟨_, (Page.indent_newLine (.inr (by omega))).1, fun h hnext => ?_⟩
        obtain ⟨hspace, hbreak⟩ := hnext (by decide)
        exact .gap_front (.lines 0 rfl hn) h hspace fun _ => hbreak
      · refine ⟨_, Page.chars_put p _, fun h hnext => ?_⟩
        obtain ⟨hspace, hbreak⟩ := hnext (by decide)
        exact .gap_front (.spaces m) h hspace fun _ => hbreak
  | breaks m =>
      refine ⟨'\n' :: (List.replicate (m + 1) '\n' ++ List.replicate n ' '), ?_, fun h hnext => ?_⟩
      · show (((List.replicate (m + 1) '\n').foldl Page.endLine (p.endLine '\n')).indent n).chars =
            _
        rw [Page.indent_endLines, Page.chars_endLine, List.append_assoc]
        rfl
      · obtain ⟨hspace, hbreak⟩ := hnext (by decide)
        exact .gap_front (.lines (m + 1) rfl hn) h hspace fun _ => hbreak

theorem pending_runOf {c : Char} (h : IsWritten c) (hquote : c ≠ '\'') : Pending (runOf c) [c] := by
  unfold runOf
  rw [isWrittenBreak_eq h]
  split
  · rename_i hspace
    rw [eq_of_beq hspace]
    exact .spaces 0
  · rename_i hspace
    split
    · rename_i hbreak
      rw [eq_of_beq hbreak]
      exact .breaks 0
    · rename_i hbreak
      have hc : IsInline c := h.resolve_left (by simpa using hbreak)
      exact .word fun x hx => by
        rw [List.mem_singleton.mp hx]
        exact ⟨hc, by simpa using hspace, hquote⟩

theorem pending_snoc {c : Char} {run : List Char} (hrun : Pending (runOf c) run) (h : IsWritten c)
    (hquote : c ≠ '\'') :
    Pending (runOf c) (run ++ [c]) := by
  have hone := pending_runOf h hquote
  generalize runOf c = kind at hrun hone
  cases hrun with
  | word hrun =>
      cases hone with
      | word hc => exact .word (List.forall_mem_append.mpr ⟨hrun, hc⟩)
  | spaces m =>
      generalize [c] = cs at hone ⊢
      cases hone with
      | spaces k =>
          rw [List.replicate_append_replicate]
          exact .spaces (m + 1 + k)
  | breaks m =>
      generalize [c] = cs at hone ⊢
      cases hone with
      | breaks k =>
          rw [List.replicate_append_replicate]
          exact .breaks (m + 1 + k)

/-- After a run of blanks comes neither a space nor a line break, unless it belongs to the run. -/
theorem notNext_of_pending {kind : Run} {run cs : List Char} {c : Char} (hrun : Pending kind run)
    (h : IsWritten c) (hkind : runOf c ≠ kind) (hseparated : Separated (run ++ c :: cs))
    (hblank : kind ≠ .word) :
    NotNext (· == ' ') (c :: cs) ∧ NotNext (· == '\n') (c :: cs) := by
  obtain ⟨-, -, hlast⟩ := List.isChain_append.mp hseparated
  unfold runOf at hkind
  rw [isWrittenBreak_eq h] at hkind
  cases hrun with
  | word => exact absurd rfl hblank
  | spaces m =>
      have hpair := (hlast ' ' (by rw [List.replicate_succ', List.getLast?_concat]; rfl) c rfl).2
      exact ⟨notNext_cons (by grind), notNext_cons (by grind)⟩
  | breaks m =>
      have hpair := (hlast '\n' (by rw [List.replicate_succ', List.getLast?_concat]; rfl) c rfl).1
      exact ⟨notNext_cons (by grind), notNext_cons (by grind)⟩

theorem writeSingle_go (split : Bool) {n : Nat} (hn : 0 < n) (hwidth : n ≤ Page.width)
    (cs : List Char) {run : List Char} {kind : Run} (first : Bool) (p : Page)
    (hrun : Pending kind run) (hcs : ∀ x ∈ cs, IsWritten x) (hseparated : Separated (run ++ cs)) :
    ∃ S, (writeSingle.go split n cs run kind first p).chars = p.chars ++ S ∧
      Quoted false S (run ++ cs) := by
  induction cs generalizing run kind first p with
  | nil =>
      obtain ⟨S, hchars, hquoted⟩ := flush_spec split hn hwidth hrun first true p
      have hnone {q : Char → Bool} : NotNext q [] := fun _ hx => absurd hx (Option.not_mem_none _)
      refine ⟨S, hchars, ?_⟩
      have h := hquoted .nil fun _ => ⟨hnone, hnone⟩
      rwa [List.append_nil] at h
  | cons c cs ih =>
      have hc : IsWritten c := hcs c List.mem_cons_self
      have hcs' : ∀ x ∈ cs, IsWritten x := fun x hx => hcs x (List.mem_cons_of_mem c hx)
      obtain ⟨S, hchars, hquoted⟩ := flush_spec split hn hwidth hrun first false p
      rw [writeSingle.go]
      split
      · -- A quote is written twice, after the run before it.
        rename_i hquote
        obtain rfl := eq_of_beq hquote
        have hnone : Pending .word [] := .word fun x hx => absurd hx List.not_mem_nil
        obtain ⟨S', hchars', hquoted'⟩ :=
          ih false ((writeSingle.flush split n run kind first false p).put ['\'', '\'']) hnone
          hcs' hseparated.right_of_append.tail
        refine ⟨S ++ ('\'' :: '\'' :: S'), ?_, hquoted (.atom (.quote rfl) hquoted') fun _ => ?_⟩
        · rw [hchars', Page.chars_put, hchars]
          simp
        · exact ⟨notNext_cons rfl, notNext_cons rfl⟩
      · rename_i hquote
        have hquote' : c ≠ '\'' := by simpa using hquote
        split
        · rename_i hkind
          subst hkind
          obtain ⟨S', hchars', hquoted'⟩ := ih first p (pending_snoc hrun hc hquote') hcs'
            (by rwa [List.append_assoc, List.singleton_append])
          rw [List.append_assoc, List.singleton_append] at hquoted'
          exact ⟨S', hchars', hquoted'⟩
        · rename_i hkind
          obtain ⟨S', hchars', hquoted'⟩ :=
            ih (first && run.isEmpty) (writeSingle.flush split n run kind first false p)
            (pending_runOf hc hquote') hcs' hseparated.right_of_append
          refine ⟨S ++ S', ?_, hquoted hquoted' (notNext_of_pending hrun hc hkind hseparated)⟩
          rw [hchars', hchars, List.append_assoc]

theorem traits_single {s : String} (h : (traits s).single = true) :
    (∀ x ∈ s.toList, IsWritten x) ∧ Separated s.toList := by
  unfold traits at h
  generalize s.toList = cs at h ⊢
  cases cs with
  | nil => exact ⟨fun x hx => absurd hx List.not_mem_nil, .nil⟩
  | cons c cs =>
      simp only [Bool.and_eq_true, Bool.not_eq_eq_eq_not, Bool.not_true, Bool.or_eq_false_iff] at h
      obtain ⟨hafter, hspecial, hbefore⟩ := h
      have hwritten : ∀ x ∈ c :: cs, IsWritten x := fun x hx =>
        isSpecial_eq_false_iff.mp (by simpa using List.any_eq_false.mp hspecial x hx)
      exact ⟨hwritten, separated_of_hasPair hwritten hafter hbefore⟩

def Page.blankBefore (p : Page) : List Char := if p.afterBlank then [] else [' ']

theorem Page.chars_open (p : Page) (m : Char) :
    (p.mark (String.singleton m) true false false).chars = p.chars ++ (p.blankBefore ++ [m]) := by
  rw [Page.chars_mark, Page.blankBefore]
  cases p.afterBlank <;> simp

theorem Page.chars_close (p : Page) (m : Char) :
    (p.mark (String.singleton m) false false false).chars = p.chars ++ [m] := by
  rw [Page.chars_mark]
  simp

theorem writeSingle_spec (split : Bool) {n : Nat} (hn : 0 < n)
    (hwidth : n ≤ Page.width) {s : String} (h : (traits s).single = true) (p : Page) :
    ∃ S, (writeSingle split n s p).chars = p.chars ++ (p.blankBefore ++ '\'' :: (S ++ ['\''])) ∧
      Quoted false S s.toList := by
  obtain ⟨hwritten, hseparated⟩ := traits_single h
  obtain ⟨S, hchars, hquoted⟩ := writeSingle_go split hn hwidth s.toList true
    (p.mark "'" true false false) (.word fun x hx => absurd hx List.not_mem_nil) hwritten hseparated
  refine ⟨S, ?_, hquoted⟩
  unfold writeSingle
  dsimp only
  rw [show "'" = String.singleton '\'' from rfl] at hchars ⊢
  rw [Page.chars_close, hchars, Page.chars_open]
  simp

/-! ## Escapes -/

theorem hexNumber_concat (ds : List Char) (d : Char) :
    hexNumber (ds ++ [d]) = (hexNumber ds).bind fun n => (hexDigit? d).map fun d => 16 * n + d := by
  unfold hexNumber
  rw [List.foldl_append]
  rfl

theorem hexDigit?_upper : ∀ d < 16, hexDigit? d.digitChar.toUpper = some d ∧
    IsInline d.digitChar.toUpper := by
  decide

theorem upperHex_spec {n : Nat} (k : Nat) (h : n < 16 ^ (k + 1)) :
    (upperHex (k + 1) n).length = k + 1 ∧ hexNumber (upperHex (k + 1) n) = some n ∧
      ∀ x ∈ upperHex (k + 1) n, IsInline x := by
  induction k generalizing n with
  | zero =>
      have hn : n < 16 := h
      have hdigits : upperHex 1 n = [n.digitChar.toUpper] := by
        unfold upperHex Text.hexDigits
        rw [Nat.toDigits_of_lt_base hn]
        rfl
      obtain ⟨hvalue, hinline⟩ := hexDigit?_upper n hn
      rw [hdigits]
      refine ⟨rfl, ?_, fun x hx => ?_⟩
      · rw [← List.nil_append [n.digitChar.toUpper], hexNumber_concat, hvalue]
        simp [hexNumber]
      · rw [List.mem_singleton.mp hx]
        exact hinline
  | succ k ih =>
      have hdiv : n / 16 < 16 ^ (k + 1) := by
        rw [Nat.div_lt_iff_lt_mul (by omega), ← Nat.pow_succ]
        exact h
      have hdigits :
          upperHex (k + 1 + 1) n = upperHex (k + 1) (n / 16) ++ [(n % 16).digitChar.toUpper] := by
        unfold upperHex
        rw [Json.hexDigits_succ (Nat.succ_pos k), List.map_append, List.map_singleton]
      obtain ⟨hlength, hnumber, hinline⟩ := ih hdiv
      obtain ⟨hvalue, hlast⟩ := hexDigit?_upper (n % 16) (by omega)
      rw [hdigits]
      refine ⟨?_, ?_, List.forall_mem_append.mpr ⟨hinline, fun x hx => ?_⟩⟩
      · rw [List.length_append, hlength, List.length_singleton]
      · rw [hexNumber_concat, hnumber, hvalue, Option.bind_some, Option.map_some]
        congr 1
        omega
      · rw [List.mem_singleton.mp hx]
        exact hlast

theorem isEscape_letter {letter x : Char} (hletter : IsInline letter)
    (h : escapes.lookup letter = some x.toNat) :
    IsEscape [letter] x where
  inline y hy := by
    rw [List.mem_singleton.mp hy]
    exact hletter
  read fuel c rest hrest := by
    unfold escape
    dsimp only
    rw [Cursor.here_of_cons hrest, h, Cursor.step_inline hrest hletter]
    dsimp only
    rw [Text.Point.ofNat_toNat]
    rfl

theorem toNat_lt (x : Char) : x.toNat < 0x110000 := by
  have hvalid : x.toNat < 0xd800 ∨ (0xdfff < x.toNat ∧ x.toNat < 0x110000) := x.valid
  omega

theorem isEscape_digits (kind : Char) {x : Char} {k : Nat} (hkind : IsInline kind)
    (hletter : escapes.lookup kind = none) (hlength : escapeLength? kind = some (k + 1))
    (hx : x.toNat < 16 ^ (k + 1)) :
    IsEscape (kind :: upperHex (k + 1) x.toNat) x where
  inline := by
    obtain ⟨-, -, hinline⟩ := upperHex_spec k hx
    exact List.forall_mem_cons.mpr ⟨hkind, hinline⟩
  read fuel c rest hrest := by
    obtain ⟨hsize, hnumber, hinline⟩ := upperHex_spec k hx
    generalize upperHex (k + 1) x.toNat = ds at *
    have hstep : c.step = c.past 1 (ds ++ rest) := Cursor.step_inline hrest hkind
    have htake : (c.past 1 (ds ++ rest)).rest.take (k + 1) = ds := by
      rw [← hsize]
      exact List.take_left
    have hadvance : (c.past 1 (ds ++ rest)).advance (k + 1) = c.past (kind :: ds).length rest := by
      rw [← hsize, Cursor.advance_inline rfl hinline]
      simp only [Cursor.past, List.length_cons, Cursor.mk.injEq, true_and]
      omega
    unfold escape
    dsimp only
    rw [Cursor.here_of_cons hrest, hletter, hlength, hstep]
    dsimp only
    rw [htake, hsize, if_pos rfl, hnumber]
    dsimp only
    rw [if_pos (toNat_lt x), hadvance, Text.Point.ofNat_toNat]

theorem writtenEscapes_read {n : Nat} {letter : Char} (h : (n, letter) ∈ writtenEscapes) :
    escapes.lookup letter = some n ∧ IsInline letter := by
  have hall : (writtenEscapes.all fun e => decide (escapes.lookup e.2 = some e.1 ∧ IsInline e.2)) =
      true := by decide
  exact of_decide_eq_true (List.all_eq_true.mp hall _ h)

theorem writtenEscape?_spec (x : Char) :
    (∃ e, writtenEscape? x = some ('\\' :: e) ∧ IsEscape e x) ∨
      (writtenEscape? x = none ∧ IsInline x ∧ x ≠ '"' ∧ x ≠ '\\') := by
  have hmax := toNat_lt x
  unfold writtenEscape?
  dsimp only
  cases hlookup : writtenEscapes.lookup x.toNat with
  | some letter =>
      obtain ⟨before, after, hmem, -⟩ := List.lookup_eq_some_iff.mp hlookup
      obtain ⟨hletter, hinline⟩ :=
        writtenEscapes_read (hmem ▸ List.mem_append_right before List.mem_cons_self)
      exact .inl ⟨[letter], rfl, isEscape_letter hinline hletter⟩
  | none =>
      dsimp only
      split
      · rename_i hrange
        refine .inr ⟨rfl, hrange, ?_, ?_⟩
        · rintro rfl
          exact absurd hlookup (by decide)
        · rintro rfl
          exact absurd hlookup (by decide)
      · refine .inl ?_
        split
        · rename_i hsmall
          exact ⟨_, rfl, isEscape_digits 'x' (k := 1) (by decide) (by decide) rfl (by omega)⟩
        · split
          · rename_i hmiddle
            exact ⟨_, rfl, isEscape_digits 'u' (k := 3) (by decide) (by decide) rfl (by omega)⟩
          · exact ⟨_, rfl, isEscape_digits 'U' (k := 7) (by decide) (by decide) rfl (by omega)⟩

theorem isEscape_space : IsEscape [' '] ' ' := isEscape_letter isInline_space rfl

/-! ## Double quotes -/

theorem quoted_plain {x : Char} (hx : IsInline x ∧ x ≠ '"' ∧ x ≠ '\\') (h : Quoted true src text) :
    Quoted true (x :: src) (x :: text) := by
  by_cases hspace : x = ' '
  · rw [hspace]
    exact h.space
  · refine Quoted.atom (a := [x]) ?_ h
    by_cases hquote : x = '\''
    · rw [hquote]
      exact .mark rfl
    · exact .ordinary ⟨hx.1, hspace, hquote, hx.2.1, hx.2.2⟩

theorem Quoted.ne_nil {x : Char} (h : Quoted double src (x :: text)) : src ≠ [] := by
  rintro rfl
  generalize hsrc : ([] : List Char) = src at h
  generalize htext : x :: text = text at h
  cases h with
  | word hw =>
      subst hsrc
      rw [hw.eq_nil] at htext
      cases htext
  | gap hw hg =>
      have hpos := hg.length_pos
      have hlength := congrArg List.length hsrc
      simp only [List.length_nil, List.length_append] at hlength
      omega

theorem breakLine_spec {n : Nat} (next : Option Text.Point) (run : List Char) {p : Page}
    (h : n < p.column + run.length + 1) :
    (writeDouble.breakLine n next run p).chars =
        p.chars ++ (run ++ ('\\' :: '\n' :: (List.replicate n ' ' ++
          if next = some (.char ' ') then ['\\'] else []))) ∧
      (writeDouble.breakLine n next run p).column ≤ n + 1 := by
  have hindent := Page.indent_newLine (p := p.put (run ++ ['\\'])) (n := n)
    (.inr (by simp only [Page.column_put, List.length_append, List.length_singleton]; omega))
  unfold writeDouble.breakLine
  dsimp only
  split
  · refine ⟨?_, ?_⟩
    · rw [Page.chars_put, Page.chars_midLine, hindent.1, Page.chars_put]
      simp
    · rw [Page.column_put, Page.column_midLine, hindent.2]
      exact Nat.le_refl _
  · refine ⟨?_, ?_⟩
    · rw [Page.chars_midLine, hindent.1, Page.chars_put]
      simp
    · rw [Page.column_midLine, hindent.2]
      exact Nat.le_succ n

/-- Right after a line was broken a space is only noted. -/
theorem writeDouble_go_space {split : Bool} {n : Nat} (length : Nat) (cs : List Char)
    (i : Nat) {p : Page} (h : p.column ≤ Page.width) :
    writeDouble.go split n length (.char ' ' :: cs.map .char) [] i p =
      writeDouble.go split n length (cs.map .char) [' '] (i + 1) p := by
  have hescape : writtenPoint (.char ' ') = .inr ' ' := by decide
  have hshort : decide (Page.width < p.column + ([] : List Char).length) = false :=
    decide_eq_false (Nat.not_lt.mpr h)
  rw [writeDouble.go, hescape]
  dsimp only
  rw [hshort, Bool.and_false, if_neg Bool.false_ne_true]
  rfl

theorem startsWord_escape {rest : List Char} : StartsWord ('\\' :: rest) := by
  rintro _ ⟨⟩
  decide

theorem writeDouble_go (split : Bool) {n length : Nat} (hn : 0 < n) (hwidth : n < Page.width)
    (cs run : List Char) (i : Nat) (p : Page) (hlength : i + cs.length = length) :
    ∃ S, (writeDouble.go split n length (cs.map .char) run i p).chars = p.chars ++ (run ++ S) ∧
      Quoted true S cs := by
  -- A space after a broken line is handled together with the break, so the induction is on the
  -- length.
  induction hk : cs.length using Nat.strong_induction_on generalizing cs run i p with
  | _ k ih =>
      cases cs with
      | nil => exact ⟨[], by rw [List.append_nil]; exact Page.chars_put p run, .nil⟩
      | cons c cs =>
          rw [List.length_cons] at hk hlength
          have hgo (run : List Char) (p : Page) :
              ∃ S, (writeDouble.go split n length (cs.map .char) run (i + 1) p).chars =
                p.chars ++ (run ++ S) ∧ Quoted true S cs :=
            ih cs.length (by omega) cs run (i + 1) p (by omega) rfl
          rw [List.map_cons, writeDouble.go, writtenPoint]
          rcases writtenEscape?_spec c with ⟨e, hescape, he⟩ | ⟨hescape, hplain⟩
          · rw [hescape]
            dsimp only
            split
            · rename_i hbreak
              simp only [Bool.and_eq_true, decide_eq_true_eq] at hbreak
              obtain ⟨⟨-, hi⟩, hlong⟩ := hbreak
              obtain ⟨d, cs, rfl⟩ : ∃ d cs', cs = d :: cs' :=
                List.exists_cons_of_length_pos (by omega)
              obtain ⟨hchars, hcolumn⟩ := breakLine_spec (n := n)
                (p := (p.put run).put ('\\' :: e)) (some (.char d)) []
                (by rw [List.length_nil]; omega)
              rw [List.map_cons, List.head?_cons]
              by_cases hspace : d = ' '
              · subst hspace
                obtain ⟨S, hchars', hquoted⟩ :=
                  ih cs.length (by simp only [List.length_cons] at hk; omega) cs [' ']
                  (i + 1 + 1)
                  (writeDouble.breakLine n (some (.char ' ')) [] ((p.put run).put ('\\' :: e)))
                  (by simp only [List.length_cons] at hlength; omega) rfl
                rw [writeDouble_go_space _ _ _ (by omega)]
                refine ⟨'\\' :: e ++ ('\\' :: '\n' :: (List.replicate n ' ' ++ ('\\' :: ' ' :: S))),
                  ?_, .atom (.escaped rfl he) (.line hn (List.cons_ne_nil _ _) startsWord_escape
                    (.atom (.escaped rfl isEscape_space) hquoted))⟩
                rw [hchars', hchars]
                simp
              · obtain ⟨S, hchars', hquoted⟩ := hgo []
                  (writeDouble.breakLine n (some (.char d)) [] ((p.put run).put ('\\' :: e)))
                rw [List.map_cons] at hchars'
                have hstarts : StartsWord S :=
                  hquoted.startsWord (notNext_cons (by simpa using hspace)) (fun h => by cases h)
                refine ⟨'\\' :: e ++ ('\\' :: '\n' :: (List.replicate n ' ' ++ S)), ?_,
                  .atom (.escaped rfl he) (.line hn hquoted.ne_nil hstarts hquoted)⟩
                rw [hchars', hchars]
                simp [hspace]
            · obtain ⟨S, hchars, hquoted⟩ := hgo [] ((p.put run).put ('\\' :: e))
              refine ⟨'\\' :: e ++ S, ?_, .atom (.escaped rfl he) hquoted⟩
              rw [hchars]
              simp
          · rw [hescape]
            dsimp only
            split
            · rename_i hbreak
              simp only [Bool.and_eq_true, decide_eq_true_eq] at hbreak
              obtain ⟨-, hlong⟩ := hbreak
              obtain ⟨hchars, -⟩ :=
                breakLine_spec (n := n) (p := p) (some (.char c)) run (by omega)
              obtain ⟨S, hchars', hquoted⟩ :=
                hgo [c] (writeDouble.breakLine n (some (.char c)) run p)
              by_cases hspace : c = ' '
              · subst hspace
                refine ⟨'\\' :: '\n' :: (List.replicate n ' ' ++ ('\\' :: ' ' :: S)), ?_,
                  .line hn (List.cons_ne_nil _ _) startsWord_escape
                    (.atom (.escaped rfl isEscape_space) hquoted)⟩
                rw [hchars', hchars]
                simp
              · have hstarts : StartsWord (c :: S) := by
                  rintro _ ⟨⟩
                  exact ⟨hplain.1, hspace⟩
                refine ⟨'\\' :: '\n' :: (List.replicate n ' ' ++ (c :: S)), ?_,
                  .line hn (List.cons_ne_nil _ _) hstarts (quoted_plain hplain hquoted)⟩
                rw [hchars', hchars]
                simp [hspace]
            · obtain ⟨S, hchars, hquoted⟩ := hgo (run ++ [c]) p
              refine ⟨c :: S, ?_, quoted_plain hplain hquoted⟩
              rw [hchars]
              simp

theorem writeDouble_spec (split : Bool) {n : Nat} (hn : 0 < n) (hwidth : n < Page.width)
    (s : String) (p : Page) :
    ∃ S, (writeDouble split n (s.toList.map .char) p).chars =
        p.chars ++ (p.blankBefore ++ '"' :: (S ++ ['"'])) ∧ Quoted true S s.toList := by
  obtain ⟨S, hchars, hquoted⟩ := writeDouble_go split hn hwidth s.toList [] 0
    (p.mark "\"" true false false) ((Nat.zero_add _).trans (List.length_map Text.Point.char).symm)
  refine ⟨S, ?_, hquoted⟩
  unfold writeDouble
  rw [show "\"" = String.singleton '"' from rfl] at hchars ⊢
  rw [Page.chars_close, hchars, Page.chars_open]
  simp

end ImportAudit.Yaml
