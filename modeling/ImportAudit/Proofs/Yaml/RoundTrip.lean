import ImportAudit.Proofs.Yaml.Block
import ImportAudit.Proofs.Yaml.Node

/-!
# What is written is read back

A document of mappings whose keys are names is read back as the value it was written for, with the
entries of each mapping in the order of their keys.
-/

namespace ImportAudit.Yaml

open Lexer (AfterColon OnLine IsKeyWord)
open Node (Stands ItemTokens EntryTokens)

/-! ## Names -/

def nameLetters : List Char := "abcdefghijklmnopqrstuvwxyz_".toList

/-- Short words of lower-case letters that stand for no other value. -/
structure IsName (k : String) : Prop where
  nonempty : k ≠ ""
  letters : (k.toList.all nameLetters.contains) = true
  short : k.length ≤ 100
  text : Scalar.implicitTag k = standard "str"

structure IsNameLetter (d : Char) : Prop where
  inline : IsInline d
  notSpace : d ≠ ' '
  notMark : opensMark d true = false
  notColon : d ≠ ':'
  notNumberSign : d ≠ '#'
  notDash : d ≠ '-'
  notPoint : d ≠ '.'

namespace IsName

variable {k : String} {n : Nat}

theorem letter (hk : IsName k) : ∀ d ∈ k.toList, IsNameLetter d := by
  have hall :
      (nameLetters.all fun d =>
        decide (IsInline d ∧ d ≠ ' ' ∧ opensMark d true = false ∧ d ≠ ':' ∧ d ≠ '#' ∧
      d ≠ '-' ∧ d ≠ '.')) = true := by decide
  intro d hd
  have hmem := List.contains_iff_mem.mp (List.all_eq_true.mp hk.letters d hd)
  obtain ⟨hinline, hspace, hmark, hcolon, hsign, hdash, hpoint⟩ :=
    of_decide_eq_true (List.all_eq_true.mp hall d hmem)
  exact ⟨hinline, hspace, hmark, hcolon, hsign, hdash, hpoint⟩

theorem exists_cons (hk : IsName k) : ∃ c cs, k.toList = c :: cs :=
  List.exists_cons_of_ne_nil fun hnil => hk.nonempty (String.toList_eq_nil_iff.mp hnil)

theorem isKeyWord (hk : IsName k) : IsKeyWord k.toList where
  word := by
    obtain ⟨c, cs, hcs⟩ := hk.exists_cons
    refine ⟨by rw [hcs]; exact List.cons_ne_nil c cs, fun d hd => ⟨(hk.letter d hd).inline,
      (hk.letter d hd).notSpace⟩, ?_⟩
    exact fun hlast => (hk.letter ':' (List.mem_of_getLast? hlast)).notColon rfl
  opens := fun d hd =>
    ⟨(hk.letter d (List.mem_of_head? hd)).notMark, (hk.letter d (List.mem_of_head? hd)).notPoint⟩
  short := by
    rw [String.length_toList]
    exact Nat.le_trans hk.short (by decide)

theorem traits (hk : IsName k) :
    (traits k).plain = true ∧ (Yaml.traits k).isEmpty = false ∧
      (Yaml.traits k).hasBreaks = false := by
  obtain ⟨c, cs, hcs⟩ := hk.exists_cons
  have hletter := hk.letter
  rw [hcs] at hletter
  refine ⟨traits_word hcs (fun d hd => ⟨(hletter d hd).inline, (hletter d hd).notSpace⟩)
    ?_ ?_ ?_, ?_, ?_⟩
  · exact opensMark_mono (hletter c List.mem_cons_self).notMark _
  · exact hasInnerMark_eq_false fun d hd =>
      have hd' := hletter d (List.mem_cons_of_mem c hd)
      ⟨hd'.notColon, hd'.notNumberSign⟩
  · have hc := hletter c List.mem_cons_self
    simp [List.isPrefixOf, hc.notDash.symm, hc.notPoint.symm]
  · unfold Yaml.traits
    rw [hcs]
  · unfold Yaml.traits
    rw [hcs]
    refine List.any_eq_false.mpr fun d hd => ?_
    rw [isWrittenBreak_eq (.inr (hletter d hd).inline), beq_iff_eq]
    rintro rfl
    exact absurd (hletter '\n' hd).inline (by decide)

theorem isShortKey (hk : IsName k) : isShortKey (.str k) = true := by
  obtain ⟨-, hempty, hbreaks⟩ := hk.traits
  have hlength : k.length + "str".length + 2 < 128 := by
    have hshort := hk.short
    have htag : "str".length = 3 := rfl
    omega
  unfold Yaml.isShortKey
  show (decide (k.length + "str".length + 2 < 128) && !(Yaml.traits k).isEmpty &&
      !(Yaml.traits k).hasBreaks) = true
  rw [hempty, hbreaks, decide_eq_true hlength]
  rfl

theorem chars_writeValue (hk : IsName k) (hn : n + 2 ≤ Page.width) {p : Page}
    (hp : p.afterBlank = true) :
    (writeValue true true (some n) (.str k) p).chars = p.chars ++ k.toList := by
  obtain ⟨hplain, hempty, hbreaks⟩ := hk.traits
  obtain ⟨c, cs, hcs⟩ := hk.exists_cons
  have hwrite : writeValue true true (some n) (.str k) p = writePlain false (n + 2) k p := by
    show writeLeaf true (some n) ⟨"str", k, false⟩ p = _
    unfold writeLeaf
    dsimp only
    rw [hk.text, hplain, hempty, hbreaks, beq_self_eq_true]
    rfl
  obtain ⟨src, hchars, hsrc⟩ := writePlain_spec false hn hcs hplain p
  have hsame := hsrc.eq_of_not_mem fun hspace => (hk.letter ' ' hspace).notSpace rfl
  rw [hwrite, hchars, hsame, Page.blankBefore, hp]
  rfl

end IsName

/-! ## Values after a key -/

/-- What is written for a value after a key in a block at a column is read as the value. -/
def ReadsBack (n : Nat) (v : Value) : Prop :=
  ∀ p : Page, p.onlyIndented = false → p.afterBlank = false → ∃ src ts,
    (writeValue true false (some n) v p).chars = p.chars ++ src ∧
      (writeValue true false (some n) v p).onlyIndented = false ∧ AfterColon n src ts ∧ Stands ts v

variable {n : Nat}

structure Lines (n : Nat) (src : List Char) (ts : List Token) : Prop where
  next {src₀ : List Char} {ts₀ : List Token} (h : AfterColon n src₀ ts₀) : AfterColon n
    (src₀ ++ src) (ts₀ ++ ts)
  alone (h : ts ≠ []) : AfterColon n src ts

theorem Lines.nil (n : Nat) : Lines n [] [] where
  next h := by
    rw [List.append_nil, List.append_nil]
    exact h
  alone h := absurd rfl h

theorem Lines.cons {line src : List Char} {ts ts' : List Token} (hline : OnLine n line ts)
    (h : Lines n src ts') :
    Lines n ('\n' :: (List.replicate n ' ' ++ (line ++ src))) (ts ++ ts') where
  next h₀ := by
    have hall := h.next (h₀.next hline)
    simp only [List.append_assoc, List.cons_append] at hall ⊢
    exact hall
  alone _ := by
    have hall := h.next (.onLine hline)
    simp only [List.append_assoc, List.cons_append] at hall ⊢
    exact hall

theorem writeValue_leaf {v : Value} (hv : IsLeaf v) (inMapping : Bool) (p : Page) {l : Leaf}
    (hl : leaf? v = some l) :
    writeValue inMapping false (some n) v p = writeLeaf false (some n) l p := by
  cases hv <;> cases hl <;> rfl

theorem readsBack_leaf {v : Value} (hv : IsLeaf v) (hn : n + 2 < Page.width) : ReadsBack n v := by
  intro p honly hblank
  obtain ⟨l, hl, src, plain, hchars, honly', hsource, hvalue⟩ := writeLeaf_spec hv hn p
  rw [← writeValue_leaf hv true p hl] at hchars honly'
  refine ⟨' ' :: src, [.scalar l.text plain], ?_, honly', ?_, .scalar hvalue⟩
  · rw [hchars, Page.blankBefore, hblank]
    rfl
  · have hcolon := AfterColon.scalar hsource
    rw [String.ofList_toList] at hcolon
    exact hcolon

theorem readsBack_nil (n : Nat) : ReadsBack n (.list []) := by
  intro p honly hblank
  refine ⟨[' ', '[', ']'], _, ?_, Bool.and_false _, .brackets n, .brackets⟩
  show ((p.mark "[" true true false).mark "]" false false false).chars = _
  rw [Page.chars_mark, Page.chars_mark, hblank, List.append_assoc]
  rfl

/-! ## Sequences -/

theorem writeItem_spec {v : Value} (hv : IsLeaf v) (hn : n + 2 < Page.width) {p : Page}
    (hp : p.afterBlank = true) :
    ∃ src text plain, (writeValue false false (some n) v (p.mark "-" true false true)).chars =
      p.chars ++ ('-' :: ' ' :: src) ∧
      (writeValue false false (some n) v (p.mark "-" true false true)).onlyIndented = false ∧
      ScalarSource (n + 2) src text plain ∧
      Scalar.value (readTag (String.ofList text) plain) (String.ofList text) = .ok v := by
  obtain ⟨l, hl, src, plain, hchars, honly, hsource, hvalue⟩ :=
    writeLeaf_spec hv hn (p.mark "-" true false true)
  rw [← writeValue_leaf hv false _ hl] at hchars honly
  refine ⟨src, l.text.toList, plain, ?_, honly, hsource, ?_⟩
  · rw [hchars, Page.chars_mark, hp, List.append_assoc]
    rfl
  · rw [String.ofList_toList]
    exact hvalue

theorem writeItems_next (hn : 0 < n) (hwidth : n + 2 < Page.width) {vs : List Value}
    (hvs : ∀ v ∈ vs, IsLeaf v) (p : Page) (hp : p.onlyIndented = false) :
    ∃ src ts, (writeItems n vs p).chars = p.chars ++ src ∧
      (writeItems n vs p).onlyIndented = false ∧ Lines n src ts ∧
      ItemTokens ts vs := by
  induction vs generalizing p with
  | nil => exact ⟨[], [], (List.append_nil _).symm, hp, .nil n, .nil⟩
  | cons v vs ih =>
      obtain ⟨hv, hvs⟩ := List.forall_mem_cons.mp hvs
      obtain ⟨src₁, text, plain, hchars₁, honly₁, hsource, hvalue⟩ :=
        writeItem_spec hv hwidth (Page.afterBlank_indent hp)
      obtain ⟨src₂, ts₂, hchars₂, honly₂, hlines, htokens⟩ := ih hvs _ honly₁
      refine ⟨'\n' :: (List.replicate n ' ' ++ ('-' :: ' ' :: src₁ ++ src₂)), _, ?_, ?_,
        .cons (.item hn hsource) hlines, .cons hvalue htokens⟩
      · rw [writeItems, hchars₂, hchars₁, (Page.indent_newLine (.inl hp)).1]
        simp
      · rw [writeItems]
        exact honly₂

theorem readsBack_list (hn : 0 < n) (hwidth : n + 2 < Page.width) {v : Value} {vs : List Value}
    (hvs : ∀ x ∈ v :: vs, IsLeaf x) : ReadsBack n (.list (v :: vs)) := by
  intro p honly hblank
  have hwrite : writeValue true false (some n) (.list (v :: vs)) p = writeItems n (v :: vs) p := by
    show writeItems (if (true && !p.onlyIndented) = true then n else n + 2) (v :: vs) p = _
    rw [honly]
    rfl
  obtain ⟨src, ts, hchars, honly', hlines, htokens⟩ := writeItems_next hn hwidth hvs p honly
  rw [hwrite]
  refine ⟨src, ts, hchars, honly', hlines.alone ?_, .items htokens (List.cons_ne_nil v vs)⟩
  cases htokens
  exact List.cons_ne_nil _ _

/-! ## Mappings -/

def EntriesReadBack (n : Nat) (es : List (Value × Value)) : Prop :=
  ∀ e ∈ es, ∃ k, e.1 = .str k ∧ IsName k ∧ ReadsBack n e.2

theorem writeEntries_cons {k : String} (hk : IsName k) (hwidth : n + 2 ≤ Page.width) {v : Value}
    (hv : ReadsBack n v) (es : List (Value × Value)) {p : Page}
    (hp : (p.indent n).afterBlank = true) :
    ∃ q src ts, writeEntries n ((.str k, v) :: es) p = writeEntries n es q ∧
      q.onlyIndented = false ∧
      q.chars = (p.indent n).chars ++ (k.toList ++ ':' :: src) ∧ AfterColon n src ts ∧
        Stands ts v := by
  obtain ⟨src, ts, hchars, honly, hcolon, hstands⟩ := hv
    ((writeValue true true (some n) (.str k) (p.indent n)).mark ":" false false false)
      (Bool.and_false _) rfl
  refine ⟨_, src, ts, ?_, honly, ?_, hcolon, hstands⟩
  · rw [writeEntries, putKey, hk.isShortKey]
    rfl
  · rw [hchars, Page.chars_mark, hk.chars_writeValue hwidth hp]
    simp

theorem writeEntries_next (hwidth : n + 2 ≤ Page.width) {es : List (Value × Value)}
    (hes : EntriesReadBack n es) (p : Page) (hp : p.onlyIndented = false) :
    ∃ src ts, (writeEntries n es p).chars = p.chars ++ src ∧
      (writeEntries n es p).onlyIndented = false ∧ Lines n src ts ∧
      EntryTokens ts es := by
  induction es generalizing p with
  | nil => exact ⟨[], [], (List.append_nil _).symm, hp, .nil n, .nil⟩
  | cons e es ih =>
      obtain ⟨⟨k, hkey, hk, hv⟩, hmore⟩ := List.forall_mem_cons.mp hes
      obtain ⟨key, v⟩ := e
      cases hkey
      obtain ⟨q, src₁, ts₁, hwrite, honly, hchars₁, hcolon, hstands⟩ :=
        writeEntries_cons hk hwidth hv es (Page.afterBlank_indent (n := n) hp)
      obtain ⟨src₂, ts₂, hchars₂, honly₂, hlines, htokens⟩ := ih hmore q honly
      have hline := OnLine.entry hk.isKeyWord hcolon
      rw [String.ofList_toList] at hline
      rw [hwrite]
      refine ⟨_, _, ?_, honly₂, .cons hline hlines, .cons hk.text hstands htokens⟩
      rw [hchars₂, hchars₁, (Page.indent_newLine (.inl hp)).1]
      simp

theorem writeEntries_first {k : String} (hk : IsName k) (hwidth : n + 2 ≤ Page.width) {v : Value}
    (hv : ReadsBack n v) {es : List (Value × Value)} (hes : EntriesReadBack n es) {p : Page}
    (hp : (p.indent n).afterBlank = true) :
    ∃ src ts, (writeEntries n ((.str k, v) :: es) p).chars = (p.indent n).chars ++
      (k.toList ++ ':' :: src) ∧
      (writeEntries n ((.str k, v) :: es) p).onlyIndented = false ∧ AfterColon n src ts ∧
      EntryTokens (.key :: .scalar k true :: .value :: ts) ((.str k, v) :: es) := by
  obtain ⟨q, src₁, ts₁, hwrite, honly, hchars₁, hcolon, hstands⟩ :=
    writeEntries_cons hk hwidth hv es hp
  obtain ⟨src₂, ts₂, hchars₂, honly₂, hlines, htokens⟩ := writeEntries_next hwidth hes q honly
  rw [hwrite]
  refine ⟨src₁ ++ src₂, ts₁ ++ ts₂, ?_, honly₂, hlines.next hcolon, .cons hk.text hstands htokens⟩
  rw [hchars₂, hchars₁]
  simp

theorem readsBack_map {e : Value × Value} {es : List (Value × Value)} (hwidth : n + 4 ≤ Page.width)
    (hes : EntriesReadBack (n + 2) (e :: es)) (honce : (Value.textKeys (e :: es)).Nodup) :
    ReadsBack n (.map (e :: es)) := by
  intro p honly hblank
  obtain ⟨⟨k, hkey, hk, hv⟩, hmore⟩ := List.forall_mem_cons.mp hes
  obtain ⟨key, v⟩ := e
  cases hkey
  have hwrite : writeValue true false (some n) (.map ((.str k, v) :: es)) p =
      writeEntries (n + 2) ((.str k, v) :: es) p := by
    rw [writeValue]
    · rfl
    · exact List.cons_ne_nil _ _
  obtain ⟨src, ts, hchars, honly', hcolon, htokens⟩ :=
    writeEntries_first hk (n := n + 2) (by omega) hv hmore (Page.afterBlank_indent honly)
  have hmapping := AfterColon.mapping hk.isKeyWord hcolon
  rw [String.ofList_toList] at hmapping
  rw [hwrite]
  refine ⟨_, _, ?_, honly', hmapping, .mapping htokens honce⟩
  rw [hchars, (Page.indent_newLine (.inl honly)).1]
  simp

inductive IsBlock : Nat → Value → Prop
  | leaf {n : Nat} {v : Value} (hv : IsLeaf v) (hn : n + 2 < Page.width) : IsBlock n v
  | nil (n : Nat) : IsBlock n (.list [])
  | list {n : Nat} {v : Value} {vs : List Value} (hn : 0 < n) (hwidth : n + 2 < Page.width)
      (hvs : ∀ x ∈ v :: vs, IsLeaf x) :
      IsBlock n (.list (v :: vs))
  | map {n : Nat} {e : Value × Value} {es : List (Value × Value)} (hwidth : n + 4 ≤ Page.width)
      (hkeys : ∀ d ∈ e :: es, ∃ k, d.1 = .str k ∧ IsName k)
        (honce : (Value.textKeys (e :: es)).Nodup)
      (hvalues : ∀ d ∈ e :: es, IsBlock (n + 2) d.2) : IsBlock n (.map (e :: es))

theorem readsBack_of_isBlock {v : Value} (h : IsBlock n v) : ReadsBack n v := by
  induction h with
  | leaf hv hn => exact readsBack_leaf hv hn
  | nil n => exact readsBack_nil n
  | list hn hwidth hvs => exact readsBack_list hn hwidth hvs
  | map hwidth hkeys honce hvalues ih =>
      refine readsBack_map hwidth (fun d hd => ?_) honce
      obtain ⟨k, hkey, hk⟩ := hkeys d hd
      exact ⟨k, hkey, hk, ih d hd⟩

/-! ## Documents -/

structure IsDocument (es : List (Value × Value)) : Prop where
  nonempty : es ≠ []
  keys : ∀ e ∈ es, ∃ k, e.1 = .str k ∧ IsName k
  once : (Value.textKeys es).Nodup
  values : ∀ e ∈ es, IsBlock 0 e.2

theorem print_spec {v : Value} {es : List (Value × Value)} (hes : IsDocument es)
    (hsorted : sorted v = .map es) :
    ∃ k src ts, IsName k ∧ (print v).toList = k.toList ++ ':' :: src ++ ['\n'] ∧
      AfterColon 0 src ts ∧
      EntryTokens (.key :: .scalar k true :: .value :: ts) es := by
  have hreads : EntriesReadBack 0 es := fun d hd => by
    obtain ⟨k, hkey, hk⟩ := hes.keys d hd
    exact ⟨k, hkey, hk, readsBack_of_isBlock (hes.values d hd)⟩
  obtain ⟨e, es, rfl⟩ := List.exists_cons_of_ne_nil hes.nonempty
  obtain ⟨⟨k, hkey, hk, hv⟩, hmore⟩ := List.forall_mem_cons.mp hreads
  obtain ⟨key, x⟩ := e
  cases hkey
  obtain ⟨src, ts, hchars, honly, hcolon, hentries⟩ :=
    writeEntries_first hk (by decide) hv hmore (p := {}) rfl
  have hwrite :
      writeValue false false none (.map ((.str k, x) :: es)) {} =
        writeEntries 0 ((.str k, x) :: es) {} := by
    rw [writeValue]
    · rfl
    · exact List.cons_ne_nil _ _
  refine ⟨k, src, ts, hk, ?_, hcolon, hentries⟩
  unfold print
  rw [hsorted, hwrite]
  show Page.chars _ = _
  rw [(Page.indent_newLine (.inl honly)).1, hchars]
  rfl

theorem isWritten_of_afterColon {k : String} (hk : IsName k) {src : List Char} {ts : List Token}
    (h : AfterColon 0 src ts) :
    ∀ y ∈ k.toList ++ ':' :: src ++ ['\n'], IsWritten y :=
  List.forall_mem_append.mpr ⟨(OnLine.entry hk.isKeyWord h).written, fun _ hy =>
    .inl (List.mem_singleton.mp hy)⟩

theorem isWritten_print {v : Value} {es : List (Value × Value)} (hes : IsDocument es)
    (hsorted : sorted v = .map es) :
    ∀ y ∈ (print v).toList, IsWritten y := by
  obtain ⟨k, src, ts, hk, hchars, hcolon, -⟩ := print_spec hes hsorted
  rw [hchars]
  exact isWritten_of_afterColon hk hcolon

theorem startsLine_nil : StartsLine 0 [] := by
  refine ⟨?_, fun _ => ?_⟩ <;> rintro _ ⟨⟩

/-- The tokens of a text that starts with a key, which is that of the outermost block. -/
theorem tokens_of_afterColon {k : String} (hk : IsName k) {src : List Char} {ts : List Token}
    (h : AfterColon 0 src ts) {text : String}
    (htext : text.toList = k.toList ++ ':' :: src ++ ['\n']) :
    tokens text = .ok (.blockMappingStart ::
      (.key :: .scalar k true :: .value :: ts ++ [.blockEnd, .streamEnd])) := by
  have hreadable : (text.toList.findIdx? fun c => !isReadable c) = none := by
    rw [htext, List.findIdx?_eq_none_iff]
    exact fun y hy => by rw [(isWritten_of_afterColon hk h y hy).isReadable]; rfl
  have hmark : ((Cursor.here { rest := text.toList }).toNat == 0xfeff) = false := by
    obtain ⟨d, ds, hds⟩ := hk.exists_cons
    have hd := (hk.letter d (by rw [hds]; exact List.mem_cons_self)).inline.2
    have hhere : text.toList = d :: (ds ++ ':' :: src ++ ['\n']) := by
      rw [htext, hds]
      rfl
    rw [Cursor.here_of_cons (c := { rest := text.toList }) hhere, beq_eq_false_iff_ne]
    omega
  obtain ⟨y, src', hsrc, hy⟩ := h.starts
  have hstart : text.toList = k.toList ++ ':' :: y :: (src' ++ ['\n']) := by
    rw [htext, hsrc]
    simp
  have hkey :=
    Lexer.reaches_firstKey [] [] (-1) (c := { rest := text.toList }) hk.isKeyWord hy
      hstart (by omega)
  rw [String.ofList_toList] at hkey
  obtain ⟨c', hrest, hcolumn, hreaches⟩ :=
    h.reaches [.blockMappingStart, .key, .scalar k true, .value] [-1] (j := 0)
    (c := Cursor.past { rest := text.toList } (k.toList.length + 1) (y :: (src' ++ ['\n'])))
      (by rw [hsrc]; rfl) (Nat.le_refl 0)
    startsLine_nil (by show 0 < 0 + (k.toList.length + 1); omega)
  unfold tokens
  dsimp only
  rw [hreadable]
  unfold Lexer.runAll
  dsimp only
  rw [hmark]
  exact Lexer.run_of_reaches_end (hkey.trans hreaches) hrest hcolumn (Nat.le_refl _)

theorem ofTokens_of_entryTokens {ts : List Token} {es : List (Value × Value)}
    (h : EntryTokens ts es) (honce : (Value.textKeys es).Nodup) :
    ∃ n, Node.ofTokens (.blockMappingStart :: (ts ++ [.blockEnd, .streamEnd])) = .ok (some n) ∧
      n.toValue 0 = .ok (.map es) := by
  obtain ⟨n, hread, hvalue⟩ := Node.read_of_entryTokens [.streamEnd]
    (4 * (Token.blockMappingStart :: (ts ++ [.blockEnd, .streamEnd])).length + 8) .block
    (i := { tokens := [], handles := Node.knownHandles }) h honce (fun heq => by cases heq)
    (by simp only [List.length_cons, List.length_append]; omega)
  refine ⟨n, ?_, hvalue 0⟩
  unfold Node.ofTokens
  show Except.bind (Node.read _ .block
      (Node.Input.before { tokens := [], handles := Node.knownHandles } _)) _ = _
  rw [hread]
  rfl

/-- What is written for a document is read as it, with its entries in order. -/
theorem read_print {v : Value} {es : List (Value × Value)} (hes : IsDocument es)
    (hsorted : sorted v = .map es) :
    read (print v) = .ok (.map es) := by
  obtain ⟨k, src, ts, hk, hchars, hcolon, hentries⟩ := print_spec hes hsorted
  obtain ⟨n, hnode, hvalue⟩ := ofTokens_of_entryTokens hentries hes.once
  unfold read
  rw [tokens_of_afterColon hk hcolon hchars]
  show Except.bind (Node.ofTokens _) _ = _
  rw [hnode]
  show (n.toValue 0).mapError Prod.snd = _
  rw [hvalue]
  rfl

/-! ## The order of entries -/

section Order

variable {α : Type} (name : α → String) (value : α → Value)

theorem allComparable_map (xs : List α) : allComparable (xs.map fun x => .str (name x)) = true := by
  induction xs with
  | nil => rfl
  | cons x xs ih =>
      rw [List.map_cons, allComparable, ih, Bool.and_true]
      refine List.all_eq_true.mpr fun k hk => ?_
      obtain ⟨y, -, rfl⟩ := List.mem_map.mp hk
      rfl

theorem sortedEntries_map (xs : List α) :
    sortedEntries (xs.map fun x => (.str (name x), value x)) = xs.map fun x =>
      (.str (name x), sorted (value x)) := by
  induction xs with
  | nil => rfl
  | cons x xs ih => rw [List.map_cons, sortedEntries, ih, List.map_cons]

theorem sorted_map (xs : List α) :
    sorted (.map (xs.map fun x => (.str (name x), value x))) =
      .map ((xs.mergeSort fun a b => !decide (name b < name a)).map fun x =>
        (.str (name x), sorted (value x))) := by
  have hsort : sortEntries (xs.map fun x => (.str (name x), sorted (value x))) =
      (xs.mergeSort fun a b => !decide (name b < name a)).map fun x =>
        (.str (name x), sorted (value x)) := by
    unfold sortEntries
    rw [List.map_map, show ((·.1) ∘ fun x => (Value.str (name x), sorted (value x))) = fun x =>
      .str (name x) from rfl, allComparable_map, if_pos rfl]
    symm
    exact List.map_mergeSort fun _ _ _ _ => rfl
  rw [sorted, sortedEntries_map, hsort]

theorem sorted_texts (names : List String) :
    sorted (.list (names.map .str)) = .list (names.map .str) := by
  have hall : sortedAll (names.map .str) = names.map .str := by
    induction names with
    | nil => rfl
    | cons t names ih =>
        have htext : sorted (.str t) = .str t := rfl
        rw [List.map_cons, sortedAll, ih, htext]
  rw [sorted, hall]

end Order

end ImportAudit.Yaml
