import ImportAudit.Proofs.Yaml.Leaf

/-!
# Tokens of written blocks

What a step of the lexer does with each thing that is written: a key with its colon, a text, an
empty sequence, the dash of an item, and the end. Steps are composed by `Reaches`, so that the
tokens of a block follow from those of its parts.
-/

namespace ImportAudit.Yaml

theorem Token.ofPoints_chars (cs : List Char) :
    ofPoints (cs.map .char) = .scalar (String.ofList cs) false := by
  unfold ofPoints
  split
  · rename_i s hs
    rw [Option.some.inj ((Text.whole?_chars cs).symm.trans hs)]
  · rename_i hnone
    rw [Text.whole?_chars] at hnone
    cases hnone

namespace Lexer

def ready (c : Cursor) (ts : List Token) (indent : Int) (outer : List Int)
    (keyAllowed : Bool) : Lexer :=
  { cursor := c, tokens := ts, level := 0, indent, outer, keyAllowed, candidates := [] }

/-- One lexer comes to the other, and fuel that is enough before is enough after. -/
def Reaches (l k : Lexer) : Prop :=
  ∀ fuel, l.cursor.rest.length + 2 ≤ fuel → ∃ fuel', k.cursor.rest.length + 2 ≤ fuel' ∧
    ∀ ts, run fuel' k = .ok ts → run fuel l = .ok ts

theorem run_of_fetch {l m : Lexer} (h : l.fetch = .ok m) (fuel : Nat) :
    run (fuel + 1) l =
      if m.tokens.getLast? = some .streamEnd then .ok m.tokens else run fuel m := by
  rw [run, h]
  rfl

theorem fetch_of_run {l : Lexer} {ts : List Token} {fuel : Nat} (h : run (fuel + 1) l = .ok ts) :
    ∃ m, l.fetch = .ok m := by
  cases hfetch : l.fetch with
  | error f =>
      rw [run, hfetch] at h
      cases h
  | ok m => exact ⟨m, rfl⟩

namespace Reaches

variable {l m k : Lexer}

theorem trans (hlm : Reaches l m) (hmk : Reaches m k) : Reaches l k := by
  intro fuel hfuel
  obtain ⟨fuel', hfuel', hrun⟩ := hlm fuel hfuel
  obtain ⟨fuel'', hfuel'', hrun'⟩ := hmk fuel' hfuel'
  exact ⟨fuel'', hfuel'', fun ts hts => hrun ts (hrun' ts hts)⟩

/-- Lexers that go to the same token go on in the same way. -/
theorem of_settle (h : l.settle = k.settle)
    (hlength : k.cursor.rest.length ≤ l.cursor.rest.length) : Reaches l k := by
  intro fuel hfuel
  obtain ⟨fuel, rfl⟩ : ∃ n, fuel = n + 1 := ⟨fuel - 1, by omega⟩
  refine ⟨fuel + 1, by omega, fun ts hts => ?_⟩
  have hfetch : l.fetch = k.fetch := by
    unfold fetch
    rw [h]
  obtain ⟨m, hm⟩ := fetch_of_run hts
  rw [run_of_fetch hm] at hts
  rw [run_of_fetch (hfetch.trans hm), hts]

theorem of_fetch {ts : List Token} {t : Token} (h : l.fetch = .ok m)
    (htokens : m.tokens = ts ++ [t]) (hend : t ≠ .streamEnd)
    (hlength : m.cursor.rest.length < l.cursor.rest.length) : Reaches l m := by
  intro fuel hfuel
  obtain ⟨fuel, rfl⟩ : ∃ n, fuel = n + 1 := ⟨fuel - 1, by omega⟩
  refine ⟨fuel, by omega, fun ts' hts => ?_⟩
  rw [run_of_fetch h, if_neg, hts]
  rw [htokens, List.getLast?_concat]
  exact fun hlast => hend (Option.some.inj hlast)

end Reaches

variable {c : Cursor} {ts : List Token} {outer : List Int} {keyAllowed : Bool} {rest : List Char}

/-! ## Going to a token -/

theorem unwindTo_of_le {l : Lexer} {column : Int} (h : l.indent ≤ column) :
    l.unwindTo column = l := by
  have hkeep : (!l.inFlow && decide (column < l.indent)) = false := by
    rw [decide_eq_false (Int.not_lt.mpr h), Bool.and_false]
  unfold unwindTo
  rw [unwind, hkeep]
  rfl

theorem unwindTo_block {indent before column : Int} (h : column < indent) :
    (ready c ts indent (before :: outer) keyAllowed).unwindTo column =
      (ready c (ts ++ [.blockEnd]) before outer keyAllowed).unwindTo column := by
  have hends : (!(ready c ts indent (before :: outer) keyAllowed).inFlow &&
      decide (column < (ready c ts indent (before :: outer) keyAllowed).indent)) = true := by
    show (true && decide (column < indent)) = true
    rw [decide_eq_true h]
    rfl
  unfold unwindTo
  show unwind column (outer.length + 1 + 1) _ = unwind column (outer.length + 1) _
  rw [unwind, hends]
  rfl

theorem dropStale_of_past {l : Lexer}
    (h : ∀ k ∈ l.candidates, k.line ≠ l.cursor.line ∧ k.required = false) :
    l.dropStale = .ok { l with candidates := [] } := by
  have hany : (l.candidates.any fun k => l.isStale k && k.required) = false :=
    List.any_eq_false.mpr fun k hk => by simp [(h k hk).2]
  have hfilter : (l.candidates.filter fun k => !l.isStale k) = [] :=
    List.filter_eq_nil_iff.mpr fun k hk => by simp [isStale, (h k hk).1]
  unfold dropStale
  rw [hany, hfilter]
  rfl

theorem settle_of_toToken {l : Lexer} {broken : Bool}
    (htoken : l.cursor.toToken (l.cursor.rest.length + 1) false = (c, broken))
    (hlevel : l.level = 0) (hpast : ∀ k ∈ l.candidates, k.line ≠ c.line ∧ k.required = false) :
    l.settle =
      .ok ((ready c l.tokens l.indent l.outer (l.keyAllowed || broken)).unwindTo c.column) := by
  have hflow : l.inFlow = false := by
    unfold inFlow
    rw [hlevel]
    rfl
  unfold settle
  rw [htoken]
  dsimp only
  rw [dropStale_of_past hpast, hflow]
  simp only [Bool.not_false, Bool.and_true]
  obtain ⟨_, _, level, _, _, _, _⟩ := l
  cases hlevel
  rfl

theorem settle_newLine {l : Lexer} {j : Nat}
    (h : l.cursor.rest = '\n' :: (List.replicate j ' ' ++ rest))
    (hrest : Cursor.StartsToken rest) (hlevel : l.level = 0)
    (hpast : ∀ k ∈ l.candidates, k.line ≤ l.cursor.line ∧ k.required = false) :
    ∃ c', c'.rest = rest ∧ c'.column = j ∧
      l.settle = .ok ((ready c' l.tokens l.indent l.outer true).unwindTo j) := by
  obtain ⟨fuel, hfuel⟩ : ∃ fuel, l.cursor.rest.length + 1 = fuel + 2 := ⟨_, by rw [h]; rfl⟩
  have htoken := Cursor.toToken_newLine h hrest fuel false
  rw [← hfuel] at htoken
  have hcolumn : ((l.cursor.newLine (List.replicate j ' ' ++ rest)).past j rest).column = j :=
    Nat.zero_add j
  refine ⟨_, rfl, hcolumn, ?_⟩
  have hsettle := settle_of_toToken htoken hlevel fun k hk =>
    ⟨Nat.ne_of_lt (Nat.lt_succ_of_le (hpast k hk).1), (hpast k hk).2⟩
  rw [hcolumn, Bool.or_true] at hsettle
  exact hsettle

section Settling

variable {indent : Int}

theorem settle_spaces {j : Nat} (h : c.rest = List.replicate j ' ' ++ rest)
    (hrest : Cursor.StartsToken rest) :
    (ready c ts indent outer keyAllowed).settle =
      .ok ((ready (c.past j rest) ts indent outer keyAllowed).unwindTo (c.column + j : Nat)) := by
  have hsettle := settle_of_toToken (l := ready c ts indent outer keyAllowed)
    (Cursor.toToken_spaces h hrest _ false) rfl fun k hk => absurd hk List.not_mem_nil
  rw [Bool.or_false] at hsettle
  exact hsettle

theorem settle_here (h : Cursor.StartsToken c.rest) :
    (ready c ts indent outer keyAllowed).settle =
      .ok ((ready c ts indent outer keyAllowed).unwindTo c.column) :=
  settle_spaces (j := 0) rfl h

theorem reaches_spaces {j : Nat} (h : c.rest = List.replicate j ' ' ++ rest)
    (hrest : Cursor.StartsToken rest) :
    Reaches (ready c ts indent outer keyAllowed)
      (ready (c.past j rest) ts indent outer keyAllowed) := by
  refine .of_settle ((settle_spaces h hrest).trans (settle_here hrest).symm) ?_
  show rest.length ≤ c.rest.length
  rw [h, List.length_append]
  omega

variable (ts outer keyAllowed indent) in
theorem reaches_newLine {j : Nat} (h : c.rest = '\n' :: (List.replicate j ' ' ++ rest))
    (hrest : Cursor.StartsToken rest) :
    ∃ c', c'.rest = rest ∧ c'.column = j ∧
      Reaches (ready c ts indent outer keyAllowed) (ready c' ts indent outer true) := by
  obtain ⟨c', rfl, rfl, hsettle⟩ :=
    settle_newLine (l := ready c ts indent outer keyAllowed) h hrest rfl
    fun k hk => absurd hk List.not_mem_nil
  refine ⟨c', rfl, rfl, .of_settle (hsettle.trans (settle_here hrest).symm) ?_⟩
  show c'.rest.length ≤ c.rest.length
  rw [h, List.length_cons, List.length_append]
  omega

variable (ts outer keyAllowed indent) in
theorem reaches_blockEnd (before : Int) (hrest : Cursor.StartsToken c.rest)
    (h : (c.column : Int) < indent) :
    Reaches (ready c ts indent (before :: outer) keyAllowed)
      (ready c (ts ++ [.blockEnd]) before outer keyAllowed) := by
  refine .of_settle ?_ (Nat.le_refl _)
  rw [settle_here hrest, settle_here hrest, unwindTo_block h]

theorem fetch_ready (hrest : Cursor.StartsToken c.rest) (h : indent ≤ c.column) :
    (ready c ts indent outer keyAllowed).fetch =
      (ready c ts indent outer keyAllowed).fetchHere := by
  unfold fetch
  rw [settle_here hrest, unwindTo_of_le h]
  rfl

end Settling

/-! ## Which token starts -/

variable {x : Char} {indent : Int}

theorem endsWord_peek {l : Lexer} (h : l.cursor.rest = x :: rest) :
    endsWord (l.cursor.peek 1) = endsNext rest := by
  unfold Cursor.peek endsNext
  rw [h]
  cases rest <;> rfl

theorem opensMark_cases {alone : Bool} (h : opensMark x alone = false) :
    "#,[]\x7b\x7d&*!|>'\"%@`".toList.contains x = false ∧ (x == '?' && alone) = false ∧
      (x == ':' && alone) = false ∧
      (x == '-' && alone) = false := by
  unfold opensMark at h
  rw [Bool.or_eq_false_iff] at h
  refine ⟨h.1, ?_⟩
  cases alone
  · simp
  · simpa [and_assoc] using h.2

theorem atPlain_of_opensMark {l : Lexer} (hflow : l.inFlow = false) (h : l.cursor.rest = x :: rest)
    (hx : IsInline x) (hspace : x ≠ ' ') (hopens : opensMark x (endsNext rest) = false) :
    l.atPlain = true := by
  have hends : endsWord x = false := by
    rw [hx.endsWord, beq_eq_false_iff_ne]
    exact hspace
  have hcontains : "-?:,[]\x7b\x7d#&*!|>'\"%@`".toList.contains x =
      ((x == '-' || x == '?' || x == ':') || "#,[]\x7b\x7d&*!|>'\"%@`".toList.contains x) := by
    have hmarks :
        "-?:,[]\x7b\x7d#&*!|>'\"%@`".toList.Perm
          ('-' :: '?' :: ':' :: "#,[]\x7b\x7d&*!|>'\"%@`".toList) := by decide
    rw [hmarks.contains_eq]
    simp only [List.contains_cons, Bool.or_assoc]
  obtain ⟨hmarks, hquestion, hcolon, hdash⟩ := opensMark_cases hopens
  unfold atPlain
  dsimp only
  rw [Cursor.here_of_cons h, endsWord_peek h, hflow, hcontains, hmarks]
  generalize endsNext rest = alone at *
  cases alone
  · simp [hends]
    tauto
  · simp_all

theorem fetchHere_plain {l : Lexer} (hflow : l.inFlow = false) (h : l.cursor.rest = x :: rest)
    (hx : IsInline x) (hspace : x ≠ ' ') (hopens : opensMark x (endsNext rest) = false)
    (hseparator : l.cursor.column = 0 → x ≠ '-' ∧ x ≠ '.') :
    l.fetchHere = l.fetchPlain := by
  have hmark (m : Char) (hm : m = '-' ∨ m = '.') :
      (l.cursor.column == 0 && l.cursor.atMark m) = false := by
    by_cases hcolumn : l.cursor.column = 0
    · have hne := hseparator hcolumn
      unfold Cursor.atMark
      rw [Cursor.here_of_cons h]
      rcases hm with rfl | rfl
      · simp [hne.1]
      · simp [hne.2]
    · simp [hcolumn]
  obtain ⟨hmarks, hquestion, hcolon, hdash⟩ := opensMark_cases hopens
  simp at hmarks
  unfold fetchHere
  dsimp only
  rw [Cursor.here_of_cons h, endsWord_peek h, hflow, hmark '-' (.inl rfl), hmark '.' (.inr rfl),
    Bool.false_or, hquestion, hcolon, hdash, atPlain_of_opensMark hflow h hx hspace hopens]
  simp [hx.ne_stop, hmarks]

theorem fetchHere_quoted {l : Lexer} (double : Bool) (h : l.cursor.rest = closing double :: rest) :
    l.fetchHere = l.fetchQuoted double := by
  unfold fetchHere Cursor.atMark
  dsimp only
  rw [Cursor.here_of_cons h]
  cases double <;> simp [closing, stop]

/-! ## Texts -/

/-- The candidate that is kept where a key may start. -/
def saved (c : Cursor) (ts : List Token) (indent : Int) (keyAllowed : Bool) : List Candidate :=
  if keyAllowed then [⟨0, ts.length, indent == (c.column : Int), c.index, c.line, c.column⟩] else []

theorem saveCandidate_ready : (ready c ts indent outer keyAllowed).saveCandidate =
    .ok { ready c ts indent outer keyAllowed with candidates := saved c ts indent keyAllowed } := by
  cases keyAllowed <;> rfl

theorem saved_optional {n : Nat} (h : n < c.column) :
    ∀ k ∈ saved c ts n keyAllowed, k.line = c.line ∧ k.required = false := by
  intro k hk
  unfold saved at hk
  split at hk
  · rw [List.mem_singleton.mp hk]
    exact ⟨rfl, beq_eq_false_iff_ne.mpr (by omega)⟩
  · cases hk

theorem reaches_nextLine {l : Lexer} {c' : Cursor} {t : Token} (hstart : Cursor.StartsToken c.rest)
    (hcolumn : indent ≤ c.column) (hfetch : (ready c ts indent outer keyAllowed).fetchHere = .ok l)
    (htokens : l.tokens = ts ++ [t]) (hend : t ≠ .streamEnd)
    (hread : l.cursor.rest.length < c.rest.length) (hleft : c'.rest.length ≤ l.cursor.rest.length)
    (hnext : Cursor.StartsToken c'.rest)
    (hsettle : l.settle = .ok ((ready c' (ts ++ [t]) indent outer true).unwindTo c'.column)) :
    Reaches (ready c ts indent outer keyAllowed) (ready c' (ts ++ [t]) indent outer true) := by
  refine .trans (.of_fetch ((fetch_ready hstart hcolumn).trans hfetch) htokens hend hread)
    (.of_settle ?_ hleft)
  rw [hsettle, settle_here hnext]

variable (ts outer keyAllowed) in
/-- A plain text is read as one token.  It is over only where the next line starts. -/
theorem reaches_plain {n j : Nat} {src cs : List Char} (hplain : Plain (n + 2) src (x :: cs))
    (hopens : opensMark x (endsNext cs) = false)
    (h : c.rest = src ++ '\n' :: (List.replicate j ' ' ++ rest))
    (hcolumn : n < c.column) (hj : j ≤ n) (hrest : StartsLine j rest) :
    ∃ c', c'.rest = rest ∧ c'.column = j ∧ Reaches (ready c ts n outer keyAllowed)
      (ready c' (ts ++ [.scalar (String.ofList (x :: cs)) true]) n outer true) := by
  have hsource := ScalarSource.plain hplain hopens
  have hstart : Cursor.StartsToken c.rest := by
    rw [h]
    exact hsource.startsToken _
  have hmark : NotNext (· == '#') src := fun y hy => by
    have htoken := hsource.startsToken []
    rw [List.append_nil] at htoken
    exact beq_eq_false_iff_ne.mpr (htoken y hy).2.2
  obtain ⟨src', hsrc, hx, hspace, hopens'⟩ :=
    opensMark_source hplain hopens (List.replicate j ' ' ++ rest)
  have hhere : c.rest = x :: (src' ++ '\n' :: (List.replicate j ' ' ++ rest)) := by
    rw [h, hsrc]
    rfl
  obtain ⟨c₁, hread, hrest₁, hcolumn₁, hline⟩ :=
    plainText_of_plain (n + 1) (c.rest.length + 1) hplain hmark
    (Nat.succ_pos _) (Nat.le_succ _) (Nat.lt_succ_of_le hj) hrest h hcolumn []
    (by rw [h]; simp only [List.length_append, List.length_cons]; omega)
  have hread' :
      plainText (0 != 0) ((n : Int) + 1).toNat (c.rest.length + 1) [] c = (x :: cs, true, c₁) := by
    rw [show ((n : Int) + 1).toNat = n + 1 by omega]
    exact hread
  have hdispatch := fetchHere_plain (l := ready c ts n outer keyAllowed) rfl hhere hx hspace hopens'
    fun hzero => absurd hzero (Nat.ne_of_gt (Nat.lt_of_le_of_lt (Nat.zero_le n) hcolumn))
  have htoken := Cursor.toToken_spaces (n := 0) hrest₁ hrest.token c₁.rest.length false
  refine ⟨c₁.past 0 rest, rfl, hcolumn₁,
    reaches_nextLine hstart (by omega) (hdispatch.trans ?_) rfl Token.noConfusion ?_ ?_
    hrest.token (l := { ready c₁ (ts ++ [.scalar (String.ofList (x :: cs)) true]) n outer true with
      candidates := saved c ts n keyAllowed }) ?_⟩
  · unfold fetchPlain
    rw [saveCandidate_ready]
    dsimp only [bind, Except.bind, ready, inFlow, push]
    rw [hread']
    rfl
  · show c₁.rest.length < c.rest.length
    rw [hrest₁, h]
    simp only [List.length_append, List.length_cons]
    omega
  · exact Nat.le_of_eq (congrArg List.length hrest₁).symm
  · exact settle_of_toToken htoken rfl fun k hk =>
      ⟨Nat.ne_of_lt ((saved_optional hcolumn k hk).1 ▸ hline), (saved_optional hcolumn k hk).2⟩

variable (ts outer keyAllowed) in
theorem reaches_quoted {n j : Nat} {src text : List Char} {double : Bool}
    (hquoted : Quoted double src text)
    (h : c.rest = closing double ::
      (src ++ closing double :: '\n' :: (List.replicate j ' ' ++ rest)))
    (hcolumn : n < c.column) (hrest : StartsLine j rest) :
    ∃ c', c'.rest = rest ∧ c'.column = j ∧ Reaches (ready c ts n outer keyAllowed)
      (ready c' (ts ++ [.scalar (String.ofList text) false]) n outer true) := by
  obtain ⟨c₁, hread, hrest₁, hline⟩ := quotedText_of_quoted hquoted (notNext_cons rfl) h
  obtain ⟨c', rfl, rfl, hsettle⟩ :=
    settle_newLine (l := { ready c₁ (ts ++ [.scalar (String.ofList text) false]) n outer false with
    candidates := saved c ts n keyAllowed }) hrest₁ hrest.token rfl fun k hk =>
      ⟨(saved_optional hcolumn k hk).1 ▸ hline, (saved_optional hcolumn k hk).2⟩
  refine ⟨c', rfl, rfl, reaches_nextLine ?_ (by omega) ((fetchHere_quoted double h).trans ?_) rfl
    Token.noConfusion ?_ ?_
    hrest.token hsettle⟩
  · have hstart :=
      (ScalarSource.quoted (n := n) double hquoted).startsToken
        ('\n' :: (List.replicate c'.column ' ' ++ c'.rest))
    rw [h]
    simpa using hstart
  · unfold fetchQuoted
    rw [saveCandidate_ready]
    dsimp only [bind, Except.bind, ready, push]
    rw [hread]
    dsimp only
    rw [Token.ofPoints_chars]
    rfl
  · show c₁.rest.length < c.rest.length
    rw [hrest₁, h]
    simp only [List.length_append, List.length_cons]
    omega
  · show c'.rest.length ≤ c₁.rest.length
    rw [hrest₁]
    simp only [List.length_append, List.length_cons]
    omega

variable (ts outer keyAllowed) in
theorem reaches_scalar {n j : Nat} {src text : List Char} {plain : Bool}
    (hsource : ScalarSource (n + 2) src text plain)
    (h : c.rest = src ++ '\n' :: (List.replicate j ' ' ++ rest))
    (hcolumn : n < c.column) (hj : j ≤ n) (hrest : StartsLine j rest) :
    ∃ c', c'.rest = rest ∧ c'.column = j ∧ Reaches (ready c ts n outer keyAllowed)
      (ready c' (ts ++ [.scalar (String.ofList text) plain]) n outer true) := by
  cases hsource with
  | plain hplain hopens => exact reaches_plain ts outer keyAllowed hplain hopens h hcolumn hj hrest
  | quoted double hquoted =>
      exact reaches_quoted ts outer keyAllowed hquoted (by rw [h]; simp) hcolumn hrest

/-! ## Keys -/

/-- A word that may stand before a colon at the start of a line. -/
structure IsKeyWord (w : List Char) : Prop where
  word : IsPlainWord w
  opens : ∀ x ∈ w.head?, opensMark x true = false ∧ x ≠ '.'
  short : w.length ≤ maxKey

variable (rest) in
theorem IsKeyWord.startsLine {w : List Char} (hw : IsKeyWord w) (column : Nat) :
    StartsLine column (w ++ rest) := by
  obtain ⟨x, w, rfl⟩ := List.exists_cons_of_ne_nil hw.word.nonempty
  have hx := hw.word.inline x List.mem_cons_self
  have hopens := hw.opens x rfl
  refine ⟨?_, fun _ => ?_⟩
  · rintro _ ⟨⟩
    refine ⟨hx.1, hx.2, ?_⟩
    rintro rfl
    cases hopens.1
  · rintro _ ⟨⟩
    refine ⟨?_, hopens.2⟩
    rintro rfl
    cases hopens.1

theorem settle_fresh {l : Lexer} (hrest : Cursor.StartsToken l.cursor.rest)
    (hindent : l.indent ≤ l.cursor.column)
    (hfresh : ∀ k ∈ l.candidates, k.line = l.cursor.line ∧ l.cursor.index - k.index ≤ maxKey) :
    l.settle = .ok l := by
  have hstale : ∀ k ∈ l.candidates, l.isStale k = false := by
    intro k hk
    rw [isStale, (hfresh k hk).1, bne_self_eq_false, Bool.false_or,
      decide_eq_false_iff_not, Nat.not_lt]
    exact (hfresh k hk).2
  have hdrop : l.dropStale = .ok l := by
    have hany : (l.candidates.any fun k => l.isStale k && k.required) = false :=
      List.any_eq_false.mpr fun k hk => by simp [hstale k hk]
    have hfilter : (l.candidates.filter fun k => !l.isStale k) = l.candidates :=
      List.filter_eq_self.mpr fun k hk => by simp [hstale k hk]
    unfold dropStale
    rw [hany, hfilter]
    rfl
  have htoken := Cursor.toToken_spaces (n := 0) (c := l.cursor) rfl hrest l.cursor.rest.length false
  unfold settle
  rw [htoken]
  have hsame :
      { l with cursor := l.cursor.past 0 l.cursor.rest, keyAllowed := l.keyAllowed ||
        (false && !l.inFlow) } = l := by
    rw [Bool.false_and, Bool.or_false]
    rfl
  dsimp only
  rw [hsame, hdrop]
  exact congrArg Except.ok (unwindTo_of_le hindent)

theorem fetchHere_value {l : Lexer} {y : Char} (h : l.cursor.rest = ':' :: y :: rest)
    (hy : endsWord y = true) :
    l.fetchHere = l.fetchValue := by
  unfold fetchHere Cursor.atMark
  dsimp only
  rw [Cursor.here_of_cons h, Cursor.peek_one_of_cons h, hy]
  simp [stop]

theorem insertIdx_append {α : Type} (xs ys : List α) (x : α) :
    (xs ++ ys).insertIdx xs.length x = xs ++ x :: ys := by
  induction xs with
  | nil => rfl
  | cons z xs ih => exact congrArg (z :: ·) ih

def afterWord (c : Cursor) (ts : List Token) (indent : Int) (outer : List Int)
    (w rest : List Char) : Lexer :=
  { cursor := c.past w.length rest, tokens := ts ++ [.scalar (String.ofList w) true], level := 0,
    indent, outer, keyAllowed := false, candidates := saved c ts indent true }

section Keys

variable {w : List Char} {y : Char}

theorem reaches_afterWord (hw : IsKeyWord w) (hy : endsWord y = true)
    (h : c.rest = w ++ ':' :: y :: rest) (hindent : indent ≤ c.column) :
    Reaches (ready c ts indent outer true) (afterWord c ts indent outer w (':' :: y :: rest)) := by
  obtain ⟨x, w', hx⟩ := List.exists_cons_of_ne_nil hw.word.nonempty
  have hline := hw.startsLine (':' :: y :: rest) c.column
  rw [← h] at hline
  have hhere : c.rest = x :: (w' ++ ':' :: y :: rest) := by
    rw [h, hx]
    rfl
  have hinline := hw.word.inline x (by rw [hx]; exact List.mem_cons_self)
  have hopens := hw.opens x (by rw [hx]; rfl)
  have hmark : NotNext (· == '#') w := fun z hz => by
    rw [beq_eq_false_iff_ne]
    rintro rfl
    cases (hw.opens '#' hz).1
  have hdispatch :=
    fetchHere_plain (l := ready c ts indent outer true) rfl hhere hinline.1 hinline.2
    (opensMark_mono hopens.1 _) fun hzero => hline.notSeparator hzero x (by rw [hhere]; rfl)
  have hfetch :
      (ready c ts indent outer true).fetchHere =
        .ok (afterWord c ts indent outer w (':' :: y :: rest)) := by
    rw [hdispatch]
    unfold fetchPlain
    rw [saveCandidate_ready]
    dsimp only [bind, Except.bind, ready, inFlow, push]
    rw [show ((0 : Nat) != 0) = false from rfl, plainText_key hw.word hmark hy h]
    rfl
  refine .of_fetch ((fetch_ready hline.token hindent).trans hfetch) rfl Token.noConfusion ?_
  show (':' :: y :: rest).length < c.rest.length
  rw [hhere]
  simp only [List.length_append, List.length_cons]
  omega

theorem fetchValue_afterWord : (afterWord c ts indent outer w rest).fetchValue =
    .ok (((ready (c.past w.length rest) (ts ++ [.key, .scalar (String.ofList w) true]) indent outer
      false).indentAt c.column ts.length .blockMappingStart).mark .value false) := by
  have hinsert := insertIdx_append ts [.scalar (String.ofList w) true] Token.key
  unfold fetchValue afterWord
  dsimp only [saved, List.find?, List.filter, pure, Except.pure]
  rw [← hinsert]
  rfl

variable (ts outer) in
theorem reaches_value (hw : IsKeyWord w) (hy : endsWord y = true)
    (h : c.rest = w ++ ':' :: y :: rest) (hindent : indent ≤ c.column) :
    Reaches (ready c ts indent outer true)
      (((ready (c.past w.length (':' :: y :: rest)) (ts ++ [.key, .scalar (String.ofList w) true])
        indent outer false).indentAt
        c.column ts.length .blockMappingStart).mark .value false) := by
  have hfresh : ∀ k ∈ saved c ts indent true, k.line = c.line ∧
      c.index + w.length - k.index ≤ maxKey := by
    intro k hk
    rw [List.mem_singleton.mp hk]
    refine ⟨rfl, ?_⟩
    show c.index + w.length - c.index ≤ maxKey
    rw [Nat.add_sub_cancel_left]
    exact hw.short
  have hsettle :=
    settle_fresh (l := afterWord c ts indent outer w (':' :: y :: rest)) (by rintro _ ⟨⟩; decide)
    (Int.le_trans hindent (Int.ofNat_le.mpr (Nat.le_add_right c.column w.length))) hfresh
  have hfetch : (afterWord c ts indent outer w (':' :: y :: rest)).fetch = .ok
      (((ready (c.past w.length (':' :: y :: rest))
        (ts ++ [.key, .scalar (String.ofList w) true]) indent outer
        false).indentAt c.column ts.length .blockMappingStart).mark .value false) := by
    unfold fetch
    rw [hsettle]
    exact (fetchHere_value rfl hy).trans fetchValue_afterWord
  refine (reaches_afterWord hw hy h hindent).trans (.of_fetch hfetch rfl Token.noConfusion ?_)
  have hcursor (l : Lexer) (column place : Nat) (t : Token) :
      (l.indentAt column place t).cursor = l.cursor := by
    unfold indentAt
    split <;> rfl
  have hstep : (c.past w.length (':' :: y :: rest)).step = c.past (w.length + 1) (y :: rest) :=
    Cursor.step_inline rfl (by decide)
  show (Cursor.step (indentAt _ _ _ _).cursor).rest.length < _
  rw [hcursor]
  show (Cursor.step (c.past w.length (':' :: y :: rest))).rest.length < _
  rw [hstep]
  exact Nat.lt_succ_self _

variable (ts outer indent) in
theorem reaches_firstKey (hw : IsKeyWord w) (hy : endsWord y = true)
    (h : c.rest = w ++ ':' :: y :: rest) (hindent : indent < c.column) :
    Reaches (ready c ts indent outer true)
      (ready (c.past (w.length + 1) (y :: rest))
        (ts ++ [.blockMappingStart, .key, .scalar (String.ofList w) true, .value])
        c.column (indent :: outer) false) := by
  have hreaches := reaches_value ts outer hw hy h (Int.le_of_lt hindent)
  unfold indentAt mark push ready at hreaches
  rw [if_pos hindent] at hreaches
  dsimp only at hreaches
  rw [Cursor.step_inline rfl (by decide), insertIdx_append, List.append_assoc] at hreaches
  exact hreaches

variable (ts outer indent) in
theorem reaches_nextKey (hw : IsKeyWord w) (hy : endsWord y = true)
    (h : c.rest = w ++ ':' :: y :: rest) (hindent : indent = c.column) :
    Reaches (ready c ts indent outer true)
      (ready (c.past (w.length + 1) (y :: rest))
        (ts ++ [.key, .scalar (String.ofList w) true, .value]) indent outer false) := by
  have hreaches := reaches_value ts outer hw hy h (Int.le_of_eq hindent)
  unfold indentAt mark push ready at hreaches
  rw [if_neg (Int.not_lt.mpr (Int.le_of_eq hindent.symm))] at hreaches
  dsimp only at hreaches
  rw [Cursor.step_inline rfl (by decide), List.append_assoc] at hreaches
  exact hreaches

end Keys

/-! ## Sequences -/

theorem fetchHere_item {l : Lexer} (h : l.cursor.rest = '-' :: ' ' :: rest) :
    l.fetchHere = l.fetchItem .blockSequenceStart .blockEntry true := by
  have halone : endsWord ' ' = true := rfl
  unfold fetchHere Cursor.atMark
  dsimp only
  rw [Cursor.here_of_cons h, Cursor.peek_one_of_cons h, halone]
  simp [stop]

variable (ts outer indent) in
theorem reaches_item (h : c.rest = '-' :: ' ' :: rest) (hindent : indent = c.column) :
    Reaches (ready c ts indent outer true)
      (ready (c.past 1 (' ' :: rest)) (ts ++ [.blockEntry]) indent outer true) := by
  have hstart : Cursor.StartsToken c.rest := by
    rw [h]
    rintro _ ⟨⟩
    decide
  have hfetch : (ready c ts indent outer true).fetchItem .blockSequenceStart .blockEntry true =
      .ok (ready (c.past 1 (' ' :: rest)) (ts ++ [.blockEntry]) indent outer true) := by
    have hsame : (ready c ts indent outer true).indentAt c.column ts.length .blockSequenceStart =
        ready c ts indent outer true :=
      if_neg (Int.not_lt.mpr (Int.le_of_eq hindent.symm))
    have hstep : c.step = c.past 1 (' ' :: rest) := Cursor.step_inline h (by decide)
    unfold fetchItem
    show ((ready c ts indent outer true).indentAt c.column ts.length
        .blockSequenceStart).dropCandidate.bind _ = _
    rw [hsame, ← hstep]
    rfl
  refine .of_fetch
    ((fetch_ready hstart (Int.le_of_eq hindent)).trans ((fetchHere_item h).trans hfetch)) rfl
    Token.noConfusion ?_
  show (' ' :: rest).length < c.rest.length
  rw [h]
  exact Nat.lt_succ_self _

theorem fetchHere_opening {l : Lexer} (h : l.cursor.rest = '[' :: rest) :
    l.fetchHere = l.fetchOpening .flowSequenceStart := by
  unfold fetchHere Cursor.atMark
  dsimp only
  rw [Cursor.here_of_cons h]
  simp [stop]

theorem fetchHere_closing {l : Lexer} (h : l.cursor.rest = ']' :: rest) :
    l.fetchHere = l.fetchClosing .flowSequenceEnd := by
  unfold fetchHere Cursor.atMark
  dsimp only
  rw [Cursor.here_of_cons h]
  simp [stop]

theorem reaches_brackets (h : c.rest = '[' :: ']' :: rest) (hindent : indent ≤ c.column) :
    Reaches (ready c ts indent outer false)
      (ready (c.past 2 rest) (ts ++ [.flowSequenceStart, .flowSequenceEnd]) indent
        outer false) := by
  have hstart : Cursor.StartsToken c.rest := by
    rw [h]
    rintro _ ⟨⟩
    decide
  have hopening : (ready c ts indent outer false).fetchOpening .flowSequenceStart =
      .ok { ready (c.past 1 (']' :: rest)) (ts ++ [.flowSequenceStart]) indent outer true
        with level := 1 } := by
    have hstep : c.step = c.past 1 (']' :: rest) := Cursor.step_inline h (by decide)
    rw [← hstep]
    rfl
  have hsettle := settle_fresh
    (l := { ready (c.past 1 (']' :: rest)) (ts ++ [.flowSequenceStart]) indent outer true
      with level := 1 })
    (by rintro _ ⟨⟩; decide) (Int.le_trans hindent (Int.ofNat_le.mpr (Nat.le_succ c.column)))
    fun k hk => absurd hk List.not_mem_nil
  have hclosing : Lexer.fetch
      { ready (c.past 1 (']' :: rest)) (ts ++ [.flowSequenceStart]) indent outer true
        with level := 1 } =
      .ok (ready (c.past 2 rest) (ts ++ [.flowSequenceStart] ++ [.flowSequenceEnd]) indent outer
        false) := by
    have hstep : (c.past 1 (']' :: rest)).step = c.past 2 rest := Cursor.step_inline rfl (by decide)
    unfold fetch
    rw [hsettle, ← hstep]
    exact fetchHere_closing
      (l := { ready (c.past 1 (']' :: rest)) (ts ++ [.flowSequenceStart]) indent outer true with
      level := 1 }) rfl
  rw [← List.singleton_append, ← List.append_assoc]
  refine .trans
    (.of_fetch ((fetch_ready hstart hindent).trans ((fetchHere_opening h).trans hopening)) rfl
      Token.noConfusion ?_)
    (.of_fetch hclosing rfl Token.noConfusion (Nat.lt_succ_self _))
  show (']' :: rest).length < c.rest.length
  rw [h]
  exact Nat.lt_succ_self _

/-! ## The end -/

theorem run_of_reaches_end {l : Lexer} {column : Nat} (h : Reaches l (ready c ts column [-1] true))
    (hrest : c.rest = []) (hcolumn : c.column = column) {fuel : Nat}
    (hfuel : l.cursor.rest.length + 2 ≤ fuel) :
    run fuel l = .ok (ts ++ [.blockEnd, .streamEnd]) := by
  obtain ⟨fuel', hfuel', hrun⟩ := h fuel hfuel
  obtain ⟨fuel', rfl⟩ : ∃ n, fuel' = n + 1 := ⟨fuel' - 1, by omega⟩
  have hstart : Cursor.StartsToken c.rest := by
    rw [hrest]
    rintro _ ⟨⟩
  have hend :
      (ready c ts column [-1] true).unwindTo (-1) = ready c (ts ++ [.blockEnd]) (-1) [] true := by
    rw [unwindTo_block (by omega)]
    exact unwindTo_of_le (Int.le_refl (-1))
  have hfetch :
      (ready c ts column [-1] true).fetch =
        .ok (ready c (ts ++ [.blockEnd] ++ [.streamEnd]) (-1) [] false) := by
    rw [fetch_ready hstart (by omega)]
    refine (if_pos (beq_iff_eq.mpr (Cursor.here_of_nil hrest))).trans ?_
    unfold fetchStreamEnd
    rw [hend]
    rfl
  refine hrun _ ?_
  rw [run_of_fetch hfetch]
  refine (if_pos List.getLast?_concat).trans ?_
  show Except.ok (ts ++ [.blockEnd] ++ [.streamEnd]) = _
  rw [List.append_assoc]
  rfl

end Lexer

end ImportAudit.Yaml
