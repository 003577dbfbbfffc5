import ImportAudit.Proofs.Yaml.Lexer

/-!
# Tokens of lines

A block consists of lines with the same indentation: entries of a mapping, or items of a
sequence. What follows the colon of an entry may itself go over several lines, and the lines
after it belong to the same block.
-/

namespace ImportAudit.Yaml.Lexer

/-- What follows a colon in a block at a column, up to a line that is indented no more. -/
structure AfterColon (n : Nat) (src : List Char) (ts : List Token) : Prop where
  starts : ∃ y src', src = y :: src' ∧ endsWord y = true
  written : ∀ y ∈ src, IsWritten y
  reaches {c : Cursor} (before : List Token) (outer : List Int) {j : Nat} {rest : List Char}
    (h : c.rest = src ++ '\n' :: (List.replicate j ' ' ++ rest)) (hj : j ≤ n)
      (hrest : StartsLine j rest)
    (hcolumn : n < c.column) :
    ∃ c', c'.rest = rest ∧ c'.column = j ∧
      Reaches (ready c before n outer false) (ready c' (before ++ ts) n outer true)

/-- What stands on a line of a block at a column, up to a line that is indented no more. -/
structure OnLine (n : Nat) (src : List Char) (ts : List Token) : Prop where
  starts (rest : List Char) : StartsLine n (src ++ rest)
  written : ∀ y ∈ src, IsWritten y
  reaches {c : Cursor} (before : List Token) (outer : List Int) {j : Nat} {rest : List Char}
    (h : c.rest = src ++ '\n' :: (List.replicate j ' ' ++ rest)) (hj : j ≤ n)
      (hrest : StartsLine j rest)
    (hcolumn : c.column = n) :
    ∃ c', c'.rest = rest ∧ c'.column = j ∧
      Reaches (ready c before n outer true) (ready c' (before ++ ts) n outer true)

variable {n : Nat} {src : List Char} {ts : List Token}

theorem isWritten_newLine (n : Nat) : ∀ y ∈ '\n' :: List.replicate n ' ', IsWritten y :=
  List.forall_mem_cons.mpr ⟨.inl rfl, isWritten_spaces⟩

/-! ## After a colon -/

namespace AfterColon

theorem scalar {text : List Char} {plain : Bool} (h : ScalarSource (n + 2) src text plain) :
    AfterColon n (' ' :: src) [.scalar (String.ofList text) plain] where
  starts := ⟨' ', src, rfl, rfl⟩
  written := List.forall_mem_cons.mpr ⟨.inr isInline_space, h.isWritten⟩
  reaches {c} before outer {j rest} hsrc hj hrest hcolumn := by
    obtain ⟨c', hrest', hcolumn', hreaches⟩ := reaches_scalar before outer false
      (c := c.past 1 (src ++ '\n' :: (List.replicate j ' ' ++ rest))) h rfl
        (Nat.lt_succ_of_lt hcolumn) hj hrest
    exact ⟨c', hrest', hcolumn', (reaches_spaces (j := 1) hsrc (h.startsToken _)).trans hreaches⟩

theorem brackets (n : Nat) :
    AfterColon n [' ', '[', ']'] [.flowSequenceStart, .flowSequenceEnd] where
  starts := ⟨' ', _, rfl, rfl⟩
  written := fun y hy => .inr (@isInline_of_all [' ', '[', ']'] rfl y hy)
  reaches {c} before outer {j rest} hsrc hj hrest hcolumn := by
    have hopens : Cursor.StartsToken ('[' :: ']' :: '\n' :: (List.replicate j ' ' ++ rest)) := by
      rintro _ ⟨⟩
      decide
    obtain ⟨c', hrest', hcolumn', hreaches⟩ := reaches_newLine
      (before ++ [.flowSequenceStart, .flowSequenceEnd]) outer false n
      (c := (c.past 1 ('[' :: ']' :: '\n' :: (List.replicate j ' ' ++ rest))).past 2
        ('\n' :: (List.replicate j ' ' ++ rest)))
      rfl hrest.token
    refine ⟨c', hrest', hcolumn',
      (reaches_spaces (j := 1) hsrc hopens).trans (.trans (reaches_brackets rfl ?_) hreaches)⟩
    exact Int.ofNat_le.mpr (Nat.le_of_lt (Nat.lt_succ_of_lt hcolumn))

theorem onLine (h : OnLine n src ts) : AfterColon n ('\n' :: (List.replicate n ' ' ++ src)) ts where
  starts := ⟨'\n', _, rfl, rfl⟩
  written := List.forall_mem_append.mpr ⟨isWritten_newLine n, h.written⟩
  reaches {c} before outer {j rest} hsrc hj hrest hcolumn := by
    rw [List.cons_append, List.append_assoc] at hsrc
    obtain ⟨c₁, hrest₁, hcolumn₁, hreaches₁⟩ :=
      reaches_newLine before outer false n hsrc (h.starts _).token
    obtain ⟨c', hrest', hcolumn', hreaches⟩ := h.reaches before outer hrest₁ hj hrest hcolumn₁
    exact ⟨c', hrest', hcolumn', hreaches₁.trans hreaches⟩

theorem next {src' : List Char} {ts' : List Token} (h : AfterColon n src ts)
    (h' : OnLine n src' ts') :
    AfterColon n (src ++ '\n' :: (List.replicate n ' ' ++ src')) (ts ++ ts') where
  starts := by
    obtain ⟨y, tail, rfl, hy⟩ := h.starts
    exact ⟨y, _, rfl, hy⟩
  written :=
    List.forall_mem_append.mpr
      ⟨h.written, List.forall_mem_append.mpr ⟨isWritten_newLine n, h'.written⟩⟩
  reaches {c} before outer {j rest} hsrc hj hrest hcolumn := by
    rw [List.append_assoc, List.cons_append, List.append_assoc] at hsrc
    obtain ⟨c₁, hrest₁, hcolumn₁, hreaches₁⟩ :=
      h.reaches before outer hsrc (Nat.le_refl n) (h'.starts _) hcolumn
    obtain ⟨c', hrest', hcolumn', hreaches⟩ :=
      h'.reaches (before ++ ts) outer hrest₁ hj hrest hcolumn₁
    rw [List.append_assoc] at hreaches
    exact ⟨c', hrest', hcolumn', hreaches₁.trans hreaches⟩

end AfterColon

/-! ## Lines -/

theorem OnLine.entry {w : List Char} (hw : IsKeyWord w) (h : AfterColon n src ts) :
    OnLine n (w ++ ':' :: src) (.key :: .scalar (String.ofList w) true :: .value :: ts) where
  starts rest := by
    rw [List.append_assoc]
    exact hw.startsLine _ n
  written := List.forall_mem_append.mpr ⟨fun y hy => .inr (hw.word.inline y hy).1,
    List.forall_mem_cons.mpr ⟨by decide, h.written⟩⟩
  reaches {c} before outer {j rest} hsrc hj hrest hcolumn := by
    obtain ⟨y, src', rfl, hy⟩ := h.starts
    rw [List.append_assoc, List.cons_append] at hsrc
    have hkey := reaches_nextKey before outer n hw hy hsrc (by omega)
    obtain ⟨c', hrest', hcolumn', hreaches⟩ := h.reaches (before ++
      [.key, .scalar (String.ofList w) true, .value]) outer (c :=
        c.past (w.length + 1) (y :: (src' ++ '\n' ::
        (List.replicate j ' ' ++ rest)))) rfl hj hrest (by
          show n < c.column + (w.length + 1); omega)
    rw [List.append_assoc] at hreaches
    exact ⟨c', hrest', hcolumn', hkey.trans hreaches⟩

theorem OnLine.item {text : List Char} {plain : Bool} (hn : 0 < n)
    (h : ScalarSource (n + 2) src text plain) :
    OnLine n ('-' :: ' ' :: src) [.blockEntry, .scalar (String.ofList text) plain] where
  starts rest := by
    refine ⟨?_, fun hzero => absurd hzero (Nat.ne_of_gt hn)⟩
    rintro _ ⟨⟩
    decide
  written := List.forall_mem_cons.mpr ⟨by decide, List.forall_mem_cons.mpr ⟨by decide, h.isWritten⟩⟩
  reaches {c} before outer {j rest} hsrc hj hrest hcolumn := by
    have hitem := reaches_item before outer n hsrc (by omega)
    obtain ⟨c', hrest', hcolumn', hreaches⟩ := reaches_scalar (before ++ [.blockEntry]) outer true
      (c := (c.past 1 (' ' :: (src ++ '\n' :: (List.replicate j ' ' ++ rest)))).past 1
        (src ++ '\n' :: (List.replicate j ' ' ++ rest)))
      h rfl (by show n < c.column + 1 + 1; omega) hj hrest
    rw [List.append_assoc] at hreaches
    exact ⟨c', hrest', hcolumn',
      hitem.trans ((reaches_spaces (j := 1) rfl (h.startsToken _)).trans hreaches)⟩

/-! ## Mappings -/

theorem AfterColon.mapping {w : List Char} (hw : IsKeyWord w) (h : AfterColon (n + 2) src ts) :
    AfterColon n ('\n' :: (List.replicate (n + 2) ' ' ++ (w ++ ':' :: src)))
      (.blockMappingStart :: .key :: .scalar (String.ofList w) true :: .value ::
        (ts ++ [.blockEnd])) where
  starts := ⟨'\n', _, rfl, rfl⟩
  written := List.forall_mem_append.mpr ⟨isWritten_newLine (n + 2), (OnLine.entry hw h).written⟩
  reaches {c} before outer {j rest} hsrc hj hrest hcolumn := by
    obtain ⟨y, src', rfl, hy⟩ := h.starts
    rw [List.cons_append, List.append_assoc, List.append_assoc, List.cons_append] at hsrc
    obtain ⟨c₁, hrest₁, hcolumn₁, hreaches₁⟩ :=
      reaches_newLine before outer false n hsrc (hw.startsLine _ 0).token
    have hkey := reaches_firstKey before outer n hw hy hrest₁ (by omega)
    obtain ⟨c', hrest', hcolumn', hreaches⟩ := h.reaches (before ++
      [.blockMappingStart, .key, .scalar (String.ofList w) true, .value]) (n :: outer) (c :=
        c₁.past (w.length + 1) (y :: (src' ++ '\n' ::
        (List.replicate j ' ' ++ rest)))) rfl (by omega) hrest (by
          show n + 2 < c₁.column + (w.length + 1); omega)
    have hend :=
      reaches_blockEnd
        (before ++ (.blockMappingStart :: .key :: .scalar (String.ofList w) true :: .value :: ts))
        outer true (n + 2 : Nat) n (c := c') (hrest' ▸ hrest.token) (by omega)
    rw [List.append_assoc] at hend hreaches
    rw [hcolumn₁] at hkey
    exact ⟨c', hrest', hcolumn', hreaches₁.trans (hkey.trans (hreaches.trans hend))⟩

end ImportAudit.Yaml.Lexer
