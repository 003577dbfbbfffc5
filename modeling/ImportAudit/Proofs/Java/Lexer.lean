import ImportAudit.Java.Lexer
import ImportAudit.Proofs.Text.Identifier

/-!
# Words and comments

Every word that the lexer finds starts as an identifier does and goes on as one; so no word is
empty, and there is neither a blank nor a mark in it. Every comment starts with a slash.
-/

namespace ImportAudit.Java

open Text

def StartsIdentifier (s : String) : Prop :=
  ∃ c cs, s.toList = c :: cs ∧ isIdentifierStart c = true

/-- Whether a text starts as an identifier does and goes on as one; one keyword
has a hyphen in it. -/
def IsWord (s : String) : Prop :=
  StartsIdentifier s ∧ ∀ c ∈ s.toList, isIdentifierPart c = true ∨ c = '-'

def IsComment (s : String) : Prop :=
  ∃ cs, s.toList = '/' :: cs

namespace IsWord

variable {s : String} {c : Char}

theorem not_mem (h : IsWord s) (hc : isIdentifierPart c = false) (hyphen : c ≠ '-') :
    c ∉ s.toList := by
  intro hmem
  rcases h.2 c hmem with hpart | rfl
  · rw [hc] at hpart
    cases hpart
  · exact hyphen rfl

theorem not_isBlank (h : IsWord s) (hc : c ∈ s.toList) : isBlank c = false := by
  rcases h.2 c hc with hpart | rfl
  · exact isBlank_of_isIdentifierPart hpart
  · rfl

theorem ne_empty (h : IsWord s) : s ≠ "" := by
  obtain ⟨⟨c, cs, hs, -⟩, -⟩ := h
  rintro rfl
  cases hs

theorem removeBlanks_eq (h : IsWord s) : removeBlanks s = s :=
  removeBlanks_of_free fun _ hc => h.not_isBlank hc

end IsWord

structure Token.Sound (t : Token) : Prop where
  word : t.lexeme = .word → IsWord t.text
  comment : t.lexeme = .comment → IsComment t.text

theorem wordLength_pos {c : Char} (hc : isIdentifierStart c = true) (cs : List Char) :
    0 < wordLength (c :: cs) := by
  have hpart : isIdentifierPart c = true := isIdentifierPart_of_isIdentifierStart hc
  unfold wordLength
  dsimp only
  split
  · decide
  · simp [runLength, hpart]

theorem mem_take_wordLength {c : Char} {cs : List Char} (h : c ∈ cs.take (wordLength cs)) :
    isIdentifierPart c = true ∨ c = '-' := by
  have hkeyword :
      ("non-sealed".toList.all fun d => isIdentifierPart d || d == '-') = true := by decide
  unfold wordLength at h
  dsimp only at h
  split at h
  next hnon =>
    obtain ⟨hstarts, -⟩ := (Bool.and_eq_true _ _).mp hnon
    rw [← List.prefix_iff_eq_take.mp (List.isPrefixOf_iff_prefix.mp hstarts)] at h
    simpa using List.all_eq_true.mp hkeyword c h
  next =>
    rw [runLength, ← List.prefix_iff_eq_take.mp (List.takeWhile_prefix isIdentifierPart)] at h
    exact .inl (List.all_eq_true.mp List.all_takeWhile c h)

theorem stringStep_lexeme (block : Bool) (outer : List Mode) (c : Char) (cs : List Char) :
    (stringStep block outer c cs).lexeme ≠ .word ∧
      (stringStep block outer c cs).lexeme ≠ .comment := by
  unfold stringStep
  dsimp only
  split
  · simp
  · split
    · simp
    · split <;> simp
  · split
    · simp
    · split <;> simp
  · simp

/-- A step of the lexer finds a word only where an identifier starts, and then
as much as belongs to it. -/
theorem codeStep_word {depth : Nat} {outer : List Mode} {c : Char} {cs : List Char}
    (h : (codeStep depth outer c cs).lexeme = .word) :
    isIdentifierStart c = true ∧ (codeStep depth outer c cs).length = wordLength (c :: cs) := by
  by_cases hc : isIdentifierStart c = true
  · refine ⟨hc, ?_⟩
    unfold codeStep
    rw [if_pos hc]
  · unfold codeStep at h
    rw [if_neg hc] at h
    -- No other branch is a word.
    repeat' split at h
    all_goals cases h

theorem codeStep_comment {depth : Nat} {outer : List Mode} {c : Char} {cs : List Char}
    (h : (codeStep depth outer c cs).lexeme = .comment) :
    c = '/' ∧ 0 < (codeStep depth outer c cs).length := by
  by_cases hc : isIdentifierStart c = true
  · unfold codeStep at h
    rw [if_pos hc] at h
    cases h
  · unfold codeStep at h ⊢
    rw [if_neg hc] at h ⊢
    split at h
    case h_4 => exact ⟨rfl, by dsimp only; omega⟩
    case h_5 =>
      split at h
      next => exact ⟨rfl, by dsimp only; omega⟩
      next => cases h
    all_goals
      repeat' split at h
      all_goals cases h

theorem step_word {modes : List Mode} {c : Char} {cs : List Char}
    (h : (step modes c cs).lexeme = .word) :
    isIdentifierStart c = true ∧ (step modes c cs).length = wordLength (c :: cs) := by
  unfold step at h ⊢
  split at h
  next block outer => exact absurd h (stringStep_lexeme block outer c cs).1
  next => exact codeStep_word h
  next => exact codeStep_word h

theorem step_comment {modes : List Mode} {c : Char} {cs : List Char}
    (h : (step modes c cs).lexeme = .comment) :
    c = '/' ∧ 0 < (step modes c cs).length := by
  unfold step at h ⊢
  split at h
  next block outer => exact absurd h (stringStep_lexeme block outer c cs).2
  next => exact codeStep_comment h
  next => exact codeStep_comment h

theorem sound_step (modes : List Mode) (c : Char) (cs : List Char) (line place : Nat) :
    Token.Sound ⟨(step modes c cs).lexeme, String.ofList ((c :: cs).take (step modes c cs).length),
      line, place⟩ := by
  -- A step that takes something takes the first character.
  have hfirst {n : Nat} (hn : 0 < n) :
      ∃ rest, (String.ofList ((c :: cs).take n)).toList = c :: rest := by
    obtain ⟨m, rfl⟩ := Nat.exists_eq_add_of_lt hn
    exact ⟨cs.take m, by simp⟩
  constructor
  · intro hword
    obtain ⟨hstart, hlength⟩ := step_word hword
    obtain ⟨rest, hrest⟩ := hfirst (hlength ▸ wordLength_pos hstart cs)
    refine ⟨⟨c, rest, hrest, hstart⟩, fun d hd => ?_⟩
    rw [String.toList_ofList, hlength] at hd
    exact mem_take_wordLength hd
  · intro hcomment
    obtain ⟨rfl, hpos⟩ := step_comment hcomment
    exact hfirst hpos

theorem sound_scan (fuel : Nat) (modes : List Mode) (line place : Nat) (cs : List Char) :
    ∀ t ∈ scan fuel modes line place cs, t.Sound := by
  fun_induction scan fuel modes line place cs with
  | case1 fuel modes line place c cs hspace ih => exact ih
  | case2 fuel modes line place c cs hspace s taken ih =>
      exact List.forall_mem_cons.mpr ⟨sound_step modes c cs line place, ih⟩
  | case3 =>
      intro t ht
      cases List.mem_singleton.mp ht
      exact ⟨Lexeme.noConfusion, Lexeme.noConfusion⟩

theorem sound_tokens (source : String) : ∀ t ∈ tokens source, t.Sound :=
  sound_scan _ _ _ _ _

end ImportAudit.Java
