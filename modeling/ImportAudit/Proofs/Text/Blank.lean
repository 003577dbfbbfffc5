import ImportAudit.Text.Blank

/-!
# Blanks, the ends of texts and their pieces

The blanks as a list of code points; what trimming leaves, which is a text that neither starts nor
ends with a blank; and cutting as the inverse of joining.
-/

namespace ImportAudit.Text

def blankCodes : List Nat :=
  List.range' 9 5 ++ List.range' 0x1c 5 ++ List.range' 0x2000 11 ++
    [0x85, 0xa0, 0x1680, 0x2028, 0x2029, 0x202f, 0x205f, 0x3000]

theorem toNat_mem_blankCodes {c : Char} (h : isBlank c = true) : c.toNat ∈ blankCodes := by
  unfold isBlank at h
  simp only [Bool.or_eq_true, Bool.and_eq_true, decide_eq_true_eq, beq_iff_eq] at h
  simp only [blankCodes, List.mem_append, List.mem_range'_1, List.mem_cons,
    List.not_mem_nil, or_false]
  omega

/-! ## Trimming -/

section Trimming

variable {p : Char → Bool} {cs : List Char}

def FreeEnds (p : Char → Bool) (cs : List Char) : Prop :=
  (∀ c ∈ cs.head?, p c = false) ∧ ∀ c ∈ cs.getLast?, p c = false

theorem head?_dropWhile_free : ∀ c ∈ (cs.dropWhile p).head?, p c = false := by
  intro c hc
  have hhead := List.head?_dropWhile_not p cs
  rw [hc] at hhead
  simpa using hhead

theorem dropWhile_of_head?_free (h : ∀ c ∈ cs.head?, p c = false) : cs.dropWhile p = cs := by
  cases cs with
  | nil => rfl
  | cons c cs => rw [List.dropWhile_cons_of_neg (by simp [h c rfl])]

theorem freeEnds_trimList (p : Char → Bool) (cs : List Char) : FreeEnds p (trimList p cs) := by
  constructor
  · intro c hc
    -- What is left after the blanks at the end starts as the text did before.
    obtain ⟨rest, hrest⟩ : trimList p cs <+: cs.dropWhile p := by
      rw [← List.reverse_suffix, trimList, List.reverse_reverse]
      exact List.dropWhile_suffix p
    apply head?_dropWhile_free c
    rw [← hrest, List.head?_append, Option.mem_def.mp hc, Option.some_or]
    rfl
  · intro c hc
    rw [trimList, List.getLast?_reverse] at hc
    exact head?_dropWhile_free c hc

theorem trimList_of_freeEnds (h : FreeEnds p cs) : trimList p cs = cs := by
  rw [trimList, dropWhile_of_head?_free h.1, dropWhile_of_head?_free, List.reverse_reverse]
  intro c hc
  exact h.2 c (by rwa [List.head?_reverse] at hc)

/-- Trimming takes characters of the class off the ends, and nothing else. -/
theorem exists_trimList (p : Char → Bool) (cs : List Char) :
    ∃ u v, cs = u ++ (trimList p cs ++ v) ∧ (∀ c ∈ u, p c = true) ∧ ∀ c ∈ v, p c = true := by
  let rest := cs.dropWhile p
  refine ⟨cs.takeWhile p, (rest.reverse.takeWhile p).reverse, ?_,
    List.all_eq_true.mp List.all_takeWhile, fun c hc => ?_⟩
  · rw [trimList, ← List.reverse_append, List.takeWhile_append_dropWhile, List.reverse_reverse,
      List.takeWhile_append_dropWhile]
  · exact List.all_eq_true.mp List.all_takeWhile c (List.mem_reverse.mp hc)

theorem trimList_append {u v : List Char} (hu : ∀ c ∈ u, p c = true) (hv : ∀ c ∈ v, p c = true)
    (h : FreeEnds p cs) :
    trimList p (u ++ (cs ++ v)) = cs := by
  have hv' : ∀ c ∈ v.reverse, p c = true := fun c hc => hv c (List.mem_reverse.mp hc)
  rw [trimList, List.dropWhile_append_of_pos hu]
  cases cs with
  | nil =>
      have hnone : (v ++ []).dropWhile p = [].dropWhile p := List.dropWhile_append_of_pos hv
      rw [List.append_nil] at hnone
      rw [List.nil_append, hnone]
      rfl
  | cons c cs =>
      have hlast : ∀ d ∈ (c :: cs).reverse.head?, p d = false :=
        fun d hd => h.2 d (by rwa [List.head?_reverse] at hd)
      rw [List.cons_append, List.dropWhile_cons_of_neg (by simp [h.1 c rfl]), ← List.cons_append,
        List.reverse_append, List.dropWhile_append_of_pos hv', dropWhile_of_head?_free hlast,
        List.reverse_reverse]

/-- Trimming keeps every character that is not of the class. -/
theorem mem_trimList_iff {c : Char} (hc : p c = false) : c ∈ trimList p cs ↔ c ∈ cs := by
  obtain ⟨u, v, hcs, hu, hv⟩ := exists_trimList p cs
  have hfree {w : List Char} (hw : ∀ d ∈ w, p d = true) : c ∉ w := by
    intro hmem
    rw [hw c hmem] at hc
    cases hc
  have hall : c ∈ cs ↔ c ∈ u ++ (trimList p cs ++ v) := by rw [← hcs]
  rw [hall, List.mem_append, List.mem_append, or_iff_right (hfree hu), or_iff_left (hfree hv)]

theorem dropWhile_append_of_free (h : ∃ d ∈ cs, p d = false) (rest : List Char) :
    (cs ++ rest).dropWhile p = cs.dropWhile p ++ rest := by
  induction cs with
  | nil =>
      obtain ⟨d, hd, -⟩ := h
      cases hd
  | cons c cs ih =>
      cases hc : p c with
      | false =>
          rw [List.cons_append, List.dropWhile_cons_of_neg (by simp [hc]),
            List.dropWhile_cons_of_neg (by simp [hc])]
          rfl
      | true =>
          rw [List.cons_append, List.dropWhile_cons_of_pos hc, List.dropWhile_cons_of_pos hc]
          apply ih
          obtain ⟨d, hd, hfree⟩ := h
          rcases List.mem_cons.mp hd with rfl | hd
          · rw [hc] at hfree
            cases hfree
          · exact ⟨d, hd, hfree⟩

/-- Trimming keeps what stands between two characters that are not of the class. -/
theorem mem_trimList_between {u v : List Char} (hu : ∃ d ∈ u, p d = false)
    (hv : ∃ d ∈ v, p d = false) (c : Char) :
    c ∈ trimList p (u ++ c :: v) := by
  have hend : ∃ d ∈ v.reverse, p d = false := by simpa using hv
  rw [trimList, dropWhile_append_of_free hu, List.reverse_append, List.reverse_cons,
    List.append_assoc, dropWhile_append_of_free hend]
  simp

theorem toList_trim (s : String) : (trim s).toList = trimList isBlank s.toList := by
  rw [trim, trimWith, String.toList_ofList]

end Trimming

theorem not_isBlank_of_mem_removeBlanks {s : String} {c : Char} (h : c ∈ (removeBlanks s).toList) :
    isBlank c = false := by
  rw [removeBlanks, String.toList_ofList] at h
  simpa using (List.mem_filter.mp h).2

theorem removeBlanks_append (s t : String) :
    removeBlanks (s ++ t) = removeBlanks s ++ removeBlanks t := by
  apply String.toList_injective
  simp [removeBlanks]

theorem removeBlanks_of_free {s : String} (h : ∀ c ∈ s.toList, isBlank c = false) :
    removeBlanks s = s := by
  apply String.toList_injective
  rw [removeBlanks, String.toList_ofList, List.filter_eq_self]
  intro c hc
  rw [h c hc]
  rfl

/-! ## Cutting -/

section Cutting

variable {p : Char → Bool} {cs : List Char} {sep : Char}

theorem splitList_of_free (h : ∀ c ∈ cs, p c = false) : splitList p cs = [cs] := by
  induction cs with
  | nil => rfl
  | cons c cs ih =>
      rw [splitList, if_neg (by simp [h c List.mem_cons_self]), ih fun d hd =>
        h d (List.mem_cons_of_mem c hd)]

theorem splitList_append (h : ∀ c ∈ cs, p c = false) (hsep : p sep = true) (rest : List Char) :
    splitList p (cs ++ sep :: rest) = cs :: splitList p rest := by
  induction cs with
  | nil => rw [List.nil_append, splitList, if_pos hsep]
  | cons c cs ih =>
      rw [List.cons_append, splitList, if_neg (by simp [h c List.mem_cons_self]),
        ih fun d hd => h d (List.mem_cons_of_mem c hd)]

theorem splitList_intercalate {xs : List (List Char)} (hne : xs ≠ [])
    (h : ∀ x ∈ xs, ∀ c ∈ x, p c = false) (hsep : p sep = true) :
    splitList p ([sep].intercalate xs) = xs := by
  induction xs with
  | nil => exact absurd rfl hne
  | cons x xs ih =>
      have hx := h x List.mem_cons_self
      cases xs with
      | nil =>
          rw [List.intercalate_singleton]
          exact splitList_of_free hx
      | cons y ys =>
          rw [List.intercalate_cons_cons, List.append_assoc, List.singleton_append,
            splitList_append hx hsep, ih (List.cons_ne_nil _ _) fun z hz =>
              h z (List.mem_cons_of_mem x hz)]

theorem not_of_mem_splitList {piece : List Char} {c : Char} (hpiece : piece ∈ splitList p cs)
    (hc : c ∈ piece) :
    p c = false := by
  fun_induction splitList p cs generalizing piece with
  | case1 => simp_all
  | case2 d cs hd ih => grind
  | case3 d cs hd hnone ih => grind
  | case4 d cs hd first rest hrest ih => grind

theorem splitAt_intercalate {joint : String} (hjoint : joint.toList = [sep]) {xs : List String}
    (hne : xs ≠ []) (h : ∀ x ∈ xs, sep ∉ x.toList) : splitAt sep (joint.intercalate xs) = xs := by
  have hlists :
      splitList (· == sep) ([sep].intercalate (xs.map String.toList)) = xs.map String.toList := by
    refine splitList_intercalate (by simpa using hne) (fun cs hcs c hc => ?_) (beq_self_eq_true sep)
    obtain ⟨x, hx, rfl⟩ := List.mem_map.mp hcs
    exact beq_eq_false_iff_ne.mpr fun heq => h x hx (heq ▸ hc)
  rw [splitAt, String.toList_intercalate, hjoint, hlists, List.map_map]
  simp [Function.comp_def]

end Cutting

end ImportAudit.Text
