import ImportAudit.Proofs.Text.Lower

/-!
# Lower-casing a part of a text

Only a capital sigma is lower-cased by what stands around it. A text is therefore lower-cased
after another as it is alone, but for a sigma that comes first of its letters; and blanks
around a text make no difference.
-/

namespace ImportAudit.Text

variable {before before' after u v cs : List Char} {c : Char}

/-! ## Classes of characters -/

def inAnyRange (ranges : List (Nat × Nat)) (n : Nat) : Bool :=
  ranges.any fun r => Nat.ble r.1 n && Nat.ble n r.2

theorem inRanges_eq (table : Array (Nat × Nat)) (n : Nat) :
    inRanges table n = inAnyRange table.toList n := by
  simp only [inRanges, inAnyRange, ← Array.any_toList, ← Nat.ble_eq, Bool.decide_eq_true]

theorem isCased_eq (c : Char) : isCased c = inAnyRange casedRanges.toList c.toNat :=
  inRanges_eq casedRanges c.toNat

theorem isCaseIgnorable_eq (c : Char) :
    isCaseIgnorable c = inAnyRange caseIgnorableRanges.toList c.toNat :=
  inRanges_eq caseIgnorableRanges c.toNat

theorem isBlank_plain (h : isBlank c = true) : IsLow c ∧ isCaseIgnorable c = false ∧
    isCased c = false := by
  have hall : (blankCodes.all fun n => n != 0x130 && !inAnyRange caseIgnorableRanges.toList n &&
      !inAnyRange casedRanges.toList n) = true := by decide +kernel
  have hrows : (blankCodes.all fun n => lowerRows.toList.all fun r => !r.covers n) = true := by
    decide +kernel
  have hmem := toNat_mem_blankCodes h
  have hc := List.all_eq_true.mp hall _ hmem
  simp only [Bool.and_eq_true, bne_iff_ne, ne_eq, Bool.not_eq_true', ← isCaseIgnorable_eq,
    ← isCased_eq] at hc
  refine ⟨?_, hc.1.2, hc.2⟩
  by_cases hascii : c.toNat < 0x80
  · have hcapital : c.toNat < 0x41 := by
      unfold isBlank at h
      simp only [Bool.or_eq_true, Bool.and_eq_true, decide_eq_true_eq, beq_iff_eq] at h
      omega
    exact ⟨lowerChar_ascii hascii (.inl hcapital), by omega, by omega⟩
  · refine isLow_of_rows hascii (fun r hr => ?_) hc.1.1
    simpa using List.all_eq_true.mp (List.all_eq_true.mp hrows _ hmem) r hr

/-! ## What is seen of the text before -/

theorem meetsCased_cons (c : Char) (cs : List Char) :
    meetsCased (c :: cs) = if isCaseIgnorable c then meetsCased cs else isCased c := by
  cases hskipped : isCaseIgnorable c <;> simp [meetsCased, hskipped]

theorem lowerAt_congr (h : meetsCased before = meetsCased before') (c : Char) (after : List Char) :
    lowerAt before c after = lowerAt before' c after := by
  rw [lowerAt, lowerAt, h]

/-- Of what comes before a text it only counts whether it ends in a letter. -/
theorem lowerFrom_congr (h : meetsCased before = meetsCased before') (cs : List Char) :
    lowerFrom before cs = lowerFrom before' cs := by
  induction cs generalizing before before' with
  | nil => rfl
  | cons c cs ih =>
      rw [lowerFrom_cons, lowerFrom_cons, lowerAt_congr h, ih]
      rw [meetsCased_cons, meetsCased_cons, h]

theorem length_lowerAt (before before' after after' : List Char) (c : Char) :
    (lowerAt before c after).length = (lowerAt before' c after').length := by
  unfold lowerAt
  split
  · split <;> split <;> rfl
  · rfl

theorem length_lowerFrom (before before' cs : List Char) :
    (lowerFrom before cs).length = (lowerFrom before' cs).length := by
  induction cs generalizing before before' with
  | nil => rfl
  | cons c cs ih =>
      rw [lowerFrom_cons, lowerFrom_cons, List.length_append, List.length_append,
        length_lowerAt before before' cs cs, ih (c :: before)]

theorem suffix_lowerFrom_append (before u v : List Char) :
    lowerFrom (u.reverse ++ before) v <:+ lowerFrom before (u ++ v) := by
  induction u generalizing before with
  | nil => exact List.suffix_refl _
  | cons c u ih =>
      rw [List.cons_append, lowerFrom_cons, List.reverse_cons, List.append_assoc,
        List.singleton_append]
      exact (ih (c :: before)).trans (List.suffix_append _ _)

/-! ## A sigma at the start -/

/-- Whether the first character that is not skipped is a capital sigma, and no letter follows it. -/
def startsFinal (cs : List Char) : Bool :=
  match cs.dropWhile isCaseIgnorable with
  | [] => false
  | c :: rest => c.toNat == 0x3a3 && !meetsCased rest

theorem startsFinal_cons (c : Char) (cs : List Char) :
    startsFinal (c :: cs) = if isCaseIgnorable c then startsFinal cs else c.toNat == 0x3a3 &&
      !meetsCased cs := by
  cases hskipped : isCaseIgnorable c <;> simp [startsFinal, hskipped]

theorem lowerAt_of_ne_sigma (h : c.toNat ≠ 0x3a3) (before before' after : List Char) :
    lowerAt before c after = lowerAt before' c after := by
  have hother : ¬ (c.toNat == 0x3a3) = true := by simpa using h
  rw [lowerAt, lowerAt, if_neg hother, if_neg hother]

theorem lowerAt_eq_alone_iff (h : meetsCased before = true) (c : Char) (after : List Char) :
    lowerAt before c after = lowerAt [] c after ↔
      (c.toNat == 0x3a3 && !meetsCased after) = false := by
  by_cases hsigma : c.toNat = 0x3a3
  · have hforms : [Char.ofNat 0x3c2] ≠ [Char.ofNat 0x3c3] := by decide
    have hnone : meetsCased [] = false := rfl
    cases hafter : meetsCased after <;> simp [lowerAt, hsigma, h, hafter, hforms, hnone]
  · simp [lowerAt_of_ne_sigma hsigma before [] after, hsigma]

/-- After a letter a text is lower-cased as it is alone, unless it starts with a sigma
that comes last of its letters. -/
theorem lowerFrom_eq_alone_iff (h : meetsCased before = true) (cs : List Char) :
    lowerFrom before cs = lowerFrom [] cs ↔ startsFinal cs = false := by
  induction cs generalizing before with
  | nil => exact iff_of_true rfl rfl
  | cons c cs ih =>
      rw [lowerFrom_cons, lowerFrom_cons, startsFinal_cons]
      split
      next hskipped =>
        -- The character is skipped, so that the letter is still the one before.
        have hsigma : c.toNat ≠ 0x3a3 := by
          intro heq
          rw [isCaseIgnorable_eq, heq] at hskipped
          exact absurd hskipped (by decide +kernel)
        have hbefore : meetsCased (c :: before) = true := by
          rw [meetsCased_cons, if_pos hskipped, h]
        have halone : lowerFrom [c] cs = lowerFrom [] cs := by
          apply lowerFrom_congr
          rw [meetsCased_cons, if_pos hskipped]
        rw [lowerAt_of_ne_sigma hsigma before [], List.append_cancel_left_eq, halone]
        exact ih hbefore
      next hseen =>
        have hrest : lowerFrom (c :: before) cs = lowerFrom [c] cs := by
          apply lowerFrom_congr
          rw [meetsCased_cons, meetsCased_cons, if_neg hseen, if_neg hseen]
        rw [hrest, List.append_cancel_right_eq]
        exact lowerAt_eq_alone_iff h c cs

theorem lowerFrom_alone (h : meetsCased before = false) (cs : List Char) :
    lowerFrom before cs = lowerFrom [] cs :=
  lowerFrom_congr h cs

/-! ## Blanks around a text -/

theorem meetsCased_of_blanks (h : ∀ c ∈ u, isBlank c = true) : meetsCased u = false := by
  cases u with
  | nil => rfl
  | cons c u =>
      obtain ⟨-, hseen, hcased⟩ := isBlank_plain (h c List.mem_cons_self)
      rw [meetsCased_cons, if_neg (by simp [hseen]), hcased]

theorem meetsCased_append (h : meetsCased v = false) (u : List Char) :
    meetsCased (u ++ v) = meetsCased u := by
  induction u with
  | nil => exact h
  | cons c u ih => rw [List.cons_append, meetsCased_cons, meetsCased_cons, ih]

theorem lowerFrom_append (h : meetsCased v = false) (before u : List Char) :
    lowerFrom before (u ++ v) = lowerFrom before u ++ lowerFrom (u.reverse ++ before) v := by
  induction u generalizing before with
  | nil => rfl
  | cons c u ih =>
      rw [List.cons_append, lowerFrom_cons, lowerFrom_cons, ih, List.reverse_cons,
        List.append_assoc, List.append_assoc, List.singleton_append, lowerAt, lowerAt,
        meetsCased_append h]

theorem lowerAt_of_low (h : IsLow c) (before after : List Char) : lowerAt before c after = [c] := by
  obtain ⟨hself, hdotted, hsigma⟩ := h
  rw [lowerAt, if_neg (by simpa using hsigma), if_neg (by simpa using hdotted), hself]

theorem lowerFrom_append_low (hu : ∀ c ∈ u, IsLow c) (before v : List Char) :
    lowerFrom before (u ++ v) = u ++ lowerFrom (u.reverse ++ before) v := by
  induction u generalizing before with
  | nil => rfl
  | cons c u ih =>
      rw [List.cons_append, lowerFrom_cons, ih fun d hd => hu d (List.mem_cons_of_mem c hd),
        lowerAt_of_low (hu c List.mem_cons_self), List.reverse_cons, List.append_assoc]
      rfl

theorem lowerFrom_between_blanks (hu : ∀ c ∈ u, isBlank c = true) (hv : ∀ c ∈ v, isBlank c = true)
    (cs : List Char) :
    lowerFrom [] (u ++ (cs ++ v)) = u ++ (lowerFrom [] cs ++ v) := by
  have hend : lowerFrom (cs.reverse ++ u.reverse) v = v :=
    lowerFrom_eq_self fun c hc => (isBlank_plain (hv c hc)).1
  have hstart : meetsCased u.reverse = false :=
    meetsCased_of_blanks fun c hc => hu c (List.mem_reverse.mp hc)
  rw [lowerFrom_append_low (fun c hc => (isBlank_plain (hu c hc)).1), List.append_nil,
    lowerFrom_append (meetsCased_of_blanks hv), hend, lowerFrom_alone hstart]

/-! ## Trimming -/

/-- It does not matter whether a text is lower-cased before or after it is trimmed. -/
theorem trim_lower (s : String) : trim (lower s) = lower (trim s) := by
  obtain ⟨u, v, hcs, hu, hv⟩ := exists_trimList isBlank s.toList
  have hlower : (lower s).toList = u ++ (lowerFrom [] (trimList isBlank s.toList) ++ v) := by
    rw [lower, String.toList_ofList]
    exact (congrArg (lowerFrom []) hcs).trans (lowerFrom_between_blanks hu hv _)
  rw [trim, trimWith, hlower, trimList_append hu hv (freeEnds_lowerFrom (freeEnds_trimList _ _)),
    lower, trim, trimWith, String.toList_ofList]

theorem toList_lower (s : String) : (lower s).toList = lowerFrom [] s.toList := by
  rw [lower, String.toList_ofList]

theorem lower_lower (s : String) : lower (lower s) = lower s := by
  apply String.toList_inj.mp
  rw [toList_lower, toList_lower]
  exact lowerFrom_eq_self fun c hc => isLow_of_mem_lowerFrom hc

/-! ## Dots -/

theorem lowerChar_eq_dot (h : lowerChar c = '.') : c = '.' := by
  by_cases hascii : c.toNat < 0x80
  · have hall : ∀ n < 0x80, lowerChar (Char.ofNat n) = '.' → Char.ofNat n = '.' := by decide +kernel
    have hc := hall c.toNat hascii
    rw [Char.ofNat_toNat] at hc
    exact hc h
  · rcases lowerChar_cases hascii with ⟨hsame, -⟩ | ⟨r, hr, hcovers, hcode⟩
    · exact hsame ▸ h
    · have hapart : (lowerRows.toList.all fun r => r.apart ⟨0x2e, 0x2e, 1, 0⟩) = true := by
        decide +kernel
      have hdot := LowerRow.covers_lowered (List.all_eq_true.mp hapart r hr) hcovers
      rw [← hcode, h] at hdot
      exact absurd hdot (by decide)

theorem eq_dot_of_mem_lowerAt (h : '.' ∈ lowerAt before c after) : c = '.' := by
  have hforms : '.' ∉ [Char.ofNat 0x3c2, Char.ofNat 0x3c3, 'i', Char.ofNat 0x307] := by decide
  simp only [List.mem_cons, List.not_mem_nil, or_false, not_or] at hforms
  unfold lowerAt at h
  split at h
  · split at h <;> simp_all
  · split at h
    · simp_all
    · exact lowerChar_eq_dot (List.mem_singleton.mp h).symm

theorem isLow_dot : IsLow '.' :=
  ⟨lowerChar_ascii (by decide) (.inl (by decide)), by decide, by decide⟩

theorem dot_skipped : isCaseIgnorable '.' = true := by
  rw [isCaseIgnorable_eq]
  decide +kernel

theorem lowerFrom_dot (before cs : List Char) :
    lowerFrom before ('.' :: cs) = '.' :: lowerFrom ('.' :: before) cs := by
  have hdot : ∀ c ∈ ['.'], IsLow c := by
    intro c hc
    rw [List.mem_singleton.mp hc]
    exact isLow_dot
  exact lowerFrom_append_low hdot before cs

end ImportAudit.Text
