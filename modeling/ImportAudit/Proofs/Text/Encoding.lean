import ImportAudit.Proofs.Sequencing
import ImportAudit.Text.Encoding

/-!
# Texts and their bytes

Every text is decoded from its bytes in UTF-8, and from no others. What is said of one character
holds whatever follows it.
-/

namespace ImportAudit.Text

variable {c : Char} {b t : UInt8} {ts rest : List UInt8}

/-- A first byte and the bytes after it are those of a character. -/
structure IsSequence (c : Char) (b : UInt8) (ts : List UInt8) : Prop where
  length : sequenceLength? b = some (ts.length + 1)
  fitting : ∀ rest, Text.fitting b ts.length (ts ++ rest) = ts.length
  char : decodeSequence b ts = c

theorem toNat_tail (m : Nat) : (UInt8.ofNat (0x80 + m % 0x40)).toNat = 0x80 + m % 0x40 :=
  UInt8.toNat_ofNat_of_lt' (by simp only [UInt8.size]; omega)

theorem isContinuation_tail (m : Nat) : isContinuation (UInt8.ofNat (0x80 + m % 0x40)) = true := by
  simp only [isContinuation, toNat_tail, Bool.and_eq_true, decide_eq_true_eq]
  omega

theorem fitting_zero (b : UInt8) (rest : List UInt8) : fitting b 0 rest = 0 := by
  cases rest <;> rfl

theorem fitting_tails (hsecond : secondFits b t = true) (hts : ts.all isContinuation = true)
    (rest : List UInt8) :
    fitting b (t :: ts).length (t :: ts ++ rest) = (t :: ts).length := by
  have htails : ts.takeWhile isContinuation = ts := by
    have hall : (ts ++ []).takeWhile isContinuation = ts ++ [].takeWhile isContinuation :=
      List.takeWhile_append_of_pos (List.all_eq_true.mp hts)
    rwa [List.append_nil, List.takeWhile_nil, List.append_nil] at hall
  rw [List.cons_append, fitting, if_neg (by simp [hsecond]), List.length_cons, Nat.add_sub_cancel,
    List.take_left, htails, Nat.add_comm]

theorem secondFits_iff : secondFits b t = true ↔
    isContinuation t = true ∧ (b.toNat = 0xe0 → 0xa0 ≤ t.toNat) ∧
      (b.toNat = 0xed → t.toNat < 0xa0) ∧
      (b.toNat = 0xf0 → 0x90 ≤ t.toNat) ∧ (b.toNat = 0xf4 → t.toNat < 0x90) := by
  simp [secondFits, and_assoc, Decidable.imp_iff_not_or]

section Widths

variable (c)

theorem isSequence_one (h : c.toNat < 0x80) : IsSequence c (UInt8.ofNat c.toNat) [] := by
  have hbyte : (UInt8.ofNat c.toNat).toNat = c.toNat :=
    UInt8.toNat_ofNat_of_lt' (by simp only [UInt8.size]; omega)
  refine ⟨?_, fun rest => fitting_zero _ rest, ?_⟩
  · simp [sequenceLength?, hbyte, h]
  · simp [decodeSequence, hbyte]

theorem isSequence_two (h : 0x80 ≤ c.toNat) (hlt : c.toNat < 0x800) :
    IsSequence c (UInt8.ofNat (0xc0 + c.toNat / 0x40)) [UInt8.ofNat (0x80 + c.toNat % 0x40)] := by
  have hbyte : (UInt8.ofNat (0xc0 + c.toNat / 0x40)).toNat = 0xc0 + c.toNat / 0x40 :=
    UInt8.toNat_ofNat_of_lt' (by simp only [UInt8.size]; omega)
  refine ⟨?_, fitting_tails (secondFits_iff.mpr ⟨isContinuation_tail _, ?_⟩) rfl, ?_⟩
  · simp only [sequenceLength?, hbyte, List.length_singleton]
    grind
  · rw [hbyte]
    omega
  · have hvalue : ((0xc0 + c.toNat / 0x40) % 0x20) * 0x40 + (0x80 + c.toNat % 0x40) % 0x40 =
        c.toNat := by omega
    simp only [decodeSequence, List.length_singleton, List.foldl_cons, List.foldl_nil, hbyte,
      toNat_tail, hvalue, Char.ofNat_toNat]

theorem isSequence_three (h : 0x800 ≤ c.toNat) (hlt : c.toNat < 0x10000) :
    IsSequence c (UInt8.ofNat (0xe0 + c.toNat / 0x1000))
      [UInt8.ofNat (0x80 + c.toNat / 0x40 % 0x40), UInt8.ofNat (0x80 + c.toNat % 0x40)] := by
  have hbyte : (UInt8.ofNat (0xe0 + c.toNat / 0x1000)).toNat = 0xe0 + c.toNat / 0x1000 :=
    UInt8.toNat_ofNat_of_lt' (by simp only [UInt8.size]; omega)
  have hvalid : c.toNat < 0xd800 ∨ (0xdfff < c.toNat ∧ c.toNat < 0x110000) := c.valid
  refine ⟨?_, fitting_tails (secondFits_iff.mpr ⟨isContinuation_tail _, ?_⟩) ?_, ?_⟩
  · simp only [sequenceLength?, hbyte, List.length_cons, List.length_nil]
    grind
  · rw [hbyte, toNat_tail]
    omega
  · simp only [List.all_cons, List.all_nil, isContinuation_tail, Bool.and_self]
  · have hvalue :
        (((0xe0 + c.toNat / 0x1000) % 0x10) * 0x40 + (0x80 + c.toNat / 0x40 % 0x40) % 0x40) * 0x40 +
        (0x80 + c.toNat % 0x40) % 0x40 = c.toNat := by omega
    simp only [decodeSequence, List.length_cons, List.length_nil, List.foldl_cons, List.foldl_nil,
      hbyte, toNat_tail, hvalue, Char.ofNat_toNat]

theorem isSequence_four (h : 0x10000 ≤ c.toNat) :
    IsSequence c (UInt8.ofNat (0xf0 + c.toNat / 0x40000))
      [UInt8.ofNat (0x80 + c.toNat / 0x1000 % 0x40), UInt8.ofNat (0x80 + c.toNat / 0x40 % 0x40),
        UInt8.ofNat (0x80 + c.toNat % 0x40)] := by
  have hvalid : c.toNat < 0xd800 ∨ (0xdfff < c.toNat ∧ c.toNat < 0x110000) := c.valid
  have hbyte : (UInt8.ofNat (0xf0 + c.toNat / 0x40000)).toNat = 0xf0 + c.toNat / 0x40000 :=
    UInt8.toNat_ofNat_of_lt' (by simp only [UInt8.size]; omega)
  refine ⟨?_, fitting_tails (secondFits_iff.mpr ⟨isContinuation_tail _, ?_⟩) ?_, ?_⟩
  · simp only [sequenceLength?, hbyte, List.length_cons, List.length_nil]
    grind
  · rw [hbyte, toNat_tail]
    omega
  · simp only [List.all_cons, List.all_nil, isContinuation_tail, Bool.and_self]
  · have hvalue :
        ((((0xf0 + c.toNat / 0x40000) % 0x08) * 0x40 +
          (0x80 + c.toNat / 0x1000 % 0x40) % 0x40) * 0x40 +
            (0x80 + c.toNat / 0x40 % 0x40) % 0x40) * 0x40 +
              (0x80 + c.toNat % 0x40) % 0x40 = c.toNat := by omega
    simp only [decodeSequence, List.length_cons, List.length_nil, List.foldl_cons, List.foldl_nil,
      hbyte, toNat_tail, hvalue, Char.ofNat_toNat]

end Widths

theorem isSequence_encodeChar (c : Char) : ∃ b ts, encodeChar c = b :: ts ∧ IsSequence c b ts := by
  have hpowers : Nat.pow 0x40 0 = 1 ∧ Nat.pow 0x40 1 = 0x40 ∧ Nat.pow 0x40 2 = 0x1000 := by decide
  unfold encodeChar
  simp only [hpowers, Nat.div_one]
  split
  · rename_i hone
    exact ⟨_, _, rfl, isSequence_one c hone⟩
  · rename_i hone
    split
    · rename_i htwo
      exact ⟨_, _, rfl, isSequence_two c (Nat.le_of_not_lt hone) htwo⟩
    · rename_i htwo
      split
      · rename_i hthree
        exact ⟨_, _, rfl, isSequence_three c (Nat.le_of_not_lt htwo) hthree⟩
      · rename_i hthree
        exact ⟨_, _, rfl, isSequence_four c (Nat.le_of_not_lt hthree)⟩

theorem decodeUtf8_sequence (h : IsSequence c b ts) (fuel position : Nat) (rest : List UInt8) :
    decodeUtf8 (fuel + 1) position (b :: ts ++ rest) =
      (decodeUtf8 fuel (position + (ts.length + 1)) rest).map (c :: ·) := by
  rw [List.cons_append, decodeUtf8, h.length]
  dsimp only
  rw [Nat.add_sub_cancel, h.fitting, if_pos rfl, List.drop_left, List.take_left, h.char]

theorem decodeUtf8_encoded (cs : List Char) {fuel : Nat}
    (hfuel : (cs.flatMap encodeChar).length ≤ fuel) (position : Nat) :
    decodeUtf8 fuel position (cs.flatMap encodeChar) = .ok cs := by
  induction cs generalizing fuel position with
  | nil => cases fuel <;> rfl
  | cons c cs ih =>
      obtain ⟨b, ts, hencode, hsequence⟩ := isSequence_encodeChar c
      rw [List.flatMap_cons, hencode] at hfuel ⊢
      rw [List.length_append, List.length_cons] at hfuel
      obtain ⟨fuel, rfl⟩ : ∃ k, fuel = k + 1 := ⟨fuel - 1, by omega⟩
      rw [decodeUtf8_sequence hsequence, ih (by omega)]
      rfl

/-- A text is decoded from its bytes. -/
theorem decode_encodeUtf8 (t : String) : decode .utf8 (encodeUtf8 t) = .ok t := by
  unfold decode encodeUtf8
  dsimp only
  rw [decodeUtf8_encoded t.toList (Nat.le_refl _)]
  show Except.ok (String.ofList t.toList) = _
  rw [String.ofList_toList]

/-! ## Bytes that are a text -/

theorem fitting_le (b : UInt8) (wanted : Nat) (bs : List UInt8) :
    fitting b wanted bs ≤ bs.length := by
  cases bs with
  | nil => exact Nat.le_refl 0
  | cons t bs =>
      rw [fitting]
      split
      · exact Nat.zero_le _
      · have htails := (List.takeWhile_sublist isContinuation (l := bs.take (wanted - 1))).length_le
        rw [List.length_take] at htails
        rw [List.length_cons]
        omega

theorem isContinuation_iff : isContinuation t = true ↔ 0x80 ≤ t.toNat ∧ t.toNat < 0xc0 := by
  simp [isContinuation]

theorem tails_of_fitting (h : fitting b (t :: ts).length (t :: ts ++ rest) = (t :: ts).length) :
    secondFits b t = true ∧ ∀ x ∈ ts, 0x80 ≤ x.toNat ∧ x.toNat < 0xc0 := by
  rw [List.cons_append, fitting, List.length_cons, Nat.add_sub_cancel, List.take_left] at h
  split at h
  · cases h
  · rename_i hsecond
    have hall : ts.takeWhile isContinuation = ts :=
      (List.takeWhile_prefix isContinuation).eq_of_length (by omega)
    refine ⟨by simpa using hsecond, fun x hx => isContinuation_iff.mp ?_⟩
    exact List.all_eq_true.mp List.all_takeWhile x (hall.symm ▸ hx)

theorem encodeChar_ofNat {n : Nat} (h : n.isValidChar) : encodeChar (Char.ofNat n) =
    if n < 0x80 then [UInt8.ofNat n]
    else if n < 0x800 then [UInt8.ofNat (0xc0 + n / 0x40), UInt8.ofNat (0x80 + n % 0x40)]
    else if n < 0x10000 then
      [UInt8.ofNat (0xe0 + n / 0x1000), UInt8.ofNat (0x80 + n / 0x40 % 0x40),
        UInt8.ofNat (0x80 + n % 0x40)]
    else [UInt8.ofNat (0xf0 + n / 0x40000), UInt8.ofNat (0x80 + n / 0x1000 % 0x40),
      UInt8.ofNat (0x80 + n / 0x40 % 0x40), UInt8.ofNat (0x80 + n % 0x40)] := by
  have hpowers : Nat.pow 0x40 0 = 1 ∧ Nat.pow 0x40 1 = 0x40 ∧ Nat.pow 0x40 2 = 0x1000 := by decide
  have hnat : (Char.ofNat n).toNat = n := by
    rw [Char.ofNat, dif_pos h]
    rfl
  simp only [encodeChar, hnat, hpowers, Nat.div_one]

theorem ofNat_eq_byte {n : Nat} (h : n = t.toNat) : UInt8.ofNat n = t := by
  rw [h, UInt8.ofNat_toNat]

/-- The bytes of a sequence are those of its character. -/
theorem encodeChar_decodeSequence (hlength : sequenceLength? b = some (ts.length + 1))
    (hfitting : fitting b ts.length (ts ++ rest) = ts.length) :
    encodeChar (decodeSequence b ts) = b :: ts := by
  rcases ts with _ | ⟨x, _ | ⟨y, _ | ⟨z, _ | ⟨u, ts⟩⟩⟩⟩
  · have hb : b.toNat < 0x80 := by grind [sequenceLength?]
    have hvalid : b.toNat.isValidChar := .inl (by omega)
    rw [show decodeSequence b [] = Char.ofNat b.toNat from rfl, encodeChar_ofNat hvalid, if_pos hb,
      UInt8.ofNat_toNat]
  · have hb : 0xc2 ≤ b.toNat ∧ b.toNat < 0xe0 := by grind [sequenceLength?]
    obtain ⟨hsecond, -⟩ := tails_of_fitting hfitting
    obtain ⟨hx, -⟩ := secondFits_iff.mp hsecond
    rw [isContinuation_iff] at hx
    let n := b.toNat % 0x20 * 0x40 + x.toNat % 0x40
    have hvalid : n.isValidChar := .inl (by omega)
    rw [show decodeSequence b [x] = Char.ofNat n from rfl, encodeChar_ofNat hvalid,
      if_neg (by omega), if_pos (by omega), ofNat_eq_byte (t := b) (by omega),
      ofNat_eq_byte (t := x) (by omega)]
  · have hb : 0xe0 ≤ b.toNat ∧ b.toNat < 0xf0 := by grind [sequenceLength?]
    obtain ⟨hsecond, htails⟩ := tails_of_fitting hfitting
    obtain ⟨hx, hranges⟩ := secondFits_iff.mp hsecond
    have hy := htails y List.mem_cons_self
    rw [isContinuation_iff] at hx
    let n := (b.toNat % 0x10 * 0x40 + x.toNat % 0x40) * 0x40 + y.toNat % 0x40
    have hvalid : n < 0xd800 ∨ 0xdfff < n ∧ n < 0x110000 := by omega
    rw [show decodeSequence b [x, y] = Char.ofNat n from rfl, encodeChar_ofNat hvalid,
      if_neg (by omega), if_neg (by omega), if_pos (by omega), ofNat_eq_byte (t := b) (by omega),
      ofNat_eq_byte (t := x) (by omega), ofNat_eq_byte (t := y) (by omega)]
  · have hb : 0xf0 ≤ b.toNat ∧ b.toNat < 0xf5 := by grind [sequenceLength?]
    obtain ⟨hsecond, htails⟩ := tails_of_fitting hfitting
    obtain ⟨hx, hranges⟩ := secondFits_iff.mp hsecond
    have hy := htails y List.mem_cons_self
    have hz := htails z (List.mem_cons_of_mem y List.mem_cons_self)
    rw [isContinuation_iff] at hx
    let n :=
      ((b.toNat % 0x08 * 0x40 + x.toNat % 0x40) * 0x40 + y.toNat % 0x40) * 0x40 + z.toNat % 0x40
    have hvalid : n < 0xd800 ∨ 0xdfff < n ∧ n < 0x110000 := by omega
    rw [show decodeSequence b [x, y, z] = Char.ofNat n from rfl, encodeChar_ofNat hvalid,
      if_neg (by omega), if_neg (by omega), if_neg (by omega), ofNat_eq_byte (t := b) (by omega),
      ofNat_eq_byte (t := x) (by omega), ofNat_eq_byte (t := y) (by omega),
      ofNat_eq_byte (t := z) (by omega)]
  · simp only [sequenceLength?, List.length_cons] at hlength
    grind

theorem eq_encoded_of_decodeUtf8 {fuel position : Nat} {bs : List UInt8} {cs : List Char}
    (hfuel : bs.length ≤ fuel) (h : decodeUtf8 fuel position bs = .ok cs) :
    bs = cs.flatMap encodeChar := by
  fun_induction decodeUtf8 fuel position bs generalizing cs with
  | case1 => cases h; rfl
  | case2 => cases hfuel
  | case3 => cases h
  | case4 fuel position b bs length hlength wanted found hfound =>
      rename_i ih
      obtain ⟨cs, hcs, rfl⟩ := map_eq_ok_iff.mp h
      have hrest := ih (by grind) hcs
      have hwanted : (bs.take wanted).length = wanted := by
        have hle := fitting_le b wanted bs
        rw [List.length_take]
        omega
      have hpos : length = (bs.take wanted).length + 1 := by grind [sequenceLength?]
      have hsequence : encodeChar (decodeSequence b (bs.take wanted)) = b :: bs.take wanted := by
        have hfits : fitting b (bs.take wanted).length (bs.take wanted ++ bs.drop wanted) =
            (bs.take wanted).length := by
          rw [List.take_append_drop, hwanted]
          exact hfound
        exact encodeChar_decodeSequence (hpos ▸ hlength) hfits
      rw [List.flatMap_cons, hsequence, ← hrest, List.cons_append, List.take_append_drop]
  | case5 => cases h

theorem decode_eq_ok_iff {bs : List UInt8} {t : String} : decode .utf8 bs = .ok t ↔
    bs = encodeUtf8 t := by
  constructor
  · intro h
    obtain ⟨cs, hcs, rfl⟩ := map_eq_ok_iff.mp h
    rw [encodeUtf8, String.toList_ofList]
    exact eq_encoded_of_decodeUtf8 (Nat.le_refl _) hcs
  · rintro rfl
    exact decode_encodeUtf8 t

end ImportAudit.Text
