import ImportAudit.Proofs.Text.Encoding
import Mathlib.Data.List.Forall2

/-!
# Well-formed bytes

Bytes are well-formed if they fall into sequences that each fit a row of ranges. These are the bytes
of texts, so that strict decoding stops at all others: at the longer form of a number, at
surrogates, at numbers beyond the last character, and where a character breaks off.
-/

namespace ImportAudit.Text

variable {b x : UInt8} {bs ts before wrong after rest : List UInt8}

/-! ## Sequences -/

/-- The sequences of bytes that stand for one character, each by the ranges of its bytes. -/
def sequenceRows : List (List (Nat × Nat)) :=
  [[(0x00, 0x7f)],
    [(0xc2, 0xdf), (0x80, 0xbf)],
    [(0xe0, 0xe0), (0xa0, 0xbf), (0x80, 0xbf)],
    [(0xe1, 0xec), (0x80, 0xbf), (0x80, 0xbf)],
    [(0xed, 0xed), (0x80, 0x9f), (0x80, 0xbf)],
    [(0xee, 0xef), (0x80, 0xbf), (0x80, 0xbf)],
    [(0xf0, 0xf0), (0x90, 0xbf), (0x80, 0xbf), (0x80, 0xbf)],
    [(0xf1, 0xf3), (0x80, 0xbf), (0x80, 0xbf), (0x80, 0xbf)],
    [(0xf4, 0xf4), (0x80, 0x8f), (0x80, 0xbf), (0x80, 0xbf)]]

def InRanges (bytes : List UInt8) (ranges : List (Nat × Nat)) : Prop :=
  List.Forall₂ (fun b range => range.1 ≤ b.toNat ∧ b.toNat ≤ range.2) bytes ranges

inductive WellFormed : List UInt8 → Prop
  | nil : WellFormed []
  | append {piece rest : List UInt8} {row : List (Nat × Nat)} (hrow : row ∈ sequenceRows)
      (hpiece : InRanges piece row)
      (hrest : WellFormed rest) : WellFormed (piece ++ rest)

/-- Whether a decoder takes a first byte and the bytes after it for one character. -/
def IsTaken (b : UInt8) (ts : List UInt8) : Prop :=
  sequenceLength? b = some (ts.length + 1) ∧ fitting b ts.length ts = ts.length

theorem fitting_eq_length_iff : fitting b (x :: ts).length (x :: ts) = (x :: ts).length ↔
    secondFits b x = true ∧ ∀ t ∈ ts, 0x80 ≤ t.toNat ∧ t.toNat < 0xc0 := by
  constructor
  · intro h
    have hfits : fitting b (x :: ts).length (x :: ts ++ []) = (x :: ts).length := by
      rwa [List.append_nil]
    exact tails_of_fitting hfits
  · rintro ⟨hsecond, htails⟩
    have hall : ts.all isContinuation = true :=
      List.all_eq_true.mpr fun t ht => isContinuation_iff.mpr (htails t ht)
    have hfits := fitting_tails hsecond hall []
    rwa [List.append_nil] at hfits

theorem sequenceLength?_eq_some_iff {n : Nat} : sequenceLength? b = some n ↔
    (n = 1 ∧ b.toNat < 0x80) ∨ (n = 2 ∧ 0xc2 ≤ b.toNat ∧ b.toNat < 0xe0) ∨
      (n = 3 ∧ 0xe0 ≤ b.toNat ∧ b.toNat < 0xf0) ∨ (n = 4 ∧ 0xf0 ≤ b.toNat ∧ b.toNat < 0xf5) := by
  unfold sequenceLength?
  dsimp only
  split_ifs <;> simp only [Option.some.injEq, false_iff] <;> omega

/-- The rows describe what a decoder takes for a character. -/
theorem exists_row_iff : (∃ row ∈ sequenceRows, InRanges (b :: ts) row) ↔ IsTaken b ts := by
  rcases ts with _ | ⟨x, _ | ⟨y, _ | ⟨z, _ | ⟨u, ts⟩⟩⟩⟩
  · simp [sequenceRows, InRanges, IsTaken, fitting_zero, sequenceLength?_eq_some_iff]
    omega
  · rw [IsTaken, fitting_eq_length_iff, secondFits_iff, isContinuation_iff,
      sequenceLength?_eq_some_iff]
    simp [sequenceRows, InRanges]
    omega
  · rw [IsTaken, fitting_eq_length_iff, secondFits_iff, isContinuation_iff,
      sequenceLength?_eq_some_iff]
    simp [sequenceRows, InRanges]
    omega
  · rw [IsTaken, fitting_eq_length_iff, secondFits_iff, isContinuation_iff,
      sequenceLength?_eq_some_iff]
    simp [sequenceRows, InRanges]
    omega
  · rw [IsTaken, sequenceLength?_eq_some_iff]
    simp [sequenceRows, InRanges]

theorem IsTaken.tails (h : IsTaken b ts) : ∀ t ∈ ts, 0x80 ≤ t.toNat ∧ t.toNat < 0xc0 := by
  cases ts with
  | nil => exact fun t ht => absurd ht List.not_mem_nil
  | cons x ts =>
      obtain ⟨hsecond, htails⟩ := fitting_eq_length_iff.mp h.2
      have hx := isContinuation_iff.mp (secondFits_iff.mp hsecond).1
      exact List.forall_mem_cons.mpr ⟨hx, htails⟩

theorem IsTaken.second (h : IsTaken b (x :: ts)) : secondFits b x = true :=
  (fitting_eq_length_iff.mp h.2).1

theorem IsSequence.isTaken {c : Char} (h : IsSequence c b ts) : IsTaken b ts := by
  refine ⟨h.length, ?_⟩
  have hfitting := h.fitting []
  rwa [List.append_nil] at hfitting

/-- Well-formed bytes start with a sequence, whose length its first byte tells. -/
theorem wellFormed_cons_iff :
    WellFormed (b :: bs) ↔ ∃ ts rest, bs = ts ++ rest ∧ IsTaken b ts ∧ WellFormed rest := by
  constructor
  · intro h
    generalize hbytes : b :: bs = bytes at h
    cases h with
    | nil => cases hbytes
    | @append piece rest row hrow hpiece hrest =>
        cases piece with
        | nil =>
            -- No row is empty.
            rw [List.forall₂_nil_left_iff.mp hpiece] at hrow
            exact absurd hrow (by decide)
        | cons b' ts =>
            obtain ⟨rfl, rfl⟩ := List.cons.inj hbytes
            exact ⟨ts, rest, rfl, exists_row_iff.mp ⟨row, hrow, hpiece⟩, hrest⟩
  · rintro ⟨ts, rest, rfl, htaken, hrest⟩
    obtain ⟨row, hrow, hpiece⟩ := exists_row_iff.mpr htaken
    exact .append hrow hpiece hrest

theorem IsTaken.wellFormed_iff (h : IsTaken b ts) : WellFormed (b :: (ts ++ rest)) ↔
    WellFormed rest := by
  rw [wellFormed_cons_iff]
  constructor
  · rintro ⟨ts', rest', heq, htaken, hrest⟩
    have hlength : ts.length = ts'.length := by
      have hsame := Option.some.inj (h.1.symm.trans htaken.1)
      omega
    rw [(List.append_inj heq hlength).2]
    exact hrest
  · exact fun hrest => ⟨ts, rest, rfl, h, hrest⟩

theorem WellFormed.append_iff (h : WellFormed before) : WellFormed (before ++ rest) ↔
    WellFormed rest := by
  induction h with
  | nil => rfl
  | @append piece middle row hrow hpiece _ ih =>
      cases piece with
      | nil => exact ih
      | cons b ts =>
          rw [List.append_assoc, List.cons_append,
            (exists_row_iff.mp ⟨row, hrow, hpiece⟩).wellFormed_iff]
          exact ih

/-! ## Texts -/

theorem wellFormed_encoded (cs : List Char) : WellFormed (cs.flatMap encodeChar) := by
  induction cs with
  | nil => exact .nil
  | cons c cs ih =>
      obtain ⟨b, ts, hencode, hsequence⟩ := isSequence_encodeChar c
      rw [List.flatMap_cons, hencode, List.cons_append, hsequence.isTaken.wellFormed_iff]
      exact ih

/-- Bytes are well-formed exactly if they are those of a text. -/
theorem wellFormed_iff_exists_text : WellFormed bs ↔ ∃ t, bs = encodeUtf8 t := by
  constructor
  · intro h
    induction h with
    | nil => exact ⟨"", rfl⟩
    | @append piece rest row hrow hpiece _ ih =>
        obtain ⟨t, rfl⟩ := ih
        cases piece with
        | nil => exact ⟨t, rfl⟩
        | cons b ts =>
            obtain ⟨hlength, hfitting⟩ := exists_row_iff.mp ⟨row, hrow, hpiece⟩
            have hfits : fitting b ts.length (ts ++ []) = ts.length := by rwa [List.append_nil]
            have hchar : encodeChar (decodeSequence b ts) = b :: ts :=
              encodeChar_decodeSequence hlength hfits
            refine ⟨String.ofList (decodeSequence b ts :: t.toList), ?_⟩
            rw [encodeUtf8, encodeUtf8, String.toList_ofList, List.flatMap_cons, hchar]
  · rintro ⟨t, rfl⟩
    exact wellFormed_encoded t.toList

/-! ## Faults -/

/-- The bytes of a number in the pattern of two, three or four bytes, whether or not it is the
number of a character that takes as many. -/
def patternBytes (length n : Nat) : List UInt8 :=
  let tail (m : Nat) : UInt8 := UInt8.ofNat (0x80 + m % 0x40)
  match length with
  | 2 => [UInt8.ofNat (0xc0 + n / 0x40), tail n]
  | 3 => [UInt8.ofNat (0xe0 + n / 0x1000), tail (n / 0x40), tail n]
  | 4 => [UInt8.ofNat (0xf0 + n / 0x40000), tail (n / 0x1000), tail (n / 0x40), tail n]
  | _ => [UInt8.ofNat n]

/-- Bytes that stand for no character, in front of others: the longer form of a number, the number
of a surrogate, a number beyond the last character, and a character that breaks off. -/
inductive IsMalformed (after : List UInt8) : List UInt8 → Prop
  | overlong {length least n : Nat}
      (hleast : (length, least) ∈ [(2, 0x80), (3, 0x800), (4, 0x10000)]) (hn : n < least) :
      IsMalformed after (patternBytes length n)
  | surrogate {n : Nat} (hn : 0xd800 ≤ n ∧ n ≤ 0xdfff) : IsMalformed after (patternBytes 3 n)
  | beyond {n : Nat} (hn : 0x10ffff < n ∧ n < 0x200000) : IsMalformed after (patternBytes 4 n)
  | truncated {c : Char} {start missing : List UInt8} (hchar : encodeChar c = start ++ missing)
      (hstart : start ≠ [])
      (hmissing : missing ≠ []) (hafter : ∀ b ∈ after.head?,
        isContinuation b = false) : IsMalformed after start

theorem toNat_lead {m : Nat} (h : m < 0x100) : (UInt8.ofNat m).toNat = m :=
  UInt8.toNat_ofNat_of_lt' (by simpa only [UInt8.size] using h)

theorem not_wellFormed_of_second (hb : 0x80 ≤ b.toNat) (h : secondFits b x = false) :
    ¬ WellFormed (b :: x :: bs) := by
  intro hwell
  obtain ⟨ts, rest, hbytes, htaken, -⟩ := wellFormed_cons_iff.mp hwell
  cases ts with
  | nil =>
      have hone := htaken.1
      rw [sequenceLength?_eq_some_iff, List.length_nil] at hone
      omega
  | cons y ts =>
      obtain ⟨rfl, -⟩ := List.cons.inj hbytes
      rw [htaken.second] at h
      cases h

theorem not_wellFormed_of_start (h : sequenceLength? b = none) : ¬ WellFormed (b :: bs) := by
  intro hwell
  obtain ⟨ts, rest, -, htaken, -⟩ := wellFormed_cons_iff.mp hwell
  rw [htaken.1] at h
  cases h

theorem sequenceLength?_eq_none_iff :
    sequenceLength? b = none ↔ (0x80 ≤ b.toNat ∧ b.toNat < 0xc2) ∨ 0xf5 ≤ b.toNat := by
  unfold sequenceLength?
  dsimp only
  split_ifs <;> simp only [true_iff, false_iff] <;> omega

theorem secondFits_eq_false
    (h : (b.toNat = 0xe0 ∧ x.toNat < 0xa0) ∨ (b.toNat = 0xed ∧ 0xa0 ≤ x.toNat) ∨
    (b.toNat = 0xf0 ∧ x.toNat < 0x90) ∨ (b.toNat = 0xf4 ∧ 0x90 ≤ x.toNat)) :
    secondFits b x = false := by
  rw [Bool.eq_false_iff, ne_eq, secondFits_iff]
  rintro ⟨-, hranges⟩
  omega

theorem not_wellFormed_overlong {length least n : Nat}
    (hleast : (length, least) ∈ [(2, 0x80), (3, 0x800), (4, 0x10000)]) (hn : n < least) :
    ¬ WellFormed (patternBytes length n ++ after) := by
  simp only [List.mem_cons, Prod.mk.injEq, List.not_mem_nil, or_false] at hleast
  rcases hleast with ⟨rfl, rfl⟩ | ⟨rfl, rfl⟩ | ⟨rfl, rfl⟩
  · apply not_wellFormed_of_start
    rw [sequenceLength?_eq_none_iff, toNat_lead (by omega)]
    omega
  · have hlead : (UInt8.ofNat (0xe0 + n / 0x1000)).toNat = 0xe0 := by
      rw [toNat_lead (by omega)]
      omega
    apply not_wellFormed_of_second (by omega)
    apply secondFits_eq_false
    rw [hlead, toNat_tail]
    omega
  · have hlead : (UInt8.ofNat (0xf0 + n / 0x40000)).toNat = 0xf0 := by
      rw [toNat_lead (by omega)]
      omega
    apply not_wellFormed_of_second (by omega)
    apply secondFits_eq_false
    rw [hlead, toNat_tail]
    omega

theorem not_wellFormed_surrogate {n : Nat} (hn : 0xd800 ≤ n ∧ n ≤ 0xdfff) :
    ¬ WellFormed (patternBytes 3 n ++ after) := by
  have hlead : (UInt8.ofNat (0xe0 + n / 0x1000)).toNat = 0xed := by
    rw [toNat_lead (by omega)]
    omega
  apply not_wellFormed_of_second (by omega)
  apply secondFits_eq_false
  rw [hlead, toNat_tail]
  omega

theorem not_wellFormed_beyond {n : Nat} (hn : 0x10ffff < n ∧ n < 0x200000) :
    ¬ WellFormed (patternBytes 4 n ++ after) := by
  have hlead : (UInt8.ofNat (0xf0 + n / 0x40000)).toNat = 0xf0 + n / 0x40000 :=
    toNat_lead (by omega)
  by_cases hlast : n / 0x40000 = 4
  · apply not_wellFormed_of_second (by omega)
    apply secondFits_eq_false
    rw [hlead, toNat_tail]
    omega
  · apply not_wellFormed_of_start
    rw [sequenceLength?_eq_none_iff, hlead]
    omega

theorem not_wellFormed_truncated {c : Char} {start missing : List UInt8}
    (hchar : encodeChar c = start ++ missing) (hstart : start ≠ []) (hmissing : missing ≠ [])
    (hafter : ∀ b ∈ after.head?, isContinuation b = false) :
    ¬ WellFormed (start ++ after) := by
  obtain ⟨b, ts, hencode, hsequence⟩ := isSequence_encodeChar c
  obtain ⟨b', begun, rfl⟩ := List.exists_cons_of_ne_nil hstart
  rw [hencode, List.cons_append] at hchar
  obtain ⟨rfl, rfl⟩ := List.cons.inj hchar
  rw [List.cons_append]
  intro hwell
  obtain ⟨ts, rest, hbytes, htaken, -⟩ := wellFormed_cons_iff.mp hwell
  have hlength : (begun ++ missing).length = ts.length := by
    have hsame := Option.some.inj (hsequence.length.symm.trans htaken.1)
    omega
  have hlonger : begun.length < ts.length := by
    rw [← hlength, List.length_append]
    have hpos := List.length_pos_of_ne_nil hmissing
    omega
  -- The byte after those that are there would have to continue the character.
  have hnext : after.head? = some (ts.get ⟨begun.length, hlonger⟩) := by
    have hget := congrArg (·[begun.length]?) hbytes
    rw [List.getElem?_append_right (Nat.le_refl _), Nat.sub_self, List.getElem?_append_left hlonger,
      List.getElem?_eq_getElem hlonger] at hget
    rw [List.head?_eq_getElem?]
    exact hget
  have hcontinues := isContinuation_iff.mpr (htaken.tails _ (ts.get_mem ⟨begun.length, hlonger⟩))
  rw [hafter _ hnext] at hcontinues
  cases hcontinues

/-- Malformed bytes after well-formed ones spoil the whole. -/
theorem WellFormed.not_append_malformed (h : WellFormed before) (hwrong : IsMalformed after wrong) :
    ¬ WellFormed (before ++ (wrong ++ after)) := by
  rw [h.append_iff]
  cases hwrong with
  | overlong hleast hn => exact not_wellFormed_overlong hleast hn
  | surrogate hn => exact not_wellFormed_surrogate hn
  | beyond hn => exact not_wellFormed_beyond hn
  | truncated hchar hstart hmissing hafter =>
      exact not_wellFormed_truncated hchar hstart hmissing hafter

/-! ## All encodings -/

theorem toNat_ofNat_byte (b : UInt8) : (Char.ofNat b.toNat).toNat = b.toNat := by
  have hvalid : b.toNat.isValidChar := by
    have hlt := b.toNat_lt
    exact .inl (by omega)
  rw [Char.ofNat, dif_pos hvalid]
  rfl

theorem encodeBelow_eq_some_iff {bound : Nat} (hbound : bound ≤ 0x100) {cs : List Char} :
    encodeBelow bound cs = some bs ↔
      (∀ b ∈ bs, b.toNat < bound) ∧ cs = bs.map fun (b : UInt8) => Char.ofNat b.toNat := by
  unfold encodeBelow
  constructor
  · intro h
    split at h
    · rename_i hall
      obtain rfl := Option.some.inj h
      have hlt : ∀ c ∈ cs, c.toNat < bound :=
        fun c hc => of_decide_eq_true (List.all_eq_true.mp hall c hc)
      have hbyte : ∀ c ∈ cs, (UInt8.ofNat c.toNat).toNat = c.toNat := by
        intro c hc
        have hc := hlt c hc
        exact toNat_lead (by omega)
      constructor
      · intro b hb
        obtain ⟨c, hc, rfl⟩ := List.mem_map.mp hb
        rw [hbyte c hc]
        exact hlt c hc
      · rw [List.map_map]
        conv_lhs => rw [← List.map_id cs]
        apply List.map_congr_left
        intro c hc
        rw [Function.comp_apply, hbyte c hc, Char.ofNat_toNat]
        rfl
    · cases h
  · rintro ⟨hall, rfl⟩
    rw [if_pos, List.map_map]
    · congr 1
      conv_rhs => rw [← List.map_id bs]
      apply List.map_congr_left
      intro b _
      rw [Function.comp_apply, toNat_ofNat_byte, UInt8.ofNat_toNat]
      rfl
    · rw [List.all_map, List.all_eq_true]
      intro b hb
      rw [Function.comp_apply, toNat_ofNat_byte]
      exact decide_eq_true (hall b hb)

theorem decodeAscii_eq_ok_iff {position : Nat} {cs : List Char} : decodeAscii position bs = .ok cs ↔
    (∀ b ∈ bs, b.toNat < 0x80) ∧ cs = bs.map fun (b : UInt8) => Char.ofNat b.toNat := by
  induction bs generalizing position cs with
  | nil => simp [decodeAscii, eq_comm]
  | cons b bs ih =>
      rw [decodeAscii]
      split
      · rename_i hb
        simp only [map_eq_ok_iff, ih, List.forall_mem_cons, List.map_cons]
        constructor
        · rintro ⟨cs, ⟨hall, rfl⟩, rfl⟩
          exact ⟨⟨hb, hall⟩, rfl⟩
        · rintro ⟨⟨-, hall⟩, rfl⟩
          exact ⟨_, ⟨hall, rfl⟩, rfl⟩
      · rename_i hb
        constructor
        · intro h
          cases h
        · rintro ⟨hall, -⟩
          exact absurd (hall b List.mem_cons_self) hb

theorem decode_eq_ok_iff_encode? {e : Encoding} {t : String} : decode e bs = .ok t ↔
    encode? e t = some bs := by
  cases e with
  | utf8 =>
      rw [decode_eq_ok_iff, encode?, Option.some.injEq]
      exact eq_comm
  | latin1 =>
      rw [encode?, encodeBelow_eq_some_iff (Nat.le_refl _), and_iff_right fun b _ => b.toNat_lt,
        decode, map_eq_ok_iff]
      constructor
      · rintro ⟨cs, hcs, rfl⟩
        rw [String.toList_ofList, Except.ok.inj hcs]
      · intro h
        exact ⟨_, rfl, by rw [← h, String.ofList_toList]⟩
  | ascii =>
      rw [encode?, encodeBelow_eq_some_iff (by omega), ← @decodeAscii_eq_ok_iff bs 0, decode,
        map_eq_ok_iff]
      constructor
      · rintro ⟨cs, hcs, rfl⟩
        rw [String.toList_ofList]
        exact hcs
      · exact fun h => ⟨_, h, String.ofList_toList⟩

end ImportAudit.Text
