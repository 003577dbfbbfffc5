import ImportAudit.Proofs.Console.Lines
import ImportAudit.Proofs.Console.Markup
import ImportAudit.Proofs.Console.Pictures

/-!
# Messages as they are written

A message that fits a line is printed as it is written in plain text. With icons no tag in it
is taken for one, but three things in it are changed: a single backslash at its end is
doubled, a backslash before a bracket that opens no tag is left out, and the name of a picture
between colons gives the picture.
-/

namespace ImportAudit.Console

open MarkupScan

variable {cs m u v w : List Char} {c : Char}

/-! ## Printable characters -/

/-- Whether a text is one line of printable characters, with no blanks around it. -/
structure IsLine (cs : List Char) : Prop where
  printable : ∀ c ∈ cs, Text.isPrintable c = true
  bare : Text.FreeEnds Text.isBlank cs

theorem isPrintable_eq (c : Char) :
    Text.isPrintable c =
      (Nat.ble 0x20 c.toNat && !Text.inAnyRange Text.unprintableRanges.toList c.toNat) := by
  simp only [Text.isPrintable, Text.inRanges_eq, ← Nat.ble_eq, Bool.decide_eq_true]

theorem isLine_iff : IsLine cs ↔
    (cs.all fun c => Nat.ble 0x20 c.toNat &&
      !Text.inAnyRange Text.unprintableRanges.toList c.toNat) = true ∧
      cs.head?.any Text.isBlank = false ∧ cs.getLast?.any Text.isBlank = false := by
  have hfree (o : Option Char) : (∀ c ∈ o, Text.isBlank c = false) ↔
      o.any Text.isBlank = false := by
    cases o <;> simp
  simp only [← isPrintable_eq, List.all_eq_true, ← hfree]
  exact ⟨fun h => ⟨h.printable, h.bare⟩, fun h => ⟨h.1, h.2⟩⟩

instance (cs : List Char) : Decidable (IsLine cs) :=
  decidable_of_iff _ isLine_iff.symm

theorem eq_space_of_isPrintable (h : Text.isPrintable c = true)
    (hblank : Text.isBlank c = true) : c = ' ' := by
  have hcodes : (Text.blankCodes.all fun n =>
      !(Nat.ble 0x20 n && !Text.inAnyRange Text.unprintableRanges.toList n) ||
        Nat.beq n 0x20) = true := by decide +kernel
  have hcode := List.all_eq_true.mp hcodes c.toNat (Text.toNat_mem_blankCodes hblank)
  rw [← isPrintable_eq, h, Bool.not_true, Bool.false_or] at hcode
  exact Char.toNat_inj.mp (Nat.eq_of_beq_eq_true hcode)

theorem isPlain_of_isPrintable (h : ∀ c ∈ cs, Text.isPrintable c = true) : IsPlain cs := by
  refine ⟨fun hjoiner => ?_, fun c hc => eq_space_of_isPrintable (h c hc)⟩
  have hunprintable : Text.isPrintable joiner = false := by
    rw [isPrintable_eq]
    decide +kernel
  exact absurd (h joiner hjoiner) (by simp [hunprintable])

theorem not_isDropped (h : 0x20 ≤ c.toNat) : isDropped c = false := by
  simp only [isDropped, List.contains_eq_mem, List.mem_cons, List.not_mem_nil, or_false,
    decide_eq_false_iff_not]
  omega

theorem le_toNat_of_isPrintable (h : Text.isPrintable c = true) : 0x20 ≤ c.toNat := by
  rw [Text.isPrintable, Bool.and_eq_true] at h
  exact of_decide_eq_true h.1

theorem filter_not_isDropped (h : ∀ c ∈ cs, 0x20 ≤ c.toNat) :
    (cs.filter fun c => !isDropped c) = cs :=
  List.filter_eq_self.mpr fun c hc => by rw [not_isDropped (h c hc)]; rfl

theorem le_toNat_of_not_partsEntries (h : partsEntries c = false) : 0x20 ≤ c.toNat := by
  rw [partsEntries, Bool.or_eq_false_iff] at h
  have hcode := of_decide_eq_false h.1
  omega

theorem shownChars_of_isPrintable (h : ∀ c ∈ cs, Text.isPrintable c = true) :
    shownChars true cs = withPictures cs := by
  refine filter_not_isDropped fun c hc => ?_
  rcases mem_withPictures cs c hc with hc | hc
  · exact le_toNat_of_isPrintable (h c hc)
  · exact le_toNat_of_not_partsEntries hc

/-! ## Brackets -/

theorem mem_of_mem_plainBrackets (cs : List Char) : ∀ d ∈ plainBrackets cs, d ∈ cs := by
  fun_induction plainBrackets cs with
  | case1 cs ih =>
      refine List.forall_mem_cons.mpr ⟨by simp, fun d hd => ?_⟩
      exact List.mem_cons_of_mem _ (List.mem_cons_of_mem _ (ih d hd))
  | case2 c cs _ ih =>
      exact List.forall_mem_cons.mpr ⟨List.mem_cons_self, fun d hd =>
        List.mem_cons_of_mem c (ih d hd)⟩
  | case3 => exact fun d hd => hd

/-- The first backslash before a bracket is where a text is changed. -/
theorem plainBrackets_changed (cs : List Char) (h : ['\\', '['] <:+: cs) :
    ∃ p r s, cs = p ++ '\\' :: s ∧ plainBrackets cs = p ++ '[' :: r := by
  fun_induction plainBrackets cs with
  | case1 cs => exact ⟨[], plainBrackets cs, '[' :: cs, rfl, rfl⟩
  | case2 c cs hother ih =>
      obtain ⟨p, r, s, hcs, hchanged⟩ := ih <| by
        rcases List.infix_cons_iff.mp h with ⟨rest, hrest⟩ | h
        · obtain ⟨rfl, rfl⟩ := List.cons.inj hrest
          exact absurd rfl (hother rest rfl)
        · exact h
      exact ⟨c :: p, r, s, by rw [hcs]; rfl, by rw [hchanged]; rfl⟩
  | case3 => simp at h

theorem plainBrackets_eq_self_iff (cs : List Char) : plainBrackets cs = cs ↔
    ¬['\\', '['] <:+: cs := by
  constructor
  · intro hsame h
    obtain ⟨p, r, s, hcs, hchanged⟩ := plainBrackets_changed cs h
    have hbracket := List.append_cancel_left ((hchanged.symm.trans hsame).trans hcs)
    exact absurd (List.cons.inj hbracket).1 (by decide)
  · intro h
    fun_induction plainBrackets cs with
    | case1 cs => exact absurd (List.prefix_append ['\\', '['] cs).isInfix h
    | case2 c cs _ ih => rw [ih fun hcs => h (hcs.trans (List.suffix_cons c cs).isInfix)]
    | case3 => rfl

theorem plainBrackets_concat (cs : List Char) :
    plainBrackets (cs ++ ['\\']) = plainBrackets cs ++ ['\\'] := by
  fun_induction plainBrackets cs with
  | case1 cs ih => simp only [List.cons_append, plainBrackets, ih]
  | case2 c cs hother ih =>
      rw [List.cons_append, plainBrackets, ih]
      · rfl
      · intro rest hc hrest
        cases cs with
        | nil => simp at hrest
        | cons d cs =>
            obtain ⟨rfl, -⟩ := List.cons.inj hrest
            exact hother cs hc rfl
  | case3 => rfl

theorem plainBrackets_space (cs : List Char) :
    plainBrackets (' ' :: cs) = ' ' :: plainBrackets cs := by
  rw [plainBrackets]
  intro rest h
  exact absurd h (by decide)

/-! ## Texts that go apart -/

theorem cut_cases {x y x' y' : List Char} {a b : Char} (h : x ++ a :: y = x' ++ b :: y') :
    (x = x' ∧ a = b ∧ y = y') ∨ (∃ z, x' = x ++ a :: z ∧ y = z ++ b :: y') ∨ ∃ z, x = x' ++ b :: z ∧
      y' = z ++ a :: y := by
  rcases List.append_eq_append_iff.mp h with ⟨z, rfl, hz⟩ | ⟨z, rfl, hz⟩
  all_goals
    cases z with
    | nil => simp_all
    | cons c z =>
        obtain ⟨rfl, rfl⟩ := List.cons.inj hz
        simp

/-- Whether two texts go apart: after the same characters each goes on with a
character of its own. -/
def Diverge (u v : List Char) : Prop :=
  ∃ p a b r s, u = p ++ a :: r ∧ v = p ++ b :: s ∧ a ≠ b

namespace Diverge

theorem append_left (h : Diverge u v) (w : List Char) : Diverge (w ++ u) (w ++ v) := by
  obtain ⟨p, a, b, r, s, rfl, rfl, hab⟩ := h
  exact ⟨w ++ p, a, b, r, s, by simp, by simp, hab⟩

theorem append (h : Diverge u v) (x y : List Char) : Diverge (u ++ x) (v ++ y) := by
  obtain ⟨p, a, b, r, s, rfl, rfl, hab⟩ := h
  exact ⟨p, a, b, r ++ x, s ++ y, by simp, by simp, hab⟩

theorem not_isPrefix (h : Diverge u v) : ¬v <+: u := by
  obtain ⟨p, a, b, r, s, rfl, rfl, hab⟩ := h
  rintro ⟨rest, hrest⟩
  rw [List.append_assoc] at hrest
  exact hab (List.cons.inj (List.append_cancel_left hrest)).1.symm

theorem of_change {p q r s r' s' : List Char} {a b d e : Char} (hab : a ≠ b)
    (hde : e ≠ d) (had : a ≠ d) (h : p ++ a :: r = q ++ d :: s') :
    Diverge (q ++ e :: r') (p ++ b :: s) := by
  rcases cut_cases h with ⟨-, heq, -⟩ | ⟨z, rfl, -⟩ | ⟨z, rfl, -⟩
  · exact absurd heq had
  · exact ⟨p, a, b, z ++ e :: r', s, by simp, rfl, hab⟩
  · exact ⟨q, e, d, r', z ++ b :: s, rfl, by simp, hde⟩

end Diverge

/-! ## Parts of a message -/

namespace MarkupToken

def written : MarkupToken → List Char
  | chars cs => cs
  | bracket n tag => List.replicate n '\\' ++ '[' :: tag ++ [']']

def text : MarkupToken → List Char
  | chars cs => cs
  | bracket _ tag => '[' :: tag ++ [']']

/-- What is shown for a part of a text that is shown as it stands. -/
def shown : MarkupToken → List Char
  | chars cs => shownChars true (plainBrackets cs)
  | bracket n tag => List.replicate (n / 2) '\\' ++ shownChars true ('[' :: tag ++ [']'])

def inert : MarkupToken → MarkupToken
  | chars cs => chars cs
  | bracket n tag => bracket (2 * n + 1) tag

/-- Whether nothing is changed in a part of a message. -/
def IsKept : MarkupToken → Prop
  | chars cs => ¬['\\', '['] <:+: cs ∧ ¬CallsPicture cs
  | bracket _ tag => ¬CallsPicture ('[' :: tag ++ [']'])

end MarkupToken

theorem flatMap_written (m : List Char) : (markupTokens m).flatMap MarkupToken.written = m := by
  induction m using tag_induction with
  | plain u hu => exact flatMap_of_no_tag _ rfl hu
  | tagged u t rest hu ht ih =>
      have hstem := stem_append_slashes u
      rw [flatMap_of_first_tag _ rfl hu ht, ih]
      calc stem u ++ (List.replicate (ofText u).slashes '\\' ++ '[' :: t ++ [']'] ++ rest)
          = (stem u ++ List.replicate (ofText u).slashes '\\') ++ '[' :: (t ++ ']' :: rest) := by
            simp
        _ = u ++ '[' :: (t ++ ']' :: rest) := by rw [hstem]

/-! ## Escaped messages -/

theorem shown_chars_concat (cs : List Char) :
    (MarkupToken.chars (cs ++ ['\\'])).shown = (MarkupToken.chars cs).shown ++ ['\\'] := by
  have hslash (u : List Char) : withPictures (u ++ ['\\']) = withPictures u ++ ['\\'] :=
    putPictures_concat (by decide) (by decide) none u
  simp only [MarkupToken.shown, shownChars, if_true, plainBrackets_concat, hslash,
    List.filter_append]
  rfl

theorem shown_chars_spaces (hw : ∀ c ∈ w, c = ' ') (cs : List Char) :
    (MarkupToken.chars (w ++ cs)).shown = w ++ (MarkupToken.chars cs).shown := by
  induction w with
  | nil => rfl
  | cons c w ih =>
      obtain ⟨rfl, hspaces⟩ := List.forall_mem_cons.mp hw
      have hspace (u : List Char) : withPictures (' ' :: u) = ' ' :: withPictures u :=
        putPictures_char (by decide) u
      have hkept : (!isDropped ' ') = true := by decide
      rw [List.cons_append, List.cons_append, ← ih hspaces]
      simp only [MarkupToken.shown, shownChars, if_true, plainBrackets_space, hspace]
      exact List.filter_cons_of_pos hkept

/-- What is shown for an escaped text is what is shown for its escaped parts. -/
theorem flatMap_shown_withoutTags (m : List Char) (hw : ∀ c ∈ w, c = ' ') {q : List Char}
    (hq : q = [] ∨ q = ['\\']) :
    (markupTokens (w ++ (withoutTags m ++ q))).flatMap MarkupToken.shown =
      w ++ ((markupTokens m).flatMap (fun t => t.inert.shown) ++ q) := by
  have hfree : '[' ∉ w ∧ '\\' ∉ w :=
    ⟨fun h => absurd (hw _ h) (by decide), fun h => absurd (hw _ h) (by decide)⟩
  induction m using tag_induction generalizing w with
  | plain u hu =>
      have hno : ¬HasTag (w ++ (u ++ q)) := by
        refine fun h => hu (hasTag_of_append_right ?_ (hasTag_of_append_left hfree.1 h))
        rcases hq with rfl | rfl <;> decide
      rw [withoutTags_of_no_tag hu, flatMap_of_no_tag _ rfl hno, flatMap_of_no_tag _ rfl hu,
        shown_chars_spaces hw]
      rcases hq with rfl | rfl
      · rw [List.append_nil, List.append_nil]
        rfl
      · rw [shown_chars_concat]
        rfl
  | tagged u t rest hu ht ih =>
      -- The spaces belong to the part before the tag; none stand before the rest.
      have hrest :=
        ih (w := []) (fun c hc => absurd hc List.not_mem_nil) ⟨List.not_mem_nil, List.not_mem_nil⟩
      rw [List.nil_append, List.nil_append] at hrest
      rw [withoutTags_of_first_tag hu ht]
      simp only [List.append_assoc, List.cons_append]
      rw [markupTokens_of_escaped_tag hfree hu ht, List.flatMap_append, flatMap_chars _ rfl,
        List.flatMap_cons, hrest, flatMap_of_first_tag _ rfl hu ht, shown_chars_spaces hw]
      simp only [List.append_assoc]
      rfl

theorem run_inert {ts : List MarkupToken} (hts : ∀ t ∈ ts, t.IsInert) (s : MarkupState)
    (position : Nat) :
    MarkupState.run true s position ts =
      .ok { s with shown := s.shown ++ ts.flatMap MarkupToken.shown } := by
  induction ts generalizing s position with
  | nil => rw [MarkupState.run, List.flatMap_nil, List.append_nil]
  | cons t ts ih =>
      obtain ⟨ht, hrest⟩ := List.forall_mem_cons.mp hts
      rw [List.flatMap_cons, ← List.append_assoc]
      cases t with
      | chars cs =>
          rw [MarkupState.run, ih hrest]
          rfl
      | bracket n tag =>
          have hodd : n % 2 = 1 := ht
          rw [MarkupState.run]
          dsimp only
          rw [if_pos hodd, ih hrest, MarkupToken.shown, List.append_assoc s.shown]

def messageShown (m : List Char) : List Char :=
  (markupTokens m).flatMap (fun t => t.inert.shown) ++ if EndsInSlash m then ['\\'] else []

theorem rendered_notice (n : Notice) (message : String) :
    rendered true (n.icon ++ escape message) =
      .ok ((n.sign ++ " ").toList ++ messageShown message.toList) := by
  have hspace : '[' ∉ [' '] ∧ '\\' ∉ [' '] := by decide
  have hinert : ∀ t ∈ markupTokens ([' '] ++ (escape message).toList), t.IsInert := by
    obtain ⟨ts, u, hts, hu, htokens⟩ := exists_tokens_escape message hspace
    have hwhole := htokens []
    rw [List.append_nil, List.append_nil, markupTokens_of_no_tag hu] at hwhole
    rw [hwhole]
    exact List.forall_mem_append.mpr ⟨hts, isInert_chars u⟩
  have hsign : shownChars true (plainBrackets n.sign.toList) = n.sign.toList := by
    cases n <;> rfl
  have hshown : (markupTokens ([' '] ++ (escape message).toList)).flatMap MarkupToken.shown =
      [' '] ++ messageShown message.toList := by
    rw [toList_escape, flatMap_shown_withoutTags message.toList (by simp) (by split <;> simp)]
    rfl
  obtain ⟨name, hname, hicon⟩ := markupTokens_icon n
  rw [rendered, String.toList_append, hicon, MarkupState.run]
  dsimp only
  rw [if_neg (by decide), MarkupState.tag_opening hname]
  dsimp only
  rw [MarkupState.run, MarkupState.run]
  dsimp only
  rw [if_neg (by decide), MarkupState.tag_closing hname rfl]
  dsimp only
  rw [run_inert hinert, hshown, hsign]
  simp [Except.map]

/-! ## What is changed -/

theorem shown_chars_of_isKept (hprintable : ∀ c ∈ cs, Text.isPrintable c = true)
    (h : (MarkupToken.chars cs).IsKept) :
    (MarkupToken.chars cs).shown = cs := by
  rw [MarkupToken.shown, (plainBrackets_eq_self_iff cs).mpr h.1,
    shownChars_of_isPrintable hprintable, withPictures_eq_self cs h.2]

theorem diverge_of_callsPicture (h : CallsPicture cs) : Diverge (withPictures cs) cs := by
  obtain ⟨p, d, r, s, hcs, hchanged, hd⟩ := h.changed
  exact ⟨p, d, ':', r, s, hchanged, hcs, hd⟩

theorem diverge_chars (hprintable : ∀ c ∈ cs, Text.isPrintable c = true)
    (h : ¬(MarkupToken.chars cs).IsKept) :
    Diverge (MarkupToken.chars cs).shown cs := by
  rw [MarkupToken.shown, shownChars_of_isPrintable fun c hc =>
    hprintable c (mem_of_mem_plainBrackets cs c hc)]
  by_cases hslashed : ['\\', '['] <:+: cs
  · obtain ⟨p, r, s, hcs, hplain⟩ := plainBrackets_changed cs hslashed
    by_cases hpicture : CallsPicture (plainBrackets cs)
    · obtain ⟨q, e, r', s', hq, hchanged, he⟩ := hpicture.changed
      rw [hchanged, hcs]
      exact .of_change (by decide) he (by decide) (hplain.symm.trans hq)
    · rw [withPictures_eq_self _ hpicture]
      exact ⟨p, '[', '\\', r, s, hplain, hcs, by decide⟩
  · rw [(plainBrackets_eq_self_iff cs).mpr hslashed]
    exact diverge_of_callsPicture (Classical.byContradiction fun hpicture => h ⟨hslashed, hpicture⟩)

section Parts

variable {t : MarkupToken}

theorem shown_inert_bracket (n : Nat) (tag : List Char) : (MarkupToken.bracket n tag).inert.shown =
    List.replicate n '\\' ++ shownChars true ('[' :: tag ++ [']']) := by
  have hhalf : (2 * n + 1) / 2 = n := by omega
  rw [MarkupToken.inert, MarkupToken.shown, hhalf]

theorem shown_inert_of_isKept (hprintable : ∀ c ∈ t.written, Text.isPrintable c = true)
    (h : t.IsKept) :
    t.inert.shown = t.written := by
  cases t with
  | chars cs => exact shown_chars_of_isKept hprintable h
  | bracket n tag =>
      rw [MarkupToken.written, List.append_assoc] at hprintable ⊢
      have htag := (List.forall_mem_append.mp hprintable).2
      rw [shown_inert_bracket, shownChars_of_isPrintable htag, withPictures_eq_self _ h]

theorem diverge_shown_inert (hprintable : ∀ c ∈ t.written, Text.isPrintable c = true)
    (h : ¬t.IsKept) :
    Diverge t.inert.shown t.written := by
  cases t with
  | chars cs => exact diverge_chars hprintable h
  | bracket n tag =>
      rw [MarkupToken.written, List.append_assoc] at hprintable ⊢
      have htag := (List.forall_mem_append.mp hprintable).2
      rw [shown_inert_bracket, shownChars_of_isPrintable htag]
      exact (diverge_of_callsPicture (Classical.not_not.mp h)).append_left _

/-- All parts are shown as they are written, or the first one that is not goes
apart from what is written. -/
theorem shown_or_diverge (ts : List MarkupToken)
    (hprintable : ∀ c ∈ ts.flatMap MarkupToken.written, Text.isPrintable c = true) :
    ((∀ t ∈ ts, t.IsKept) ∧ ts.flatMap (fun t => t.inert.shown) = ts.flatMap MarkupToken.written) ∨
      ((¬∀ t ∈ ts, t.IsKept) ∧
        Diverge (ts.flatMap fun t => t.inert.shown) (ts.flatMap MarkupToken.written)) := by
  induction ts with
  | nil => exact .inl ⟨fun t ht => absurd ht List.not_mem_nil, rfl⟩
  | cons t ts ih =>
      rw [List.flatMap_cons, List.forall_mem_append] at hprintable
      rw [List.flatMap_cons, List.flatMap_cons]
      by_cases ht : t.IsKept
      · rw [shown_inert_of_isKept hprintable.1 ht]
        rcases ih hprintable.2 with ⟨hts, hsame⟩ | ⟨hts, hdiverge⟩
        · exact .inl ⟨List.forall_mem_cons.mpr ⟨ht, hts⟩, by rw [hsame]⟩
        · exact .inr ⟨fun h => hts (List.forall_mem_cons.mp h).2, hdiverge.append_left _⟩
      · exact .inr ⟨fun h => ht (List.forall_mem_cons.mp h).1,
          (diverge_shown_inert hprintable.1 ht).append _ _⟩

theorem mem_shownChars {d : Char} (hd : d ∈ shownChars true cs) : d ∈ cs ∨ partsEntries d = false :=
  mem_withPictures cs d (List.mem_filter.mp hd).1

theorem mem_shown_inert {d : Char} (hd : d ∈ t.inert.shown) :
    d ∈ t.written ∨ partsEntries d = false := by
  cases t with
  | chars cs => exact (mem_shownChars hd).imp_left (mem_of_mem_plainBrackets cs d)
  | bracket n tag =>
      rw [shown_inert_bracket] at hd
      rw [MarkupToken.written, List.append_assoc]
      rcases List.mem_append.mp hd with hd | hd
      · exact .inl (List.mem_append_left _ hd)
      · exact (mem_shownChars hd).imp_left (List.mem_append_right _)

end Parts

theorem not_mem_messageShown {d : Char} (hd : d ∉ m) (hslash : d ≠ '\\')
    (hparts : partsEntries d = true) :
    d ∉ messageShown m := by
  intro hmem
  rcases List.mem_append.mp hmem with hmem | hmem
  · obtain ⟨t, ht, hshown⟩ := List.mem_flatMap.mp hmem
    rcases mem_shown_inert hshown with hwritten | hpicture
    · refine hd ?_
      rw [← flatMap_written m]
      exact List.mem_flatMap.mpr ⟨t, ht, hwritten⟩
    · exact absurd hparts (by simp [hpicture])
  · split at hmem
    · exact hslash (List.mem_singleton.mp hmem)
    · exact absurd hmem List.not_mem_nil

/-! ## Backslashes before brackets -/

/-- Whether there is a backslash before a bracket that opens no tag. -/
def HasSlashedBracket (m : List Char) : Prop :=
  ∃ u v, m = u ++ '\\' :: '[' :: v ∧ ¬∃ t rest, v = t ++ ']' :: rest ∧ IsTag t

theorem hasSlashedBracket_of_no_tag (h : ¬HasTag u) : HasSlashedBracket u ↔ ['\\', '['] <:+: u := by
  constructor
  · rintro ⟨a, b, rfl, -⟩
    exact ⟨a, b, by simp⟩
  · rintro ⟨a, b, rfl⟩
    refine ⟨a, b, by simp, ?_⟩
    rintro ⟨t, rest, rfl, ht⟩
    exact h ⟨a ++ ['\\'], t, rest, by simp, ht⟩

theorem slashed_stem (h : ['\\', '['] <:+: u) : ['\\', '['] <:+: stem u := by
  obtain ⟨a, b, hu⟩ := h
  rw [← stem_append_slashes u] at hu
  have hcut : (a ++ ['\\']) ++ '[' :: b = stem u ++ List.replicate (ofText u).slashes '\\' := by
    simpa using hu
  rcases List.append_eq_append_iff.mp hcut with ⟨z, hstem, hz⟩ | ⟨z, -, hz⟩
  · cases z with
    | nil =>
        have hmem : '[' ∈ List.replicate (ofText u).slashes '\\' := by
          rw [List.nil_append] at hz
          rw [← hz]
          exact List.mem_cons_self
        exact absurd (List.eq_of_mem_replicate hmem) (by decide)
    | cons c z =>
        obtain ⟨rfl, -⟩ := List.cons.inj hz
        exact ⟨a, z, by rw [hstem]; simp⟩
  · have hmem : '[' ∈ List.replicate (ofText u).slashes '\\' := by
      rw [hz]
      simp
    exact absurd (List.eq_of_mem_replicate hmem) (by decide)

theorem hasSlashedBracket_of_first_tag {t rest : List Char} (h : ¬HasTag u) (ht : IsTag t) :
    HasSlashedBracket (u ++ '[' :: (t ++ ']' :: rest)) ↔ ['\\', '['] <:+: stem u ∨
      HasSlashedBracket rest := by
  constructor
  · rintro ⟨a, b, heq, hb⟩
    have hcut : u ++ '[' :: (t ++ ']' :: rest) = (a ++ ['\\']) ++ '[' :: b := by simpa using heq
    rcases cut_cases hcut with ⟨-, -, rfl⟩ | ⟨z, ha, hz⟩ | ⟨z, rfl, -⟩
    · exact absurd ⟨t, rest, rfl, ht⟩ hb
    · -- The bracket is not in the tag, so it is in the rest.
      rcases cut_cases hz with ⟨-, hbracket, -⟩ | ⟨y, rfl, rfl⟩ | ⟨y, rfl, -⟩
      · exact absurd hbracket (by decide)
      · have hslash : a ++ ['\\'] = (u ++ '[' :: t) ++ ']' :: y := by simpa using ha
        rcases cut_cases hslash with ⟨-, hbracket, -⟩ | ⟨x, -, hx⟩ | ⟨x, -, rfl⟩
        · exact absurd hbracket (by decide)
        · simp at hx
        · exact .inr ⟨x, b, by simp, hb⟩
      · exact absurd rfl (ht.bare '[' (by simp)).1
    · exact .inl (slashed_stem ⟨a, z, by simp⟩)
  · rintro (⟨a, b, hstem⟩ | ⟨a, b, rfl, hb⟩)
    · have hu := stem_append_slashes u
      rw [← hstem] at hu
      obtain ⟨slashes, rfl⟩ : ∃ slashes, u = a ++ '\\' :: '[' :: (b ++ slashes) :=
        ⟨_, by simpa using hu.symm⟩
      refine ⟨a, (b ++ slashes) ++ '[' :: (t ++ ']' :: rest), by simp, ?_⟩
      rintro ⟨t', rest', heq, ht'⟩
      rcases cut_cases heq with ⟨-, hbracket, -⟩ | ⟨z, rfl, -⟩ | ⟨z, hz, -⟩
      · exact absurd hbracket (by decide)
      · exact absurd rfl (ht'.bare '[' (by simp)).1
      · exact h ⟨a ++ ['\\'], t', z, by rw [hz]; simp, ht'⟩
    · exact ⟨u ++ '[' :: (t ++ ']' :: a), b, by simp, hb⟩

/-- A backslash stands before a bracket that opens no tag if one stands before a
bracket in a part that is no tag. -/
theorem hasSlashedBracket_iff (m : List Char) :
    HasSlashedBracket m ↔ ∃ cs, .chars cs ∈ markupTokens m ∧ ['\\', '['] <:+: cs := by
  have hpart (u : List Char) :
      (∃ cs, .chars cs ∈ (if u.isEmpty then [] else [MarkupToken.chars u]) ∧ ['\\', '['] <:+: cs) ↔
      ['\\', '['] <:+: u := by
    cases u <;> simp
  induction m using tag_induction with
  | plain u hu => rw [hasSlashedBracket_of_no_tag hu, markupTokens_of_no_tag hu, hpart]
  | tagged u t rest hu ht ih =>
      have htokens : ({ ofText u with slashes := 0 } : MarkupScan).tokens =
          if (stem u).isEmpty then [] else [.chars (stem u)] := rfl
      rw [hasSlashedBracket_of_first_tag hu ht, markupTokens_of_first_tag hu ht, htokens,
        or_congr (hpart (stem u)).symm ih]
      simp only [List.mem_append, List.mem_cons, reduceCtorEq, false_or, or_and_right, exists_or]

theorem isKept_iff (m : List Char) : (∀ t ∈ markupTokens m, t.IsKept) ↔
    ¬HasSlashedBracket m ∧ ∀ t ∈ markupTokens m, ¬CallsPicture t.text := by
  rw [hasSlashedBracket_iff]
  constructor
  · intro h
    refine ⟨fun ⟨cs, hcs, hslashed⟩ => (h _ hcs).1 hslashed, fun t ht => ?_⟩
    cases t with
    | chars cs => exact (h _ ht).2
    | bracket n tag => exact h _ ht
  · rintro ⟨hslashed, hpicture⟩ t ht
    cases t with
    | chars cs => exact ⟨fun h => hslashed ⟨cs, ht, h⟩, hpicture _ ht⟩
    | bracket n tag => exact hpicture _ ht

/-! ## Lines -/

variable {width : Nat}

theorem isStart_of_printed (htab : '\t' ∉ u) (hline : '\n' ∉ u) (hv : '\n' ∉ v)
    (h : printed width (wrap width .fold .natural u) = String.ofList (v ++ ['\n'])) :
    IsStart u v ∧ breaksFrom width .fold 0 0 (wordRuns u) = [] := by
  obtain ⟨l, rest, hlines, hstart, hbreaks⟩ := exists_printed width htab hline
  rw [h, String.toList_ofList] at hlines
  rcases cut_cases hlines with ⟨rfl, -, hrest⟩ | ⟨z, rfl, -⟩ | ⟨z, rfl, -⟩
  · exact ⟨hstart, hbreaks.mpr hrest.symm⟩
  · obtain ⟨p, k, hp, heq⟩ := hstart
    have hmem : '\n' ∈ p ++ List.replicate k ' ' := by
      rw [← heq]
      simp
    rcases List.mem_append.mp hmem with hmem | hmem
    · exact absurd (hp.subset hmem) hline
    · exact absurd (List.eq_of_mem_replicate hmem) (by decide)
  · simp at hv

/-- A text is not printed as a line that it goes apart from. -/
theorem printed_ne_of_diverge (htab : '\t' ∉ u) (hline : '\n' ∉ u) (hv : '\n' ∉ v)
    (hlast : ∀ c ∈ v.getLast?, Text.isBlank c = false) (h : Diverge u v) :
    printed width (wrap width .fold .natural u) ≠ String.ofList (v ++ ['\n']) := by
  intro hprinted
  obtain ⟨⟨p, k, hp, rfl⟩, -⟩ := isStart_of_printed htab hline hv hprinted
  cases k with
  | zero =>
      rw [List.replicate_zero, List.append_nil] at h
      exact h.not_isPrefix hp
  | succ k =>
      rw [List.replicate_succ', ← List.append_assoc, List.getLast?_concat] at hlast
      exact absurd (hlast ' ' rfl) (by decide)

/-- A text with one more backslash is not printed as the text, also if the
backslash does not fit. -/
theorem printed_ne_of_slash {a b : Char} (h : IsPlain (a :: ' ' :: b :: u))
    (ha : Text.isBlank a = false) (hb : Text.isBlank b = false)
    (hfits : cells (a :: ' ' :: b :: u) ≤ width) :
    printed width (wrap width .fold .natural (a :: ' ' :: b :: (u ++ ['\\']))) ≠
      String.ofList (a :: ' ' :: b :: u ++ ['\n']) := by
  have hslash : IsPlain ['\\'] := by
    refine ⟨by decide, fun c hc hblank => ?_⟩
    rw [List.mem_singleton.mp hc] at hblank
    cases hblank
  have hplain : IsPlain (a :: ' ' :: b :: (u ++ ['\\'])) := isPlain_append.mpr ⟨h, hslash⟩
  have hglyph : HasGlyph '\\' := by refine ⟨?_, ?_, ?_⟩ <;> decide
  have htab : '\t' ∉ a :: ' ' :: b :: (u ++ ['\\']) :=
    hplain.not_mem_of_blank (by decide) (by decide)
  have hline : '\n' ∉ a :: ' ' :: b :: (u ++ ['\\']) :=
    hplain.not_mem_of_blank (by decide) (by decide)
  intro hprinted
  by_cases hwide : cells (a :: ' ' :: b :: (u ++ ['\\'])) ≤ width
  · have hlast : ∀ c ∈ (a :: ' ' :: b :: u ++ ['\\']).getLast?, Text.isBlank c = false := by
      rw [List.getLast?_concat]
      rintro c ⟨⟩
      decide
    rw [printed_wrap_of_fits hplain hwide (.inl hlast), String.ofList_inj] at hprinted
    simpa using congrArg List.length hprinted
  · have hv : '\n' ∉ a :: ' ' :: b :: u := h.not_mem_of_blank (by decide) (by decide)
    exact breaksFrom_ne_nil hplain ha hb hglyph (by decide) hfits (Nat.lt_of_not_le hwide)
      (isStart_of_printed htab hline hv hprinted).2

theorem isBlank_getLast? (hm : IsLine m) (hne : m ≠ []) (x : List Char) :
    ∀ c ∈ (x ++ m).getLast?, Text.isBlank c = false := by
  have hlast := hm.bare.2
  rw [List.getLast?_append]
  rw [List.getLast?_eq_some_getLast hne] at hlast ⊢
  exact hlast

theorem printed_line {x : List Char} (hx : ∀ c ∈ x, Text.isPrintable c = true)
    (hsize : x.length ≤ cells x) (hm : IsLine m) (hfits : cells (x ++ m) ≤ width) :
    printed width (wrap width .fold .natural (x ++ m)) = String.ofList (x ++ m ++ ['\n']) := by
  refine printed_wrap_of_fits
    (isPlain_of_isPrintable (List.forall_mem_append.mpr ⟨hx, hm.printable⟩)) hfits ?_
  by_cases hne : m = []
  · rw [hne, List.append_nil] at hfits ⊢
    exact .inr (Nat.le_trans hsize hfits)
  · exact .inl (isBlank_getLast? hm hne x)

/-! ## Messages -/

theorem label_spec (n : Notice) :
    (∀ c ∈ n.label.toList, Text.isPrintable c = true) ∧
      n.label.toList.length ≤ cells n.label.toList := by
  have hall : (n.label.toList.all fun c =>
      Nat.ble 0x20 c.toNat && !Text.inAnyRange Text.unprintableRanges.toList c.toNat) = true := by
    cases n <;> decide +kernel
  refine ⟨fun c hc => ?_, by cases n <;> decide⟩
  rw [isPrintable_eq]
  exact List.all_eq_true.mp hall c hc

theorem exists_sign (n : Notice) : ∃ a, (n.sign ++ " ").toList = [a, ' '] ∧ Text.isBlank a = false ∧
    (∀ c ∈ [a, ' '], Text.isPrintable c = true) ∧ cells [a, ' '] = 2 := by
  have hsign : ∃ a, (n.sign ++ " ").toList = [a, ' '] ∧ Text.isBlank a = false ∧
      Text.isPrintable a = true ∧ Text.isPrintable ' ' = true ∧ HasGlyph a ∧ charWidth a = 1 := by
    simp only [isPrintable_eq, HasGlyph, charWidth, Text.inRanges_eq]
    cases n with
    | success => exact ⟨'✓', by decide +kernel⟩
    | warning => exact ⟨'⚠', by decide +kernel⟩
    | error => exact ⟨'✗', by decide +kernel⟩
    | info => exact ⟨'ℹ', by decide +kernel⟩
  obtain ⟨a, hsign, hblank, ha, hspace, hglyph, hwidth⟩ := hsign
  have hone : cells [a] = 1 := (cells_concat List.not_mem_nil hglyph).trans (by rw [hwidth]; rfl)
  have hunjoined : joiner ∉ [a] :=
    fun h => beq_eq_false_iff_ne.mp hglyph.1 (List.mem_singleton.mp h).symm
  refine ⟨a, hsign, hblank, List.forall_mem_cons.mpr ⟨ha, List.forall_mem_singleton.mpr hspace⟩, ?_⟩
  exact (cells_concat hunjoined hasGlyph_space).trans (by rw [hone]; rfl)

theorem cells_after_sign (n : Notice) (m : List Char) :
    cells ((n.sign ++ " ").toList ++ m) = 2 + cells m := by
  obtain ⟨a, hsign, -, hprintable, hcells⟩ := exists_sign n
  have hsplit : cells ([a, ' '] ++ m) = cells [a, ' '] + cells m :=
    cells_append_of_spaced ⟨[a], rfl⟩ (isPlain_of_isPrintable hprintable).unjoined m
  rw [hsign, hsplit, hcells]

theorem notice_plain (width : Nat) (n : Notice) {message : String} (hline : IsLine message.toList)
    (hfits : cells (n.label ++ message).toList ≤ width) :
    notice { rich := false, width := width } n message = .ok (n.label ++ message ++ "\n") := by
  obtain ⟨hlabel, hsize⟩ := label_spec n
  rw [String.toList_append] at hfits
  have hshown :
      shownChars false (n.label ++ message).toList = n.label.toList ++ message.toList := by
    rw [String.toList_append]
    refine filter_not_isDropped fun c hc => le_toNat_of_isPrintable ?_
    exact (List.mem_append.mp hc).elim (hlabel c) (hline.printable c)
  have hprinted := printed_line hlabel hsize hline hfits
  rw [notice, if_neg Bool.false_ne_true, literal, hshown, hprinted]
  simp [String.append_assoc]

theorem notice_rich (width : Nat) (n : Notice) (message : String) :
    notice { rich := true, width := width } n message = .ok (printed width
      (wrap width .fold .natural ((n.sign ++ " ").toList ++ messageShown message.toList))) := by
  rw [notice, if_pos rfl, marked, rendered_notice]
  rfl

theorem printed_message_iff (n : Notice) (hline : IsLine m)
    (hfits : cells ((n.sign ++ " ").toList ++ m) ≤ width) :
    printed width (wrap width .fold .natural ((n.sign ++ " ").toList ++ messageShown m)) =
        String.ofList ((n.sign ++ " ").toList ++ m ++ ['\n']) ↔
      ¬EndsInSlash m ∧ ∀ t ∈ markupTokens m, t.IsKept := by
  obtain ⟨a, hsign, hblank, hstart, hsize⟩ := exists_sign n
  rw [hsign] at hfits ⊢
  have hplain : IsPlain ([a, ' '] ++ m) :=
    isPlain_of_isPrintable (List.forall_mem_append.mpr ⟨hstart, hline.printable⟩)
  have hparts := shown_or_diverge (markupTokens m)
  rw [flatMap_written] at hparts
  rcases hparts hline.printable with ⟨hkept, hsame⟩ | ⟨hkept, hdiverge⟩
  -- All parts are kept, and only a backslash at the end can make a difference.
  · rw [messageShown, hsame]
    split
    next hslash =>
      refine iff_of_false ?_ fun h => h.1 hslash
      cases m with
      | nil => exact absurd hslash (by decide)
      | cons b u => exact printed_ne_of_slash hplain hblank (hline.bare.1 b rfl) hfits
    next hslash =>
      rw [List.append_nil]
      exact iff_of_true (printed_line hstart (Nat.le_of_eq hsize.symm) hline hfits) ⟨hslash, hkept⟩
  -- A part is changed, so that the message is no start of what is shown.
  · refine iff_of_false ?_ fun h => hkept h.2
    have hne : m ≠ [] := by
      rintro rfl
      exact hdiverge.not_isPrefix List.nil_prefix
    have hfree {d : Char} (hd : d ∉ [a, ' '] ++ m) (hslash : d ≠ '\\')
        (hparts : partsEntries d = true) :
        d ∉ [a, ' '] ++ messageShown m := by
      rw [List.mem_append, not_or] at hd ⊢
      exact ⟨hd.1, not_mem_messageShown hd.2 hslash hparts⟩
    have htab : '\t' ∉ [a, ' '] ++ m := hplain.not_mem_of_blank (by decide) (by decide)
    have hnewline : '\n' ∉ [a, ' '] ++ m := hplain.not_mem_of_blank (by decide) (by decide)
    have hapart := (hdiverge.append (if EndsInSlash m then ['\\'] else []) []).append_left [a, ' ']
    rw [List.append_nil] at hapart
    exact printed_ne_of_diverge (hfree htab (by decide) (by decide))
      (hfree hnewline (by decide) (by decide)) hnewline
      (isBlank_getLast? hline hne _) hapart

/-- A message that fits a line is printed as it is written in plain text. With icons no message
fails, and it is printed as it is written unless it ends in a single backslash, has a backslash
before a bracket that opens no tag, or calls a picture. -/
theorem notices_printed_as_written (width : Nat) (n : Notice) (message : String)
    (hline : IsLine message.toList) :
    (cells (n.label ++ message).toList ≤ width →
      notice { rich := false, width := width } n message = .ok (n.label ++ message ++ "\n")) ∧
    (cells (n.sign ++ " " ++ message).toList ≤ width →
      ∃ text, notice { rich := true, width := width } n message = .ok text ∧
        (text = n.sign ++ " " ++ message ++ "\n" ↔
          ¬EndsInSlash message.toList ∧ ¬HasSlashedBracket message.toList ∧
            ∀ part ∈ markupTokens message.toList, ¬CallsPicture part.text)) := by
  refine ⟨notice_plain width n hline, fun hfits => ⟨_, notice_rich width n message, ?_⟩⟩
  have hwritten :
      n.sign ++ " " ++ message ++ "\n" =
        String.ofList ((n.sign ++ " ").toList ++ message.toList ++ ['\n']) := by
    simp [String.append_assoc]
  rw [String.toList_append] at hfits
  rw [hwritten, printed_message_iff n hline hfits, isKept_iff]

theorem notices_printed_with_brackets :
    notice { rich := false } .error "C:\\[red]\\A[0].java" = .ok "ERROR: C:\\[red]\\A[0].java\n" ∧
      notice { rich := true } .error "C:\\[red]\\A[0].java" = .ok "✗ C:\\[red]\\A[0].java\n" ∧
      notice { rich := true } .error "C:\\src\\" ≠ .ok "✗ C:\\src\\\n" := by
  have hparts : markupTokens "C:\\[red]\\A[0].java".toList =
      [.chars "C:".toList, .bracket 1 "red".toList, .chars "\\A[0].java".toList] := by
        decide +kernel
  have hkept : ∀ t ∈ markupTokens "C:\\[red]\\A[0].java".toList, t.IsKept := by
    rw [hparts]
    refine List.forall_mem_cons.mpr
      ⟨⟨?_, ?_⟩, List.forall_mem_cons.mpr ⟨?_, List.forall_mem_singleton.mpr ⟨?_, ?_⟩⟩⟩
    · exact (plainBrackets_eq_self_iff _).mp (by decide)
    · exact fun h => absurd h.two_le_count (by decide)
    · exact fun h => absurd h.two_le_count (by decide)
    · exact (plainBrackets_eq_self_iff _).mp (by decide)
    · exact fun h => absurd h.two_le_count (by decide)
  have hfits (message : String) (h : cells message.toList ≤ 78) :
      cells (Notice.error.sign ++ " " ++ message).toList ≤ 80 := by
    rw [String.toList_append, cells_after_sign]
    omega
  obtain ⟨hplain, hrich⟩ :=
    notices_printed_as_written 80 .error "C:\\[red]\\A[0].java" (by decide +kernel)
  obtain ⟨text, htext, hsame⟩ := hrich (hfits _ (by decide))
  obtain ⟨other, hother, hdiffers⟩ :=
    (notices_printed_as_written 80 .error "C:\\src\\" (by decide +kernel)).2 (hfits _ (by decide))
  refine ⟨hplain (by decide), ?_, fun h => ?_⟩
  · rw [htext, hsame.mpr ⟨by decide, (isKept_iff _).mp hkept⟩]
    rfl
  · rw [hother] at h
    exact (hdiffers.mp (Except.ok.inj h)).1 (by decide)

end ImportAudit.Console
