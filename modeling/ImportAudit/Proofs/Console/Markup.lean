import ImportAudit.Console
import ImportAudit.Proofs.Sequencing

/-!
# Texts in markup

A text that is escaped has no tag in it, whatever stands before and after it. So what a reader is
told about files and failures can always be printed.
-/

namespace ImportAudit.Console

/-! ## Tags -/

structure IsTag (t : List Char) : Prop where
  starts : ∃ c cs, t = c :: cs ∧ startsTag c = true
  bare : ∀ c ∈ t, c ≠ '[' ∧ c ≠ ']'

theorem isTag_iff {t : List Char} :
    IsTag t ↔ t.head?.any startsTag = true ∧ (t.all fun c => c != '[' && c != ']') = true := by
  rw [List.all_eq_true]
  simp only [Bool.and_eq_true, bne_iff_ne]
  constructor
  · rintro ⟨⟨c, cs, rfl, hstarts⟩, hbare⟩
    exact ⟨hstarts, hbare⟩
  · rintro ⟨hstarts, hbare⟩
    cases t with
    | nil => cases hstarts
    | cons c cs => exact ⟨⟨c, cs, rfl, hstarts⟩, hbare⟩

instance (t : List Char) : Decidable (IsTag t) :=
  decidable_of_iff _ isTag_iff.symm

def HasTag (u : List Char) : Prop :=
  ∃ before t after, u = before ++ '[' :: (t ++ ']' :: after) ∧ IsTag t

variable {s : MarkupScan} {t u v rest : List Char} {c : Char}

theorem HasTag.append_right (h : HasTag u) (v : List Char) : HasTag (u ++ v) := by
  obtain ⟨before, t, after, rfl, ht⟩ := h
  exact ⟨before, t, after ++ v, by simp, ht⟩

/-- A tag does not reach into characters among which there is no opening bracket. -/
theorem hasTag_of_append_left (hu : '[' ∉ u) (h : HasTag (u ++ v)) : HasTag v := by
  obtain ⟨before, t, after, heq, ht⟩ := h
  rcases List.append_eq_append_iff.mp heq with ⟨more, rfl, rfl⟩ | ⟨more, rfl, hmore⟩
  · exact ⟨more, t, after, rfl, ht⟩
  · cases more with
    | nil => exact ⟨[], t, after, hmore.symm, ht⟩
    | cons c more =>
        obtain ⟨rfl, -⟩ := List.cons.inj hmore
        simp at hu

/-- A tag does not reach into characters among which there is no closing bracket. -/
theorem hasTag_of_append_right (hv : ']' ∉ v) (h : HasTag (u ++ v)) : HasTag u := by
  obtain ⟨before, t, after, heq, ht⟩ := h
  have heq' : u ++ v = (before ++ '[' :: t) ++ ']' :: after := by simpa using heq
  rcases List.append_eq_append_iff.mp heq' with ⟨more, -, rfl⟩ | ⟨more, rfl, hmore⟩
  · simp at hv
  · cases more with
    | nil =>
        rw [List.nil_append] at hmore
        rw [← hmore] at hv
        simp at hv
    | cons c more =>
        obtain ⟨rfl, -⟩ := List.cons.inj hmore
        exact ⟨before, t, more, by simp, ht⟩

theorem exists_first_tag (h : HasTag u) : ∃ v t rest, u = v ++ '[' :: (t ++ ']' :: rest) ∧
    ¬HasTag v ∧ IsTag t := by
  induction hlength : u.length using Nat.strongRecOn generalizing u with
  | ind n ih =>
      obtain ⟨before, t, after, rfl, ht⟩ := h
      by_cases hbefore : HasTag before
      · obtain ⟨v, t', rest, rfl, hv, ht'⟩ :=
          ih before.length (by simp at hlength; omega) hbefore rfl
        exact ⟨v, t', rest ++ '[' :: (t ++ ']' :: after), by simp, hv, ht'⟩
      · exact ⟨before, t, after, rfl, hbefore, ht⟩

theorem tag_induction {P : List Char → Prop} (plain : ∀ u, ¬HasTag u → P u)
    (tagged : ∀ u t rest, ¬HasTag u → IsTag t → P rest → P (u ++ '[' :: (t ++ ']' :: rest)))
    (m : List Char) : P m := by
  induction hlength : m.length using Nat.strongRecOn generalizing m with
  | ind n ih =>
      by_cases htag : HasTag m
      · obtain ⟨u, t, rest, rfl, hu, ht⟩ := exists_first_tag htag
        have hshorter : rest.length < n := by
          simp only [List.length_append, List.length_cons] at hlength
          omega
        exact tagged u t rest hu ht (ih rest.length hshorter rest rfl)
      · exact plain m htag

theorem ne_bracket_of_startsTag (h : startsTag c = true) : c ≠ '[' ∧ c ≠ ']' := by
  constructor
  all_goals
    rintro rfl
    exact absurd h (by decide)

/-! ## The scan -/

namespace MarkupScan

def ofText (u : List Char) : MarkupScan :=
  { chars := u.reverse.dropWhile (· == '\\'), slashes := (u.reverse.takeWhile (· == '\\')).length }

theorem replicate_slashes (u : List Char) :
    List.replicate (ofText u).slashes '\\' ++ (ofText u).chars = u.reverse := by
  have hslashes : List.replicate (u.reverse.takeWhile (· == '\\')).length '\\' =
      u.reverse.takeWhile (· == '\\') :=
    (List.eq_replicate_iff.mpr
      ⟨rfl, fun c hc => by simpa using List.all_eq_true.mp List.all_takeWhile c hc⟩).symm
  rw [ofText, hslashes]
  exact List.takeWhile_append_dropWhile

theorem text_ofText (u : List Char) (c : Char) : (ofText u).text c = ofText (u ++ [c]) := by
  by_cases hc : c = '\\'
  · simp [text, ofText, hc]
  · have hchars := replicate_slashes u
    rw [text, if_neg (by simpa using hc), List.cons_append, hchars, ofText]
    simp [hc]

theorem foldl_text (u v : List Char) : v.foldl text (ofText u) = ofText (u ++ v) := by
  induction v generalizing u with
  | nil => rw [List.foldl_nil, List.append_nil]
  | cons c v ih => rw [List.foldl_cons, text_ofText, ih, List.append_assoc, List.singleton_append]

theorem tokens_ofText (u : List Char) :
    (ofText u).tokens = if u.isEmpty then [] else [.chars u] := by
  unfold tokens
  dsimp only
  rw [replicate_slashes, List.reverse_reverse]

/-- The text of a scan without the backslashes at its end. -/
def stem (u : List Char) : List Char :=
  (ofText u).chars.reverse

theorem stem_append_slashes (u : List Char) :
    stem u ++ List.replicate (ofText u).slashes '\\' = u := by
  have h := congrArg List.reverse (replicate_slashes u)
  rw [List.reverse_append, List.reverse_replicate, List.reverse_reverse] at h
  exact h

/-- What is scanned since the last tag. -/
inductive HasRead : MarkupScan → List Char → Prop
  | text (u : List Char) : HasRead (ofText u) u
  | opened (u : List Char) : HasRead { ofText u with tag := some [] } (u ++ ['['])
  | inTag (u : List Char) {t : List Char} (ht : IsTag t) :
      HasRead { ofText u with tag := some t.reverse } (u ++ '[' :: t)

theorem HasRead.giveUp (h : HasRead s u) : s.giveUp = ofText u := by
  cases h with
  | text => rfl
  | opened u => exact text_ofText u '['
  | @inTag u t ht =>
      show (t.reverse.reverse).foldl MarkupScan.text ((ofText u).text '[') = _
      rw [List.reverse_reverse, text_ofText, foldl_text, List.append_assoc, List.singleton_append]

theorem hasRead_open (u : List Char) (c : Char) : HasRead ((ofText u).open_ c) (u ++ [c]) := by
  unfold open_
  split
  · rename_i hc
    rw [eq_of_beq hc]
    exact .opened u
  · rw [text_ofText]
    exact .text _

/-- As long as no tag is complete, the scan goes on without a token. -/
theorem HasRead.step (h : HasRead s u) (hno : ¬HasTag (u ++ [c])) :
    ∃ s', HasRead s' (u ++ [c]) ∧ ∀ cs, markupTokensFrom s (c :: cs) = markupTokensFrom s' cs := by
  cases h with
  | text => exact ⟨(ofText u).open_ c, hasRead_open u c, fun _ => rfl⟩
  | opened u =>
      by_cases hstarts : startsTag c = true
      · refine ⟨{ ofText u with tag := some [c].reverse }, ?_,
          fun cs => by simp [markupTokensFrom, hstarts]⟩
        rw [List.append_assoc, List.singleton_append]
        exact .inTag u ⟨⟨c, [], rfl, hstarts⟩, fun d hd =>
          List.mem_singleton.mp hd ▸ ne_bracket_of_startsTag hstarts⟩
      · refine ⟨(ofText (u ++ ['['])).open_ c, hasRead_open _ c, fun cs => ?_⟩
        rw [← (HasRead.opened u).giveUp]
        simp [markupTokensFrom, hstarts]
  | @inTag u t ht =>
      obtain ⟨d, ds, hd⟩ : ∃ d ds, t.reverse = d :: ds := by
        obtain ⟨d, ds, rfl, -⟩ := ht.starts
        exact List.exists_cons_of_ne_nil (by simp)
      have hnext (cs : List Char) :
          markupTokensFrom { ofText u with tag := some t.reverse } (c :: cs) =
          if c == ']' then { ofText u with slashes := 0 }.tokens ++ .bracket (ofText u).slashes t ::
            markupTokensFrom {} cs
          else if c == '[' then markupTokensFrom ((ofText (u ++ '[' :: t)).open_ c) cs
          else markupTokensFrom { ofText u with tag := some (c :: t.reverse) } cs := by
        have ht' : t = (d :: ds).reverse := by rw [← hd, List.reverse_reverse]
        rw [← (HasRead.inTag u ht).giveUp, hd, ht']
        rfl
      by_cases hclose : c = ']'
      · exact absurd ⟨u, t, [], by simp [hclose], ht⟩ hno
      by_cases hopen : c = '['
      · refine ⟨_, hasRead_open _ c, fun cs => ?_⟩
        rw [hnext, if_neg (by simpa using hclose), if_pos (by simpa using hopen)]
      · refine ⟨{ ofText u with tag := some (t ++ [c]).reverse }, ?_, fun cs => ?_⟩
        · rw [List.append_assoc, List.cons_append]
          obtain ⟨d, ds, rfl, hstarts⟩ := ht.starts
          refine .inTag u ⟨⟨d, ds ++ [c], rfl, hstarts⟩, fun e he => ?_⟩
          rcases List.mem_append.mp he with he | he
          · exact ht.bare e he
          · exact List.mem_singleton.mp he ▸ ⟨hopen, hclose⟩
        · rw [hnext, if_neg (by simpa using hclose), if_neg (by simpa using hopen),
            List.reverse_append]
          rfl

theorem HasRead.scan (h : HasRead s u) (hno : ¬HasTag (u ++ v)) :
    ∃ s', HasRead s' (u ++ v) ∧ ∀ cs, markupTokensFrom s (v ++ cs) = markupTokensFrom s' cs := by
  induction v generalizing s u with
  | nil => exact ⟨s, by rwa [List.append_nil], fun _ => rfl⟩
  | cons c v ih =>
      rw [List.append_cons] at hno
      obtain ⟨s', hs', hstep⟩ := h.step fun htag => hno (htag.append_right v)
      obtain ⟨s'', hs'', hscan⟩ := ih hs' hno
      exact ⟨s'', by rwa [List.append_cons], fun cs => (hstep (v ++ cs)).trans (hscan cs)⟩

theorem HasRead.bracket (h : HasRead s u) (cs : List Char) :
    markupTokensFrom s ('[' :: cs) = markupTokensFrom { ofText u with tag := some [] } cs := by
  have hgiveUp := h.giveUp
  cases h with
  | text => rfl
  | opened u =>
      show markupTokensFrom ({ ofText u with tag := some [] }.giveUp.open_ '[') cs = _
      rw [hgiveUp]
      rfl
  | @inTag u t ht =>
      obtain ⟨d, ds, hd⟩ : ∃ d ds, t.reverse = d :: ds := by
        obtain ⟨d, ds, rfl, -⟩ := ht.starts
        exact List.exists_cons_of_ne_nil (by simp)
      rw [hd] at hgiveUp ⊢
      show markupTokensFrom ({ ofText u with tag := some (d :: ds) }.giveUp.open_ '[') cs = _
      rw [hgiveUp]
      rfl

end MarkupScan

open MarkupScan

theorem markupTokensFrom_inTag (s : MarkupScan) (d : Char) (ds : List Char)
    (ht : ∀ c ∈ t, c ≠ '[' ∧ c ≠ ']') :
    markupTokensFrom { s with tag := some (d :: ds) } (t ++ ']' :: rest) =
      { s with slashes := 0 }.tokens ++ .bracket s.slashes ((d :: ds).reverse ++ t) ::
        markupTokens rest := by
  induction t generalizing d ds with
  | nil =>
      rw [List.append_nil]
      rfl
  | cons c t ih =>
      obtain ⟨hopen, hclose⟩ := ht c List.mem_cons_self
      have hstep : markupTokensFrom { s with tag := some (d :: ds) } (c :: t ++ ']' :: rest) =
          markupTokensFrom { s with tag := some (c :: d :: ds) } (t ++ ']' :: rest) := by
        simp [markupTokensFrom, hopen, hclose]
      rw [hstep, ih c (d :: ds) fun e he => ht e (List.mem_cons_of_mem c he)]
      simp

theorem markupTokens_of_no_tag (h : ¬HasTag u) :
    markupTokens u = if u.isEmpty then [] else [.chars u] := by
  obtain ⟨s, hs, hscan⟩ := (HasRead.text []).scan h
  have htokens : markupTokens u = markupTokensFrom s [] := by
    have hu := hscan []
    rwa [List.append_nil] at hu
  rw [htokens, ← tokens_ofText, ← List.nil_append u, ← hs.giveUp]
  rfl

/-- The first tag of a text, with the backslashes before it. -/
theorem markupTokens_of_first_tag (h : ¬HasTag u) (ht : IsTag t) (rest : List Char) :
    markupTokens (u ++ '[' :: (t ++ ']' :: rest)) =
      { ofText u with slashes := 0 }.tokens ++ .bracket (ofText u).slashes t ::
        markupTokens rest := by
  obtain ⟨s, hs, hscan⟩ := (HasRead.text []).scan h
  obtain ⟨d, ds, rfl, hstarts⟩ := ht.starts
  have htag : markupTokensFrom { ofText u with tag := some [] } (d :: (ds ++ ']' :: rest)) =
      markupTokensFrom { ofText u with tag := some [d] } (ds ++ ']' :: rest) := by
    simp [markupTokensFrom, hstarts]
  show markupTokensFrom {} _ = _
  rw [show ({} : MarkupScan) = ofText [] from rfl, hscan, hs.bracket, List.nil_append,
    List.cons_append, htag, markupTokensFrom_inTag (ofText u) d [] fun e he =>
      ht.bare e (List.mem_cons_of_mem d he)]
  rfl

theorem flatMap_chars (f : MarkupToken → List Char) (hf : f (.chars []) = []) (u : List Char) :
    (if u.isEmpty then [] else [MarkupToken.chars u]).flatMap f = f (.chars u) := by
  cases u with
  | nil => exact hf.symm
  | cons c u => exact List.append_nil _

theorem flatMap_of_no_tag (f : MarkupToken → List Char) (hf : f (.chars []) = []) (h : ¬HasTag u) :
    (markupTokens u).flatMap f = f (.chars u) := by
  rw [markupTokens_of_no_tag h, flatMap_chars f hf]

theorem flatMap_of_first_tag (f : MarkupToken → List Char) (hf : f (.chars []) = []) (h : ¬HasTag u)
    (ht : IsTag t) (rest : List Char) : (markupTokens (u ++ '[' :: (t ++ ']' :: rest))).flatMap f =
      f (.chars (stem u)) ++
        (f (.bracket (ofText u).slashes t) ++ (markupTokens rest).flatMap f) := by
  have hchars :
      ({ ofText u with slashes := 0 } : MarkupScan).tokens.flatMap f = f (.chars (stem u)) :=
    flatMap_chars f hf (stem u)
  rw [markupTokens_of_first_tag h ht, List.flatMap_append, hchars, List.flatMap_cons]

/-! ## Escaped texts -/

def MarkupToken.escaped : MarkupToken → List Char
  | chars cs => cs
  | bracket n tag => List.replicate (2 * n + 1) '\\' ++ '[' :: tag ++ [']']

def withoutTags (cs : List Char) : List Char :=
  (markupTokens cs).flatMap MarkupToken.escaped

theorem withoutTags_of_no_tag (h : ¬HasTag u) : withoutTags u = u :=
  flatMap_of_no_tag _ rfl h

theorem withoutTags_of_first_tag (h : ¬HasTag u) (ht : IsTag t) (rest : List Char) :
    withoutTags (u ++ '[' :: (t ++ ']' :: rest)) =
      stem u ++
        (List.replicate (2 * (ofText u).slashes + 1) '\\' ++
          '[' :: (t ++ ']' :: withoutTags rest)) := by
  rw [withoutTags, flatMap_of_first_tag _ rfl h ht]
  simp [MarkupToken.escaped, withoutTags]

def EndsInSlash (cs : List Char) : Prop :=
  cs.getLast? = some '\\' ∧ cs.dropLast.getLast? ≠ some '\\'

instance (cs : List Char) : Decidable (EndsInSlash cs) :=
  inferInstanceAs (Decidable (_ ∧ _))

theorem endsInSlash_iff : EndsInSlash u ↔
    u.reverse.head? = some '\\' ∧ u.reverse.tail.head? ≠ some '\\' := by
  rw [EndsInSlash, ← List.head?_reverse, ← List.head?_reverse, ← List.tail_reverse]

theorem endsInSlash_after_tag (u v : List Char) : EndsInSlash (u ++ ']' :: v) ↔ EndsInSlash v := by
  rw [endsInSlash_iff, endsInSlash_iff, List.reverse_append, List.reverse_cons]
  rcases v.reverse with _ | ⟨a, _ | ⟨b, rest⟩⟩ <;> simp

theorem endsInSlash_withoutTags (cs : List Char) : EndsInSlash (withoutTags cs) ↔
    EndsInSlash cs := by
  induction cs using tag_induction with
  | plain u hu => rw [withoutTags_of_no_tag hu]
  | tagged u t rest hu ht ih =>
      have hescaped :=
        endsInSlash_after_tag
          (stem u ++ (List.replicate (2 * (ofText u).slashes + 1) '\\' ++ '[' :: t))
        (withoutTags rest)
      have hwritten := endsInSlash_after_tag (u ++ '[' :: t) rest
      simp only [List.append_assoc, List.cons_append] at hescaped hwritten
      rw [withoutTags_of_first_tag hu ht, hescaped, ih, hwritten]

/-- What is written for a text: a single backslash at its end is written twice. -/
theorem toList_escape (s : String) :
    (escape s).toList = withoutTags s.toList ++ if EndsInSlash s.toList then ['\\'] else [] := by
  have hends : EndsInSlash (withoutTags s.toList) ↔ EndsInSlash s.toList :=
    endsInSlash_withoutTags s.toList
  rw [endsInSlash_iff] at hends
  unfold escape
  dsimp only
  generalize hcs : List.flatMap _ (markupTokens s.toList) = cs
  have hsame : withoutTags s.toList = cs := by
    rw [← hcs]
    rfl
  rw [hsame] at hends
  rw [String.toList_ofList, hsame]
  split
  next rest hrest =>
    rw [hrest] at hends
    rw [if_neg fun h => (hends.mpr h).2 rfl, List.append_nil]
  next rest htwo hrest =>
    rw [hrest] at hends
    rw [if_pos (hends.mp ⟨rfl, fun hhead => ?_⟩)]
    obtain ⟨rest', rfl⟩ := List.head?_eq_some_iff.mp hhead
    exact htwo rest' rfl
  next hone =>
    rw [if_neg fun h => ?_, List.append_nil]
    obtain ⟨rest, hrest⟩ := List.head?_eq_some_iff.mp (hends.mpr h).1
    exact hone rest hrest

/-- Whether a part of a text is shown as it stands. -/
def MarkupToken.IsInert : MarkupToken → Prop
  | chars _ => True
  | bracket n _ => n % 2 = 1

theorem isInert_chars (u : List Char) : ∀ t ∈ if u.isEmpty then [] else [MarkupToken.chars u],
    t.IsInert := by
  intro t ht
  split at ht
  · cases ht
  · rw [List.mem_singleton.mp ht]
    trivial

theorem isInert_tokens (s : MarkupScan) : ∀ t ∈ s.tokens, t.IsInert :=
  isInert_chars _

theorem head?_reverse_stem (u : List Char) : (stem u).reverse.head? ≠ some '\\' := by
  intro h
  have hhead := List.head?_dropWhile_not (· == '\\') u.reverse
  rw [stem, List.reverse_reverse, ofText] at h
  rw [h] at hhead
  cases hhead

/-- Backslashes after a text that ends in none are the backslashes of the scan. -/
theorem slashes_ofText_append {x : List Char} (hx : x.reverse.head? ≠ some '\\') (n : Nat) :
    (ofText (x ++ List.replicate n '\\')).slashes = n := by
  have hnone : x.reverse.takeWhile (· == '\\') = [] := by
    cases hreverse : x.reverse with
    | nil => rfl
    | cons c cs =>
        rw [hreverse] at hx
        exact List.takeWhile_cons_of_neg (by simpa using hx)
  have hall : ∀ c ∈ List.replicate n '\\', (c == '\\') = true := fun c hc => by
    simp [List.eq_of_mem_replicate hc]
  rw [ofText, List.reverse_append, List.reverse_replicate, List.takeWhile_append_of_pos hall, hnone,
    List.append_nil, List.length_replicate]

/-- The tokens up to a tag: the text before it, and the backslashes that end it. -/
theorem markupTokens_of_slashes {x : List Char} (hx : x.reverse.head? ≠ some '\\') (hno : ¬HasTag x)
    (ht : IsTag t) (n : Nat) (rest : List Char) :
    markupTokens (x ++ (List.replicate n '\\' ++ '[' :: (t ++ ']' :: rest))) =
      (if x.isEmpty then [] else [.chars x]) ++ .bracket n t :: markupTokens rest := by
  have hslashes := slashes_ofText_append hx n
  have hstem : stem (x ++ List.replicate n '\\') = x := by
    have h := stem_append_slashes (x ++ List.replicate n '\\')
    rw [hslashes] at h
    exact List.append_cancel_right h
  have hno' : ¬HasTag (x ++ List.replicate n '\\') := by
    refine fun h => hno (hasTag_of_append_right (fun hmem => ?_) h)
    exact absurd (List.eq_of_mem_replicate hmem) (by decide)
  have htokens : ({ ofText (x ++ List.replicate n '\\') with slashes := 0 } : MarkupScan).tokens =
      if x.isEmpty then [] else [.chars x] := by
    unfold tokens
    dsimp only
    rw [List.replicate_zero, List.nil_append, ← stem, hstem]
  rw [← List.append_assoc, markupTokens_of_first_tag hno' ht, htokens, hslashes]

/-- Characters before a text that are neither brackets nor backslashes do not change its tags. -/
theorem markupTokens_of_escaped_tag {w : List Char} (hw : '[' ∉ w ∧ '\\' ∉ w) (h : ¬HasTag u)
    (ht : IsTag t) (n : Nat) (rest : List Char) :
    markupTokens (w ++ (stem u ++ (List.replicate n '\\' ++ '[' :: (t ++ ']' :: rest)))) =
      (if (w ++ stem u).isEmpty then [] else [.chars (w ++ stem u)]) ++ .bracket n t ::
        markupTokens rest := by
  have hlast : (w ++ stem u).reverse.head? ≠ some '\\' := by
    rw [List.reverse_append]
    cases hstem : (stem u).reverse with
    | nil =>
        rw [List.nil_append]
        exact fun h => hw.2 (List.mem_reverse.mp (List.mem_of_mem_head? h))
    | cons c cs =>
        have hhead := head?_reverse_stem u
        rwa [hstem] at hhead
  have hno : ¬HasTag (w ++ stem u) :=
    fun htag => h (stem_append_slashes u ▸ (hasTag_of_append_left hw.1 htag).append_right _)
  rw [← List.append_assoc, markupTokens_of_slashes hlast hno ht]

/-- A text without tags is read as parts that are shown as they stand, up to the last,
which goes on with what follows. -/
theorem exists_tokens_withoutTags (cs : List Char) {w : List Char} (hw : '[' ∉ w ∧ '\\' ∉ w) :
    ∃ ts u, (∀ t ∈ ts, t.IsInert) ∧ ¬HasTag u ∧
      ∀ q, markupTokens (w ++ (withoutTags cs ++ q)) = ts ++ markupTokens (u ++ q) := by
  induction cs using tag_induction generalizing w with
  | plain cs htag =>
      refine ⟨[], w ++ cs, fun t ht => absurd ht List.not_mem_nil, fun h =>
        htag (hasTag_of_append_left hw.1 h), fun q => ?_⟩
      rw [withoutTags_of_no_tag htag, List.nil_append, List.append_assoc]
  | tagged v t rest hv ht ih =>
      obtain ⟨ts, u, hts, hu, htokens⟩ := ih (w := []) ⟨List.not_mem_nil, List.not_mem_nil⟩
      refine ⟨(if (w ++ stem v).isEmpty then [] else [.chars (w ++ stem v)]) ++
        .bracket (2 * (ofText v).slashes + 1) t :: ts, u, ?_, hu, fun q => ?_⟩
      · refine List.forall_mem_append.mpr ⟨isInert_chars _, List.forall_mem_cons.mpr ⟨?_, hts⟩⟩
        show (2 * (ofText v).slashes + 1) % 2 = 1
        omega
      · rw [withoutTags_of_first_tag hv ht]
        simp only [List.append_assoc, List.cons_append]
        rw [markupTokens_of_escaped_tag hw hv ht, ← htokens q, List.nil_append]

theorem exists_tokens_escape (s : String) {w : List Char} (hw : '[' ∉ w ∧ '\\' ∉ w) :
    ∃ ts u, (∀ t ∈ ts, t.IsInert) ∧ ¬HasTag u ∧
      ∀ q, markupTokens (w ++ ((escape s).toList ++ q)) = ts ++ markupTokens (u ++ q) := by
  obtain ⟨ts, u, hts, hu, htokens⟩ := exists_tokens_withoutTags s.toList hw
  refine ⟨ts, u ++ if EndsInSlash s.toList then ['\\'] else [], hts, fun h =>
    hu (hasTag_of_append_right ?_ h), fun q => ?_⟩
  · split <;> decide
  · rw [toList_escape, List.append_assoc, htokens, List.append_assoc]

/-! ## What can be printed -/

/-- Whether a text is the name of a style that a tag can open and close. -/
def IsStyleName (name : String) : Prop :=
  IsTag name.toList ∧ name.toList.head? ≠ some '/' ∧ '=' ∉ name.toList ∧ Text.trim name = name

instance (name : String) : Decidable (IsStyleName name) :=
  inferInstanceAs (Decidable (_ ∧ _))

theorem tagName_of_bare {tag : List Char} (h : '=' ∉ tag) : (tagName tag).toList = tag := by
  have hall : ∀ c ∈ tag, (c != '=') = true := fun c hc => by
    simp only [bne_iff_ne]
    rintro rfl
    exact h hc
  rw [tagName, String.toList_ofList, ← List.append_nil tag, List.takeWhile_append_of_pos hall,
    List.takeWhile_nil]

namespace MarkupState

variable {s : MarkupState} {name : String} {open_ : List String}

theorem tag_opening (hname : IsStyleName name) (s : MarkupState) (position : Nat) :
    s.tag position name.toList = .ok { s with open_ := normalStyle name :: s.open_ } := by
  obtain ⟨-, hstarts, hbare, -⟩ := hname
  unfold MarkupState.tag
  rw [tagName_of_bare hbare]
  split
  · rename_i heq
    rw [heq] at hstarts
    exact absurd rfl hstarts
  · rw [String.ofList_toList]

theorem tag_closing (hname : IsStyleName name) (hs : s.open_ = normalStyle name :: open_)
    (position : Nat) :
    s.tag position ('/' :: name.toList) = .ok { s with open_ := open_ } := by
  obtain ⟨htag, -, hbare, htrim⟩ := hname
  have hne : name ≠ "" := by
    rintro rfl
    exact absurd htag (by decide)
  unfold MarkupState.tag
  rw [tagName_of_bare (by simpa using hbare)]
  show (if (Text.trim (String.ofList name.toList) == "") = true then _
    else if s.open_.contains _ = true then Except.ok _ else _) = _
  rw [String.ofList_toList, htrim, if_neg (by simpa using hne), hs, if_pos (by simp),
    List.erase_cons_head]

end MarkupState

/-- Whether parts of a text can be gone through while some tags are open. -/
def IsRenderable (pictures : Bool) (open_ : List String) (ts : List MarkupToken) : Prop :=
  ∀ s position, s.open_ = open_ → ∃ s', MarkupState.run pictures s position ts = .ok s'

namespace IsRenderable

variable {pictures : Bool} {open_ : List String} {ts more : List MarkupToken}

theorem nil : IsRenderable pictures open_ [] :=
  fun s _ _ => ⟨s, rfl⟩

theorem inert (ht : ∀ t ∈ ts, t.IsInert) (hmore : IsRenderable pictures open_ more) :
    IsRenderable pictures open_ (ts ++ more) := by
  induction ts with
  | nil => exact hmore
  | cons t ts ih =>
      have hts := ih fun u hu => ht u (List.mem_cons_of_mem t hu)
      intro s position hs
      cases t with
      | chars cs => exact hts _ _ hs
      | bracket n tag =>
          have hodd : n % 2 = 1 := ht _ List.mem_cons_self
          simp only [List.cons_append, MarkupState.run, hodd, if_true]
          exact hts _ _ hs

theorem chars (cs : List Char) (hts : IsRenderable pictures open_ ts) :
    IsRenderable pictures open_ (.chars cs :: ts) :=
  fun _ _ hs => hts _ _ hs

theorem opening {name : String} (hname : IsStyleName name)
    (hts : IsRenderable pictures (normalStyle name :: open_) ts) :
    IsRenderable pictures open_ (.bracket 0 name.toList :: ts) := by
  intro s position hs
  rw [MarkupState.run]
  dsimp only
  rw [if_neg (by decide), MarkupState.tag_opening hname]
  exact hts _ _ (by rw [hs])

theorem closing {name : String} (hname : IsStyleName name) (n : Nat)
    (hts : ∀ open_, IsRenderable pictures open_ ts) :
    IsRenderable pictures (normalStyle name :: open_) (.bracket n ('/' :: name.toList) :: ts) := by
  intro s position hs
  rw [MarkupState.run]
  dsimp only
  split
  · exact hts _ _ _ rfl
  · rw [MarkupState.tag_closing hname (s := ⟨s.open_, s.shown ++ List.replicate (n / 2) '\\'⟩) hs]
    exact hts _ _ _ rfl

theorem of_no_tag (h : ¬HasTag u) : IsRenderable pictures open_ (markupTokens u) := by
  rw [markupTokens_of_no_tag h]
  split
  · exact nil
  · exact nil.chars u

theorem escaped (s : String) {w q : List Char} (hw : '[' ∉ w ∧ '\\' ∉ w)
    (hq : ∀ u, ¬HasTag u → IsRenderable pictures open_ (markupTokens (u ++ q))) :
    IsRenderable pictures open_ (markupTokens (w ++ ((escape s).toList ++ q))) := by
  obtain ⟨ts, u, hts, hu, htokens⟩ := exists_tokens_escape s hw
  rw [htokens]
  exact (hq u hu).inert hts

/-- A style can be closed after a text without a tag, whether or not backslashes make the closing
tag a part of the text. -/
theorem closingAfter {name : String} (hname : IsStyleName name) (hu : ¬HasTag u) {rest : List Char}
    (hrest : ∀ open_, IsRenderable pictures open_ (markupTokens rest)) :
    IsRenderable pictures (normalStyle name :: open_)
      (markupTokens (u ++ '[' :: ('/' :: name.toList ++ ']' :: rest))) := by
  have htag : IsTag ('/' :: name.toList) := by
    refine ⟨⟨'/', _, rfl, rfl⟩, List.forall_mem_cons.mpr ⟨by decide, hname.1.bare⟩⟩
  rw [markupTokens_of_first_tag hu htag]
  exact (closing hname _ hrest).inert (isInert_tokens _)

theorem styled {name : String} (hname : IsStyleName name) (s : String) (before rest : List Char)
    (hbefore : '[' ∉ before ∧ '\\' ∉ before)
    (hrest : ∀ open_, IsRenderable pictures open_ (markupTokens rest)) :
    IsRenderable pictures open_ (markupTokens
      (before ++ '[' :: (name.toList ++ ']' ::
        ((escape s).toList ++ '[' :: ('/' :: name.toList ++ ']' :: rest))))) := by
  have hno : ¬HasTag before := by
    rintro ⟨_, t, _, rfl, -⟩
    simp at hbefore
  have hslashes : (ofText before).slashes = 0 := by
    have hlast : before.reverse.head? ≠ some '\\' :=
      fun h => hbefore.2 (List.mem_reverse.mp (List.mem_of_mem_head? h))
    simpa using slashes_ofText_append hlast 0
  rw [markupTokens_of_first_tag hno hname.1, hslashes]
  refine .inert (isInert_tokens _) (.opening hname ?_)
  rw [← List.nil_append (_ ++ _)]
  exact .escaped s ⟨List.not_mem_nil, List.not_mem_nil⟩ fun u hu => .closingAfter hname hu hrest

theorem rendered {text : String} (h : IsRenderable pictures [] (markupTokens text.toList)) :
    ∃ cs, Console.rendered pictures text = .ok cs := by
  obtain ⟨s, hs⟩ := h {} 0 rfl
  exact ⟨s.shown, by rw [Console.rendered, hs]; rfl⟩

end IsRenderable

def Notice.sign : Notice → String
  | success => "✓"
  | warning => "⚠"
  | error => "✗"
  | info => "ℹ"

theorem markupTokens_icon (n : Notice) : ∃ name, IsStyleName name ∧ ∀ cs,
    markupTokens (n.icon.toList ++ cs) =
    .bracket 0 name.toList :: .chars n.sign.toList :: .bracket 0 ('/' :: name.toList) ::
      markupTokens ([' '] ++ cs) := by
  cases n with
  | success => exact ⟨"green", by decide, fun _ => rfl⟩
  | warning => exact ⟨"yellow", by decide, fun _ => rfl⟩
  | error => exact ⟨"red", by decide, fun _ => rfl⟩
  | info => exact ⟨"blue", by decide, fun _ => rfl⟩

theorem notice_succeeds (c : Console) (n : Notice) (message : String) :
    ∃ text, c.notice n message = .ok text := by
  have hrenderable :
      IsRenderable c.pictures [] (markupTokens (n.icon ++ escape message).toList) := by
    obtain ⟨name, hname, hicon⟩ := markupTokens_icon n
    rw [String.toList_append, hicon]
    refine .opening hname (.chars _ (.closing hname 0 fun open_ => ?_))
    rw [← List.append_nil (escape message).toList]
    exact .escaped message (by decide) fun u hu => by rw [List.append_nil]; exact .of_no_tag hu
  obtain ⟨cs, hcs⟩ := hrenderable.rendered
  unfold notice marked
  split
  · exact ⟨_, by rw [hcs]; rfl⟩
  · exact ⟨_, rfl⟩

theorem header_succeeds (c : Console) (title : String) (subtitle : Option String) :
    ∃ text, c.header title subtitle = .ok text := by
  have hblue : IsStyleName "bold blue" := by decide
  have hdim : IsStyleName "dim" := by decide
  unfold header
  dsimp only
  generalize subtitle.filter (· != "") = below
  split
  · have hrenderable : IsRenderable c.pictures [] (markupTokens ("\n".intercalate
        (("[bold blue]" ++ escape title ++ "[/bold blue]") :: below.toList.map fun s =>
          "[dim]" ++ escape s ++ "[/dim]")).toList) := by
      cases below with
      | none =>
          have h : IsRenderable c.pictures [] _ :=
            .styled hblue title [] [] (by decide) fun _ => .nil
          simpa using h
      | some s =>
          have hbelow (open_ : List String) : IsRenderable c.pictures open_ _ :=
            .styled hdim s ['\n'] [] (by decide) fun _ => .nil
          have h : IsRenderable c.pictures [] _ := .styled hblue title [] _ (by decide) hbelow
          simpa using h
    obtain ⟨cs, hcs⟩ := hrenderable.rendered
    exact ⟨_, by rw [hcs]; rfl⟩
  · exact ⟨_, rfl⟩

/-- Headings and a title in which there is no bracket can be printed above every table. -/
theorem table_succeeds (c : Console) {title : String} {headings : List String}
    (rows : List (List String)) (hplain : ∀ text ∈ title :: headings, '[' ∉ text.toList) :
    ∃ text, c.table title headings rows = .ok text := by
  have hrendered (text : String) (htext : text ∈ title :: headings) :
      ∃ cs, Console.rendered c.pictures text = .ok cs := by
    refine (IsRenderable.of_no_tag ?_).rendered
    rintro ⟨_, _, _, heq, -⟩
    exact hplain text htext (by rw [heq]; simp)
  have hheadings : FailsOnly (fun _ => False) (headings.mapM (Console.rendered c.pictures)) := by
    refine .mapM fun text htext => ?_
    obtain ⟨cs, hcs⟩ := hrendered text (List.mem_cons_of_mem _ htext)
    rw [hcs]
    exact .ok cs
  obtain ⟨cells, hcells⟩ := hheadings.exists_ok
  obtain ⟨cs, hcs⟩ := hrendered title List.mem_cons_self
  unfold table
  rw [hcells]
  dsimp only [Bind.bind, Except.bind]
  split
  · exact ⟨_, rfl⟩
  · rw [hcs]
    exact ⟨_, rfl⟩

theorem heading_succeeds (c : Console) (title : String) : ∃ text, c.heading title = .ok text := by
  have hrenderable :
      IsRenderable c.pictures [] (markupTokens ("[bold]" ++ escape title ++ "[/bold]").toList) := by
    have hbold : IsStyleName "bold" := by decide
    have h : IsRenderable c.pictures [] _ := .styled hbold title [] [] (by decide) fun _ => .nil
    simpa using h
  obtain ⟨cs, hcs⟩ := hrenderable.rendered
  unfold heading
  split
  · exact ⟨_, by rw [hcs]; rfl⟩
  · exact ⟨_, rfl⟩

end ImportAudit.Console
