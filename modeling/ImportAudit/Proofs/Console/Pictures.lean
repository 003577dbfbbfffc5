import ImportAudit.Console.Picture
import ImportAudit.Proofs.Text.Blank

/-!
# Texts that call pictures

Read from left to right, a colon starts a word that ends at the next colon or blank. If it ends at a
colon and is the name of a picture, the picture is put in its place, which changes the text where
the first colon stood. All else stays.
-/

namespace ImportAudit.Console

variable {c : Char} {m n cs : List Char}

/-! ## Names -/

def IsWord (n : List Char) : Prop :=
  ∀ c ∈ n, c ≠ ':' ∧ Text.isBlank c = false

def IsPictureName (n : List Char) : Prop :=
  (picture? (String.ofList (bareName n))).isSome = true

theorem mem_of_mem_turns {xs : List String} {e : String × String} (h : e ∈ turns xs) :
    e.2 ∈ xs := by
  fun_induction turns xs with
  | case1 name picture rest ih =>
      rcases List.mem_cons.mp h with rfl | h
      · exact List.mem_cons_of_mem _ List.mem_cons_self
      · exact List.mem_cons_of_mem _ (List.mem_cons_of_mem _ (ih h))
  | case2 => exact absurd h List.not_mem_nil

/-- Whether characters can be a picture: there are some, and none is a blank or a colon. -/
def IsPicture (cs : List Char) : Prop :=
  cs ≠ [] ∧ ∀ c ∈ cs, partsEntries c = false

theorem isPicture_of_mem_entries {table : String} {e : String × String} (h : e ∈ entries table) :
    IsPicture e.2.toList := by
  obtain ⟨piece, hpiece, hp⟩ := List.mem_map.mp (mem_of_mem_turns h)
  obtain ⟨hsplit, hnonempty⟩ := List.mem_filter.mp hpiece
  rw [← hp, String.toList_ofList]
  exact ⟨by simpa using hnonempty, fun c hc => Text.not_of_mem_splitList hsplit hc⟩

theorem IsPicture.inTone {picture : String} {mark : Char} (h : IsPicture picture.toList)
    (hmark : partsEntries mark = false) : IsPicture (inTone mark picture).toList := by
  obtain ⟨hne, hfree⟩ := h
  unfold Console.inTone
  cases hp : picture.toList with
  | nil => exact absurd hp hne
  | cons c cs =>
      rw [hp] at hfree
      obtain ⟨hc, hcs⟩ := List.forall_mem_cons.mp hfree
      dsimp only
      rw [String.toList_ofList]
      refine ⟨nofun, List.forall_mem_cons.mpr ⟨hc, List.forall_mem_cons.mpr ⟨hmark, ?_⟩⟩⟩
      exact fun d hd => hcs d ((List.dropWhile_sublist _).mem hd)

theorem picture?_spec {name p : String} (h : picture? name = some p) : IsPicture p.toList := by
  obtain ⟨before, after, htable, -⟩ := List.lookup_eq_some_iff.mp h
  have hentry : (Text.lower name, p) ∈ pictureTable := by
    rw [htable]
    exact List.mem_append_right _ List.mem_cons_self
  rcases List.mem_append.mp hentry with hentry | hentry
  · rcases List.mem_append.mp hentry with hentry | hentry
    · exact isPicture_of_mem_entries hentry
    · exact isPicture_of_mem_entries hentry
  · obtain ⟨e, he, htoned⟩ := List.mem_flatMap.mp hentry
    obtain ⟨⟨tone, mark⟩, htone, heq⟩ := List.mem_map.mp htoned
    have hmarks : ∀ t ∈ tones, partsEntries t.2 = false := by decide
    obtain rfl : inTone mark e.2 = p := (Prod.mk.inj heq).2
    exact (isPicture_of_mem_entries he).inTone (hmarks _ htone)

/-- A word that names no picture stays between its colons. -/
theorem named_of_not_picture (h : ¬IsPictureName n) : named n = ':' :: n ++ [':'] := by
  have hnone : picture? (String.ofList (bareName n)) = none := by simpa [IsPictureName] using h
  rw [named, hnone, Option.map_none, Option.getD_none]

theorem named_of_picture (h : IsPictureName n) : IsPicture (named n) := by
  obtain ⟨p, hp⟩ := Option.isSome_iff_exists.mp h
  obtain ⟨hne, hfree⟩ := picture?_spec hp
  have hforms : (forms.all fun f => !partsEntries f.2) = true := by decide
  rw [named, hp, Option.map_some, Option.getD_some]
  refine ⟨fun hnil => hne (List.append_eq_nil_iff.mp hnil).1, fun c hc => ?_⟩
  rcases List.mem_append.mp hc with hc | hc
  · exact hfree c hc
  · obtain ⟨f, hf, rfl⟩ := Option.map_eq_some_iff.mp (Option.mem_toList.mp hc)
    simpa using List.all_eq_true.mp hforms f (List.mem_of_find?_eq_some hf)

/-! ## The scan -/

theorem putPictures_char (hc : c ≠ ':') (cs : List Char) :
    putPictures none (c :: cs) = c :: putPictures none cs := by
  rw [putPictures, if_neg (by simpa using hc)]

theorem putPictures_word (hn : IsWord n) (m cs : List Char) :
    putPictures (some m) (n ++ cs) = putPictures (some (n.reverse ++ m)) cs := by
  induction n generalizing m with
  | nil => rfl
  | cons c n ih =>
      obtain ⟨⟨hcolon, hblank⟩, hn⟩ := List.forall_mem_cons.mp hn
      rw [List.cons_append, putPictures, if_neg (by simpa using hcolon),
        if_neg (by simp [hblank]), ih hn, List.reverse_cons, List.append_assoc]
      rfl

theorem putPictures_colon (n : List Char) :
    putPictures none (':' :: n) = putPictures (some []) n := rfl

theorem withPictures_open (hn : IsWord n) : withPictures (':' :: n) = ':' :: n := by
  have hscan := putPictures_word hn [] []
  rw [List.append_nil, List.append_nil] at hscan
  rw [withPictures, putPictures_colon, hscan, putPictures, List.reverse_reverse]

theorem withPictures_name (hn : IsWord n) (cs : List Char) :
    withPictures (':' :: (n ++ ':' :: cs)) = named n ++ withPictures cs := by
  rw [withPictures, putPictures_colon, putPictures_word hn, List.append_nil, putPictures,
    List.reverse_reverse]
  rfl

theorem withPictures_blank (hn : IsWord n) (hc : Text.isBlank c = true) (cs : List Char) :
    withPictures (':' :: (n ++ c :: cs)) = ':' :: n ++ c :: withPictures cs := by
  have hcolon : ¬(c == ':') = true := by
    rw [beq_iff_eq]
    rintro rfl
    cases hc
  rw [withPictures, putPictures_colon, putPictures_word hn, List.append_nil, putPictures,
    List.reverse_reverse, if_neg hcolon, if_pos hc]
  rfl

theorem putPictures_concat (hcolon : c ≠ ':') (hblank : Text.isBlank c = false)
    (name : Option (List Char)) (cs : List Char) :
    putPictures name (cs ++ [c]) = putPictures name cs ++ [c] := by
  induction cs generalizing name with
  | nil =>
      cases name with
      | none => rw [List.nil_append, putPictures_char hcolon]; rfl
      | some n => simp [putPictures, hcolon, hblank]
  | cons d cs ih =>
      cases name with
      | none =>
          simp only [List.cons_append, putPictures, ih]
          split <;> rfl
      | some n =>
          simp only [List.cons_append, putPictures, ih]
          repeat' split
          all_goals simp

/-! ## Calls -/

/-- Whether a picture is called in a text: a name stands between two colons, of which the first does
not end a word before. -/
inductive CallsPicture : List Char → Prop
  | here {n cs : List Char} (hn : IsWord n) (hpicture : IsPictureName n) : CallsPicture
      (':' :: (n ++ ':' :: cs))
  | char {c : Char} {cs : List Char} (hc : c ≠ ':') (h : CallsPicture cs) : CallsPicture (c :: cs)
  | word {c : Char} {n cs : List Char} (hn : IsWord n) (hc : c = ':' ∨ Text.isBlank c = true)
      (h : CallsPicture cs) :
      CallsPicture (':' :: (n ++ c :: cs))

theorem CallsPicture.two_le_count (h : CallsPicture cs) : 2 ≤ cs.count ':' := by
  induction h with
  | here _ _ =>
      simp only [List.count_cons_self, List.count_append]
      omega
  | char _ _ ih => exact Nat.le_trans ih (List.count_le_count_cons)
  | word _ _ _ ih =>
      simp only [List.count_cons_self, List.count_append, List.count_cons]
      omega

/-- A text is gone through character by character, and word by word after colons. -/
theorem text_induction {P : List Char → Prop} (nil : P [])
    (char : ∀ c cs, c ≠ ':' → P cs → P (c :: cs)) (unfinished : ∀ n, IsWord n → P (':' :: n))
    (word : ∀ n c cs, IsWord n → c = ':' ∨ Text.isBlank c = true → P cs → P (':' :: (n ++ c :: cs)))
    (cs : List Char) : P cs := by
  induction hlength : cs.length using Nat.strongRecOn generalizing cs with
  | ind k ih =>
      cases cs with
      | nil => exact nil
      | cons c cs =>
          rw [List.length_cons] at hlength
          by_cases hc : c = ':'
          · let inWord : Char → Bool := fun d => d != ':' && !Text.isBlank d
            have hn : IsWord (cs.takeWhile inWord) := by
              intro d hd
              have hin := List.all_eq_true.mp List.all_takeWhile d hd
              simpa [inWord] using hin
            have hsplit : cs = cs.takeWhile inWord ++ cs.dropWhile inWord :=
              List.takeWhile_append_dropWhile.symm
            rw [hc]
            cases hrest : cs.dropWhile inWord with
            | nil =>
                rw [hrest, List.append_nil] at hsplit
                rw [hsplit]
                exact unfinished _ hn
            | cons d rest =>
                have hd : d = ':' ∨ Text.isBlank d = true := by
                  have hout := List.head?_dropWhile_not inWord cs
                  rw [hrest] at hout
                  exact Decidable.or_iff_not_imp_left.mpr (by simpa [inWord] using hout)
                rw [hrest] at hsplit
                have hshorter : rest.length < k := by
                  rw [hsplit, List.length_append, List.length_cons] at hlength
                  omega
                rw [hsplit]
                exact word _ d rest hn hd (ih rest.length hshorter rest rfl)
          · exact char c cs hc (ih cs.length (by omega) cs rfl)

/-- A text in which no picture is called stays as it is. -/
theorem withPictures_eq_self (cs : List Char) (h : ¬CallsPicture cs) : withPictures cs = cs := by
  induction cs using text_induction with
  | nil => rfl
  | char c cs hc ih =>
      rw [withPictures, putPictures_char hc, ← withPictures, ih fun hcs => h (.char hc hcs)]
  | unfinished n hn => exact withPictures_open hn
  | word n c cs hn hc ih =>
      have hrest := ih fun hcs => h (.word hn hc hcs)
      rcases hc with rfl | hc
      · rw [withPictures_name hn, named_of_not_picture fun hpicture => h (.here hn hpicture), hrest]
        simp
      · rw [withPictures_blank hn hc, hrest]
        rfl

/-- Where the first picture is called the text is changed. -/
theorem CallsPicture.changed (h : CallsPicture cs) :
    ∃ p d r s, cs = p ++ ':' :: s ∧ withPictures cs = p ++ d :: r ∧ d ≠ ':' := by
  have hname {n : List Char} (hn : IsWord n) (hpicture : IsPictureName n) (cs : List Char) :
      ∃ d r, withPictures (':' :: (n ++ ':' :: cs)) = d :: r ∧ d ≠ ':' := by
    obtain ⟨hne, hfree⟩ := named_of_picture hpicture
    obtain ⟨d, r, hd⟩ := List.exists_cons_of_ne_nil hne
    refine ⟨d, r ++ withPictures cs, by rw [withPictures_name hn, hd]; rfl, ?_⟩
    rintro rfl
    exact absurd (hfree ':' (by rw [hd]; exact List.mem_cons_self)) (by decide)
  induction h with
  | @here n cs hn hpicture =>
      obtain ⟨d, r, hchanged, hd⟩ := hname hn hpicture cs
      exact ⟨[], d, r, _, rfl, hchanged, hd⟩
  | @char c cs hc _ ih =>
      obtain ⟨p, d, r, s, hcs, hchanged, hd⟩ := ih
      refine ⟨c :: p, d, r, s, by rw [hcs]; rfl, ?_, hd⟩
      rw [withPictures, putPictures_char hc, ← withPictures, hchanged]
      rfl
  | @word c n cs hn hc _ ih =>
      obtain ⟨p, d, r, s, hcs, hchanged, hd⟩ := ih
      rcases hc with rfl | hc
      · by_cases hpicture : IsPictureName n
        · obtain ⟨d, r, hchanged, hd⟩ := hname hn hpicture cs
          exact ⟨[], d, r, _, rfl, hchanged, hd⟩
        · refine ⟨':' :: n ++ ':' :: p, d, r, s, by rw [hcs]; simp, ?_, hd⟩
          rw [withPictures_name hn, named_of_not_picture hpicture, hchanged]
          simp
      · refine ⟨':' :: n ++ c :: p, d, r, s, by rw [hcs]; simp, ?_, hd⟩
        rw [withPictures_blank hn hc, hchanged]
        simp

theorem mem_withPictures (cs : List Char) : ∀ d ∈ withPictures cs, d ∈ cs ∨
    partsEntries d = false := by
  induction cs using text_induction with
  | nil => exact fun d hd => absurd hd List.not_mem_nil
  | char c cs hc ih =>
      rw [withPictures, putPictures_char hc, ← withPictures]
      intro d hd
      rcases List.mem_cons.mp hd with rfl | hd
      · exact .inl List.mem_cons_self
      · exact (ih d hd).imp_left (List.mem_cons_of_mem c)
  | unfinished n hn =>
      rw [withPictures_open hn]
      exact fun d hd => .inl hd
  | word n c cs hn hc ih =>
      have hrest {d : Char} (hd : d ∈ withPictures cs) :
          d ∈ ':' :: (n ++ c :: cs) ∨ partsEntries d = false :=
        (ih d hd).imp_left fun hd => by simp [hd]
      rcases hc with rfl | hc
      · rw [withPictures_name hn]
        intro d hd
        rcases List.mem_append.mp hd with hd | hd
        · by_cases hpicture : IsPictureName n
          · exact .inr ((named_of_picture hpicture).2 d hd)
          · rw [named_of_not_picture hpicture] at hd
            left
            simp only [List.cons_append, List.mem_cons, List.mem_append, List.not_mem_nil,
              or_false] at hd ⊢
            rcases hd with hd | hd | hd <;> simp [hd]
        · exact hrest hd
      · rw [withPictures_blank hn hc]
        intro d hd
        rcases List.mem_append.mp hd with hd | hd
        · exact .inl (by rw [← List.cons_append]; exact List.mem_append_left _ hd)
        · rcases List.mem_cons.mp hd with rfl | hd
          · exact .inl (by simp)
          · exact hrest hd

end ImportAudit.Console
