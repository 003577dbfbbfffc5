import ImportAudit.Proofs.Yaml.Numbers

/-!
# Values that are no collections

The text of such a value is written plainly if it stands for the value, and in quotes otherwise.
Only texts are written in quotes.
-/

namespace ImportAudit.Yaml

/-- Values that are written as texts and read back. -/
inductive IsLeaf : Value → Prop
  | null : IsLeaf .null
  | bool (b : Bool) : IsLeaf (.bool b)
  | int {k : Int} (h : Value.isLong (.int k) = false) : IsLeaf (.int k)
  | float {x : Double} (h : x.IsFinite) : IsLeaf (.float x)
  | str (s : String) : IsLeaf (.str s)

/-- What is written for a text, and whether it stands without quotes. -/
inductive ScalarSource (n : Nat) : List Char → List Char → Bool → Prop
  | plain {src cs : List Char} {x : Char} (h : Plain n src (x :: cs))
      (hopens : opensMark x (endsNext cs) = false) :
      ScalarSource n src (x :: cs) true
  | quoted {src text : List Char} (double : Bool) (h : Quoted double src text) :
      ScalarSource n (closing double :: (src ++ [closing double])) text false

def readTag (text : String) (plain : Bool) : String :=
  if plain then Scalar.implicitTag text else standard "str"

variable {n : Nat}

theorem ScalarSource.isWritten {src text : List Char} {plain : Bool}
    (h : ScalarSource n src text plain) :
    ∀ y ∈ src, IsWritten y := by
  cases h with
  | plain h hopens => exact h.isWritten
  | quoted double h =>
      have hclosing : IsWritten (closing double) := by cases double <;> decide
      refine List.forall_mem_cons.mpr
        ⟨hclosing, List.forall_mem_append.mpr ⟨h.isWritten, fun y hy => ?_⟩⟩
      rw [List.mem_singleton.mp hy]
      exact hclosing

theorem ScalarSource.startsToken {src text : List Char} {plain : Bool}
    (h : ScalarSource n src text plain) (rest : List Char) : Cursor.StartsToken (src ++ rest) := by
  cases h with
  | plain h hopens =>
      obtain ⟨y, src', text', rfl, htext, hy, hspace⟩ := h.exists_cons
      obtain ⟨rfl, rfl⟩ := List.cons.inj htext
      rintro _ ⟨⟩
      refine ⟨hy, hspace, ?_⟩
      rintro rfl
      cases hopens
  | quoted double h =>
      rintro _ ⟨⟩
      cases double <;> decide

theorem opensMark_mono {x : Char} (h : opensMark x true = false) (alone : Bool) :
    opensMark x alone = false := by
  cases alone
  · unfold opensMark at h ⊢
    rw [Bool.or_eq_false_iff] at h
    rw [h.1]
    rfl
  · exact h

theorem opensMark_source {src cs : List Char} {x : Char} (h : Plain n src (x :: cs))
    (hopens : opensMark x (endsNext cs) = false) (tail : List Char) :
    ∃ src', src = x :: src' ∧ IsInline x ∧ x ≠ ' ' ∧
      opensMark x (endsNext (src' ++ '\n' :: tail)) = false := by
  obtain ⟨y, src', cs', rfl, htext, hy, hspace⟩ := h.exists_cons
  obtain ⟨rfl, rfl⟩ := List.cons.inj htext
  refine ⟨src', rfl, hy, hspace, ?_⟩
  cases halone : endsNext cs with
  | true =>
      rw [halone] at hopens
      exact opensMark_mono hopens _
  | false =>
      -- The text goes on with a word, and so does the source.
      have hnext : ∃ d rest, src' = d :: rest ∧ endsWord d = false := by
        generalize hsrc : x :: src' = src at h
        generalize htext : x :: cs = text at h
        cases h with
        | word hw =>
            obtain ⟨-, rfl⟩ := List.cons.inj (hsrc.trans htext.symm)
            cases src' with
            | nil => cases halone
            | cons d rest => exact ⟨d, rest, rfl, halone⟩
        | @gap w g s src text hw hg hmark h =>
            obtain ⟨z, w, rfl⟩ := List.exists_cons_of_ne_nil hw.nonempty
            obtain ⟨-, rfl⟩ := List.cons.inj hsrc
            obtain ⟨-, rfl⟩ := List.cons.inj htext
            cases w with
            | nil => cases hg <;> cases halone
            | cons d w => exact ⟨d, _, rfl, halone⟩
      obtain ⟨d, rest, rfl, hd⟩ := hnext
      have hends : endsNext (d :: rest ++ '\n' :: tail) = false := hd
      rw [hends]
      rw [halone] at hopens
      exact hopens

/-! ## Writing -/

section Writing

variable {s : String} {p : Page}

theorem writePlain_source (split : Bool) (hn : n ≤ Page.width) (hs : s ≠ "")
    (h : (traits s).plain = true) (p : Page) :
    ∃ src, (writePlain split n s p).chars = p.chars ++ (p.blankBefore ++ src) ∧
      (writePlain split n s p).onlyIndented = false ∧ ScalarSource n src s.toList true := by
  have hne : s.toList ≠ [] := fun hnil => hs (String.toList_eq_nil_iff.mp hnil)
  obtain ⟨c, cs, hcs⟩ := List.exists_cons_of_ne_nil hne
  obtain ⟨-, -, hopens⟩ := traits_plain hcs h
  obtain ⟨src, hchars, hplain⟩ := writePlain_spec split hn hcs h p
  refine ⟨src, hchars, ?_, ?_⟩
  · unfold writePlain
    rw [if_neg (by simpa using hs)]
    exact onlyIndented_go _ _ _ rfl
  · rw [hcs] at hplain ⊢
    exact .plain hplain hopens

theorem writeLeaf_implied {l : Leaf} (hlines : l.asLines = false)
    (htag : Scalar.implicitTag l.text = standard l.tag) (hplain : (traits l.text).plain = true)
    (p : Page) : writeLeaf false (some n) l p = writePlain true (n + 2) l.text p := by
  unfold writeLeaf
  dsimp only
  rw [hlines, htag, hplain, beq_self_eq_true]
  rfl

theorem writeLeaf_str (hn : n + 2 < Page.width) (s : String) (p : Page) :
    ∃ src plain, (writeLeaf false (some n) ⟨"str", s, false⟩ p).chars = p.chars ++
      (p.blankBefore ++ src) ∧
      (writeLeaf false (some n) ⟨"str", s, false⟩ p).onlyIndented = false ∧
        ScalarSource (n + 2) src s.toList plain ∧
      readTag s plain = standard "str" := by
  by_cases hplain : Scalar.implicitTag s = standard "str" ∧ (traits s).plain = true
  · obtain ⟨htag, hplain⟩ := hplain
    have hs : s ≠ "" := by
      rintro rfl
      exact absurd htag (by decide)
    obtain ⟨src, hchars, honly, hsource⟩ :=
      writePlain_source true (n := n + 2) (by omega) hs hplain p
    rw [writeLeaf_implied (l := ⟨"str", s, false⟩) rfl htag hplain]
    exact ⟨src, true, hchars, honly, hsource, htag⟩
  · have hquoted : writeLeaf false (some n) ⟨"str", s, false⟩ p =
        if (traits s).single then writeSingle true (n + 2) s p
        else writeDouble true (n + 2) (s.toList.map .char) p := by
      have himplied : (Scalar.implicitTag s == standard "str" && (traits s).plain) = false := by
        rw [Bool.eq_false_iff]
        simpa using hplain
      unfold writeLeaf
      dsimp only
      simp only [Bool.not_false, Bool.true_and, Bool.false_and, Bool.and_true, himplied]
      rfl
    rw [hquoted]
    split
    · rename_i hsingle
      obtain ⟨src, hchars, hsource⟩ :=
        writeSingle_spec true (n := n + 2) (by omega) (by omega) hsingle p
      exact ⟨_, false, hchars, Bool.and_false _, .quoted false hsource, rfl⟩
    · obtain ⟨src, hchars, hsource⟩ := writeDouble_spec true (n := n + 2) (by omega) hn s p
      exact ⟨_, false, hchars, Bool.and_false _, .quoted true hsource, rfl⟩

theorem ne_empty_of_number {m : Json.NumberText} (hm : m.IsValid)
    (hs : s.toList = m.chars) : s ≠ "" := by
  rintro rfl
  obtain ⟨c, cs, hcs, -⟩ := chars_cases hm
  rw [hcs] at hs
  cases hs

/-- What is written for a value that is no collection is read as the value. -/
theorem writeLeaf_spec {v : Value} (hv : IsLeaf v) (hn : n + 2 < Page.width) (p : Page) :
    ∃ l, leaf? v = some l ∧ ∃ src plain,
      (writeLeaf false (some n) l p).chars = p.chars ++ (p.blankBefore ++ src) ∧
      (writeLeaf false (some n) l p).onlyIndented = false ∧
        ScalarSource (n + 2) src l.text.toList plain ∧
      Scalar.value (readTag l.text plain) l.text = .ok v := by
  -- All but texts have a text that stands for them.
  have himplied {l : Leaf} (hlines : l.asLines = false) (hs : l.text ≠ "")
      (htag : Scalar.implicitTag l.text = standard l.tag) (hplain : (traits l.text).plain = true)
      (hvalue : Scalar.value (Scalar.implicitTag l.text) l.text = .ok v) :
      ∃ src plain, (writeLeaf false (some n) l p).chars = p.chars ++ (p.blankBefore ++ src) ∧
        (writeLeaf false (some n) l p).onlyIndented = false ∧
          ScalarSource (n + 2) src l.text.toList plain ∧
        Scalar.value (readTag l.text plain) l.text = .ok v := by
    obtain ⟨src, hchars, honly, hsource⟩ :=
      writePlain_source true (n := n + 2) (by omega) hs hplain p
    rw [writeLeaf_implied hlines htag hplain]
    exact ⟨src, true, hchars, honly, hsource, hvalue⟩
  cases hv with
  | null => exact ⟨_, rfl, himplied rfl (by decide) (by decide) (by decide) rfl⟩
  | bool b =>
      refine ⟨_, rfl, ?_⟩
      cases b
      · exact himplied rfl (by decide) (by decide) (by decide) rfl
      · exact himplied rfl (by decide) (by decide) (by decide) rfl
  | @int k hk =>
      have hs := (Json.chars_intParts k).symm
      have hvalid := Json.isValid_intParts k
      exact ⟨_, rfl,
        himplied rfl (ne_empty_of_number hvalid hs)
          (Scalar.implicitTag_int hvalid (List.append_nil _) hs)
        (traits_number hvalid hs) (Scalar.value_int hk)⟩
  | @float x hx =>
      cases x with
      | nan => exact hx.elim
      | infinity negative => exact hx.elim
      | finite negative m e =>
          have hs := toList_floatText hx
          have hvalid := (Json.isValid_floatParts hx).withPoint
          exact ⟨_, rfl, himplied rfl (ne_empty_of_number hvalid hs)
            (Scalar.implicitTag_float hvalid Json.NumberText.fraction_withPoint_ne_nil hs)
              (traits_number hvalid hs)
            (value_float hx)⟩
  | str s =>
      obtain ⟨src, plain, hchars, honly, hsource, htag⟩ := writeLeaf_str hn s p
      refine ⟨_, rfl, src, plain, hchars, honly, hsource, ?_⟩
      rw [htag]
      rfl

end Writing

end ImportAudit.Yaml
