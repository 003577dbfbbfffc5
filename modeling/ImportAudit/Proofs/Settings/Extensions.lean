import ImportAudit.Proofs.Extensions.Matching
import ImportAudit.Proofs.Settings.Check

/-!
# Extensions that the check admits

The check takes dots off an extension and then blanks, the normal form takes blanks off alone. Every
extension that is admitted keeps its place in the list of normal forms. But the check also admits an
extension of nothing but dots and blanks, if one of the dots has blanks on both of its sides, and
that one is then the ending of names that end in dots.
-/

namespace ImportAudit

namespace Extensions

variable {x name : String} {es : List String}

/-! ## Dots and blanks -/

def IsSolid (c : Char) : Prop :=
  c ≠ '.' ∧ Text.isBlank c = false

def HasSubstance (x : String) : Prop :=
  ∃ c ∈ x.toList, IsSolid c

/-- Whether a text has a dot with a blank somewhere before it and a blank somewhere after it. -/
def HasInnerDot (x : String) : Prop :=
  ∃ u v, x.toList = u ++ '.' :: v ∧ (∃ c ∈ u, Text.isBlank c = true) ∧ ∃ c ∈ v,
    Text.isBlank c = true

instance (c : Char) : Decidable (IsSolid c) :=
  inferInstanceAs (Decidable (_ ∧ _))

instance (x : String) : Decidable (HasSubstance x) :=
  decidable_of_iff (x.toList.any (fun c => decide (IsSolid c)) = true) (by simp [HasSubstance])

theorem not_isSolid_iff {c : Char} : ¬ IsSolid c ↔ c = '.' ∨ Text.isBlank c = true := by
  rw [IsSolid, not_and_or, not_not, Bool.not_eq_false]

theorem isLow_of_not_isSolid {c : Char} (h : ¬ IsSolid c) : Text.IsLow c := by
  rcases not_isSolid_iff.mp h with rfl | hblank
  · exact Text.isLow_dot
  · exact (Text.isBlank_plain hblank).1

theorem hasSubstance_dotted (x : String) : HasSubstance ("." ++ x) ↔ HasSubstance x := by
  unfold HasSubstance
  rw [toList_dotted]
  simp [IsSolid]

/-! ## What is kept of a text -/

theorem isSolid_lowerAt (before : List Char) (c : Char) (after : List Char) :
    (∃ d ∈ Text.lowerAt before c after, IsSolid d) ↔ IsSolid c := by
  constructor
  · rintro ⟨d, hd, hsolid⟩
    by_contra hc
    rw [Text.lowerAt_of_low (isLow_of_not_isSolid hc), List.mem_singleton] at hd
    exact hc (hd ▸ hsolid)
  · rintro ⟨hdot, hblank⟩
    obtain ⟨d, hd⟩ := List.exists_mem_of_ne_nil _ (Text.lowerAt_ne_nil before c after)
    refine ⟨d, hd, fun heq => hdot ?_, Text.isBlank_of_mem_lowerAt hblank hd⟩
    exact Text.eq_dot_of_mem_lowerAt (heq ▸ hd)

theorem isSolid_lowerFrom (before cs : List Char) :
    (∃ d ∈ Text.lowerFrom before cs, IsSolid d) ↔ ∃ c ∈ cs, IsSolid c := by
  induction cs generalizing before with
  | nil => exact Iff.rfl
  | cons c cs ih =>
      rw [Text.lowerFrom_cons]
      simp only [List.mem_append, List.mem_cons, or_and_right, exists_or, isSolid_lowerAt, ih,
        exists_eq_left]

theorem hasSubstance_lower (x : String) : HasSubstance (Text.lower x) ↔ HasSubstance x := by
  unfold HasSubstance
  rw [Text.toList_lower, isSolid_lowerFrom]

theorem hasSubstance_trim (x : String) : HasSubstance (Text.trim x) ↔ HasSubstance x := by
  unfold HasSubstance
  rw [Text.toList_trim]
  constructor
  · rintro ⟨c, hc, hsolid⟩
    exact ⟨c, (Text.mem_trimList_iff hsolid.2).mp hc, hsolid⟩
  · rintro ⟨c, hc, hsolid⟩
    exact ⟨c, (Text.mem_trimList_iff hsolid.2).mpr hc, hsolid⟩

/-! ## Admitted extensions -/

theorem trim_ne_empty_iff (x : String) : Text.trim x ≠ "" ↔
    ∃ c ∈ x.toList, Text.isBlank c = false := by
  rw [← String.toList_inj.ne, Text.toList_trim]
  constructor
  · intro hne
    obtain ⟨c, rest, hkept⟩ := List.exists_cons_of_ne_nil hne
    have hblank : Text.isBlank c = false := (Text.freeEnds_trimList _ _).1 c (by rw [hkept]; rfl)
    exact ⟨c, (Text.mem_trimList_iff hblank).mp (hkept ▸ List.mem_cons_self), hblank⟩
  · rintro ⟨c, hc, hblank⟩ hnil
    have hmem := (Text.mem_trimList_iff hblank).mpr hc
    rw [hnil] at hmem
    cases hmem

theorem hasInnerDot_of_trimmed (h : ¬ HasSubstance x)
    (hdot : '.' ∈ Text.trimList (· == '.') x.toList) : HasInnerDot x := by
  obtain ⟨u, v, hx, -, -⟩ := Text.exists_trimList (· == '.') x.toList
  obtain ⟨hhead, hlast⟩ := Text.freeEnds_trimList (· == '.') x.toList
  generalize Text.trimList (· == '.') x.toList = kept at hx hdot hhead hlast
  obtain ⟨s, t, rfl⟩ := List.append_of_mem hdot
  -- The ends of what is kept are no dots, so that they are blanks.
  have hblank {c : Char} (hc : c ∈ x.toList) (hfree : (c == '.') = false) : Text.isBlank c = true :=
    (not_isSolid_iff.mp fun hsolid => h ⟨c, hc, hsolid⟩).resolve_left (by simpa using hfree)
  refine ⟨u ++ s, t ++ v, by simp [hx], ?_, ?_⟩
  · cases s with
    | nil => exact absurd (hhead '.' rfl) (by decide)
    | cons c s => exact ⟨c, by simp, hblank (by simp [hx]) (hhead c rfl)⟩
  · cases t using List.reverseRecOn with
    | nil => exact absurd (hlast '.' (by simp)) (by decide)
    | append_singleton t c =>
        rw [← List.cons_append, ← List.append_assoc, List.getLast?_concat] at hlast
        exact ⟨c, by simp, hblank (by simp [hx]) (hlast c rfl)⟩

/-- The check admits what has something in it, and what has a dot between blanks. -/
theorem isExtension_iff (x : String) : Value.isExtension (.str x) = true ↔
    HasSubstance x ∨ HasInnerDot x := by
  rw [Value.isExtension, bne_iff_ne, trim_ne_empty_iff, Text.trimWith, String.toList_ofList]
  constructor
  · rintro ⟨c, hc, hblank⟩
    by_cases hsubstance : HasSubstance x
    · exact .inl hsubstance
    · refine .inr (hasInnerDot_of_trimmed hsubstance ?_)
      have hdot : c = '.' := by
        by_contra hdot
        exact hsubstance ⟨c, (Text.mem_trimList_iff (by simpa using hdot)).mp hc, hdot, hblank⟩
      exact hdot ▸ hc
  · rintro (⟨c, hc, hdot, hblank⟩ | ⟨u, v, hx, ⟨b, hb, hbefore⟩, d, hd, hafter⟩)
    · exact ⟨c, (Text.mem_trimList_iff (by simpa using hdot)).mpr hc, hblank⟩
    · refine ⟨'.', ?_, rfl⟩
      rw [hx]
      have hfree {c : Char} (hc : Text.isBlank c = true) : (c == '.') = false := by
        rw [beq_eq_false_iff_ne]
        rintro rfl
        cases hc
      exact Text.mem_trimList_between ⟨b, hb, hfree hbefore⟩ ⟨d, hd, hfree hafter⟩ '.'

/-- An admitted extension has a normal form, with something after its dot exactly if the
extension has something in it. -/
theorem exists_normal? (h : HasSubstance x ∨ HasInnerDot x) :
    ∃ rest, normal? x = some ("." ++ rest) ∧ (HasSubstance rest ↔ HasSubstance x) := by
  have hsame : HasSubstance (Text.lower (Text.trim x)) ↔ HasSubstance x := by
    rw [hasSubstance_lower, hasSubstance_trim]
  have hne : Text.lower (Text.trim x) ≠ "" := by
    intro hlower
    rw [← String.toList_inj, Text.toList_lower] at hlower
    refine (trim_ne_empty_iff x).mpr ?_ (String.toList_inj.mp (Text.lowerFrom_eq_nil hlower))
    rcases h with ⟨c, hc, hsolid⟩ | ⟨u, v, hx, -⟩
    · exact ⟨c, hc, hsolid.2⟩
    · exact ⟨'.', by simp [hx], rfl⟩
  rw [normal?_eq, if_neg hne]
  split
  next hdot =>
    obtain ⟨cs, hcs⟩ := List.head?_eq_some_iff.mp hdot
    have hform : Text.lower (Text.trim x) = "." ++ String.ofList cs := by
      apply String.toList_inj.mp
      rw [hcs, toList_dotted, String.toList_ofList]
    refine ⟨String.ofList cs, by rw [hform], ?_⟩
    rw [← hasSubstance_dotted, ← hform, hsame]
  next => exact ⟨_, rfl, hsame⟩

theorem normal?_of_no_substance (h : ¬ HasSubstance x) (hdot : HasInnerDot x) :
    normal? x = some (Text.trim x) := by
  have hflat {c : Char} (hc : c ∈ (Text.trim x).toList) : ¬ IsSolid c := fun hsolid =>
    h ((hasSubstance_trim x).mp ⟨c, hc, hsolid⟩)
  have hlow : Text.lower (Text.trim x) = Text.trim x := by
    apply String.toList_inj.mp
    rw [Text.toList_lower]
    exact Text.lowerFrom_eq_self fun c hc => isLow_of_not_isSolid (hflat hc)
  obtain ⟨u, v, hx, -⟩ := hdot
  have hne : Text.trim x ≠ "" := (trim_ne_empty_iff x).mpr ⟨'.', by simp [hx], rfl⟩
  obtain ⟨c, rest, hcs⟩ := List.exists_cons_of_ne_nil (String.toList_inj.ne.mpr hne)
  have hfirst : c = '.' := by
    have hfree := (Text.freeEnds_trimList Text.isBlank x.toList).1
    rw [← Text.toList_trim, hcs] at hfree
    refine (not_isSolid_iff.mp (hflat (hcs ▸ List.mem_cons_self))).resolve_right ?_
    rw [hfree c rfl]
    exact Bool.false_ne_true
  rw [normal?_eq, hlow, if_neg hne, if_pos (by rw [hcs, hfirst]; rfl)]

/-- A list with an extension of dots and blanks accepts every name that ends with it. -/
theorem allow_of_no_substance (hx : x ∈ es) (h : ¬ HasSubstance x) (hdot : HasInnerDot x)
    (stem : String) :
    allow es (stem ++ Text.trim x) = true := by
  refine allow_iff.mpr ⟨Text.trim x, mem_normalize.mpr ⟨x, hx, normal?_of_no_substance h hdot⟩, ?_⟩
  have hend := Text.suffix_lowerFrom_append [] stem.toList (Text.trim x).toList
  rw [Text.lowerFrom_eq_self] at hend
  · rwa [Text.toList_lower, String.toList_append]
  · intro c hc
    exact isLow_of_not_isSolid fun hsolid => h ((hasSubstance_trim x).mp ⟨c, hc, hsolid⟩)

theorem hasSubstance_of_suffix (h : HasSubstance x) (hend : x.toList <:+ (Text.lower name).toList) :
    HasSubstance name := by
  obtain ⟨c, hc, hsolid⟩ := h
  exact (hasSubstance_lower name).mp ⟨c, hend.subset hc, hsolid⟩

end Extensions

namespace Settings

open Extensions

variable {data : List (Value × Value)} {v : Value}

/-- A list of extensions is admitted if it has an entry, and each is a text that cannot be encoded,
has something in it, or has a dot between blanks. -/
theorem fault?_extensions_iff : fault? .extensions v = none ↔
    ∃ vs, v = .list vs ∧ vs ≠ [] ∧ (∀ x ∈ vs, x.isText = true) ∧
      ∀ x, Value.str x ∈ vs → HasSubstance x ∨ HasInnerDot x := by
  have hitems (vs : List Value) : vs.all Value.isExtension = true ↔
      (∀ x ∈ vs, x.isText = true) ∧ ∀ x, Value.str x ∈ vs → HasSubstance x ∨ HasInnerDot x := by
    rw [List.all_eq_true]
    constructor
    · intro h
      exact ⟨fun x hx => isText_of_isExtension (h x hx), fun x hx =>
        (isExtension_iff x).mp (h _ hx)⟩
    · rintro ⟨htexts, hall⟩ x hx
      cases x with
      | str s => exact (isExtension_iff s).mpr (hall s hx)
      | torn t => rfl
      | _ => exact htexts _ hx
  simp only [← hitems]
  unfold fault?
  dsimp only
  constructor
  · intro h
    split at h
    · rename_i first rest
      split at h
      next hall => exact ⟨first :: rest, rfl, List.cons_ne_nil _ _, hall⟩
      · cases h
    · cases h
  · rintro ⟨vs, rfl, hne, hall⟩
    obtain ⟨x, rest, rfl⟩ := List.exists_cons_of_ne_nil hne
    dsimp only
    rw [if_pos hall]

/-- Of the extensions that pass the check none is lost, as long as it can be encoded: there is a
normal form, and each extension has its own. It is a dot with something else after it than dots and
blanks if the extension has such a thing in it; if all have, a name is accepted only for an ending
that has one too. An extension without it has a dot between blanks, and every name that ends in
these dots is accepted. -/
theorem checked_extensions_kept (hcheck : checkData (.map data) = .ok ())
    (hv : valueIn? data .extensions = some v) :
    ∃ vs es, v = .list vs ∧ vs ≠ [] ∧ (∀ x ∈ vs, x.isText = true) ∧ Extensions.ofValue v = .ok es ∧
      let names := vs.filterMap Value.textKey?
      (names ≠ [] → normalize es ≠ []) ∧
      (∀ x ∈ names, ∃ rest, normal? x = some ("." ++ rest) ∧ "." ++ rest ∈ normalize es ∧
        (HasSubstance rest ↔ HasSubstance x)) ∧
      ((∀ n ∈ normalize es, ∃ rest, n = "." ++ rest ∧ HasSubstance rest) ↔
        ∀ x ∈ names, HasSubstance x) ∧
      ((∀ x ∈ names, HasSubstance x) → ∀ name, allow es name = true → HasSubstance name ∧
        ∃ x ∈ names, ∃ rest, normal? x = some ("." ++ rest) ∧ HasSubstance rest ∧
          ("." ++ rest).toList <:+ (Text.lower name).toList) ∧
      ∀ x ∈ names, ¬ HasSubstance x →
        HasInnerDot x ∧ ∀ stem, allow es (stem ++ Text.trim x) = true := by
  have hfault := (checkData_eq_ok_iff.mp hcheck).2 .extensions
  rw [hv, Option.bind_some] at hfault
  obtain ⟨vs, rfl, hne, htexts, hall⟩ := fault?_extensions_iff.mp hfault
  obtain ⟨es, hes, hnormalize⟩ := ofValue_of_texts htexts
  have hnames {x : String} (hx : x ∈ vs.filterMap Value.textKey?) :
      HasSubstance x ∨ HasInnerDot x := by
    obtain ⟨u, hu, hkey⟩ := List.mem_filterMap.mp hx
    exact hall x (Value.textKey?_eq_some_iff.mp hkey ▸ hu)
  have hforms : ∀ x ∈ vs.filterMap Value.textKey?, ∃ rest, normal? x = some ("." ++ rest) ∧
      "." ++ rest ∈ normalize es ∧ (HasSubstance rest ↔ HasSubstance x) := by
    intro x hx
    obtain ⟨rest, hnormal, hsame⟩ := exists_normal? (hnames hx)
    exact ⟨rest, hnormal, hnormalize ▸ mem_normalize.mpr ⟨x, hx, hnormal⟩, hsame⟩
  have horigin {n : String} (hn : n ∈ normalize es) :
      ∃ x ∈ vs.filterMap Value.textKey?, normal? x = some n :=
    mem_normalize.mp (hnormalize ▸ hn)
  have hsolid (h : ∀ x ∈ vs.filterMap Value.textKey?, HasSubstance x) :
      ∀ n ∈ normalize es, ∃ x ∈ vs.filterMap Value.textKey?, ∃ rest, normal? x = some n ∧
        n = "." ++ rest ∧ HasSubstance rest := by
    intro n hn
    obtain ⟨x, hx, hnormal⟩ := horigin hn
    obtain ⟨rest, hform, -, hsame⟩ := hforms x hx
    exact ⟨x, hx, rest, hnormal, Option.some.inj (hnormal.symm.trans hform), hsame.mpr (h x hx)⟩
  refine ⟨vs, es, rfl, hne, htexts, hes, fun hsome => ?_, hforms,
    ⟨fun h x hx => ?_, fun h n hn => ?_⟩, fun h name hname => ?_, fun x hx hflat => ?_⟩
  · obtain ⟨x, hx⟩ := List.exists_mem_of_ne_nil _ hsome
    obtain ⟨rest, -, hmem, -⟩ := hforms x hx
    exact List.ne_nil_of_mem hmem
  · obtain ⟨rest, -, hmem, hsame⟩ := hforms x hx
    obtain ⟨rest', hrest, hsubstance⟩ := h _ hmem
    rw [← hasSubstance_dotted, ← hrest, hasSubstance_dotted] at hsubstance
    exact hsame.mp hsubstance
  · obtain ⟨x, hx, rest, -, hform, hsubstance⟩ := hsolid h n hn
    exact ⟨rest, hform, hsubstance⟩
  · obtain ⟨n, hn, hend⟩ := allow_iff.mp hname
    obtain ⟨x, hx, rest, hnormal, rfl, hsubstance⟩ := hsolid h n hn
    exact ⟨hasSubstance_of_suffix ((hasSubstance_dotted rest).mpr hsubstance) hend, x, hx, rest,
      hnormal, hsubstance, hend⟩
  · have hdot := (hnames hx).resolve_left hflat
    refine ⟨hdot, fun stem => ?_⟩
    rw [allow, hnormalize]
    exact allow_of_no_substance hx hflat hdot stem

/-- A dot between blanks passes the check, and then a file with a dot at the end
of its name is accepted. -/
theorem checked_extensions_kept_dot :
    let extensions : List Value := [.str "java", .str " . "]
    let data : List (Value × Value) :=
      [(.str "analysis", .map [(.str "extensions", .list extensions)])]
    checkData (.map data) = .ok () ∧ HasSubstance "java" ∧ ¬ HasSubstance " . " ∧
      HasInnerDot " . " ∧ allow ["java", " . "] "notes." = true := by
  intro extensions data
  have hcheck : checkData (.map data) = .ok () := by decide +kernel
  have hflat : ¬ HasSubstance " . " := by decide +kernel
  obtain ⟨vs, es, hvs, -, -, hes, -, -, -, -, hloose⟩ := checked_extensions_kept hcheck rfl
  obtain rfl : extensions = vs := Value.list.inj hvs
  obtain rfl := Except.ok.inj ((ofValue_texts ["java", " . "]).symm.trans hes)
  obtain ⟨hdot, hallow⟩ := hloose " . " (by decide) hflat
  have hname : "notes" ++ Text.trim " . " = "notes." := by decide +kernel
  exact ⟨hcheck, by decide +kernel, hflat, hdot, hname ▸ hallow "notes"⟩

end Settings

end ImportAudit
