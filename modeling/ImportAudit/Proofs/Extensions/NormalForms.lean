import ImportAudit.Proofs.Discovery
import ImportAudit.Proofs.Extensions.Matching
import ImportAudit.Proofs.FirstOccurrences

/-!
# Lists of extensions in normal form

Going through a list keeps each normal form where it occurs first. What is kept is in normal
form itself, so that going through it once more changes nothing, and which names are accepted is
a matter of the entries alone.
-/

namespace ImportAudit.Extensions

variable {e : String} {xs : List String}

/-! ## Normal forms -/

def withDot (e : String) : String :=
  if e.toList.head? = some '.' then e else "." ++ e

def normalForms (xs : List String) : List String :=
  ((xs.map fun x => Text.lower (Text.trim x)).filter (· ≠ "")).map withDot

theorem filterMap_normal? (xs : List String) : xs.filterMap normal? = normalForms xs := by
  have hnormal (low : String) :
      (if low.toList.head? = some '.' then some low else some ("." ++ low)) = some (withDot low) :=
    (apply_ite some _ _ _).symm
  induction xs with
  | nil => rfl
  | cons x xs ih =>
      rw [List.filterMap_cons, ih, normal?_eq, normalForms, normalForms, List.map_cons]
      by_cases hempty : Text.lower (Text.trim x) = ""
      · rw [if_pos hempty, List.filter_cons_of_neg (by simpa using hempty)]
      · rw [if_neg hempty, List.filter_cons_of_pos (by simpa using hempty), List.map_cons, hnormal]

theorem firstOccurrences_normalize (xs : List String) :
    FirstOccurrences (normalForms xs) (normalize xs) := by
  rw [normalize, filterMap_normal?]
  exact firstOccurrences_eraseDups (normalForms xs)

theorem normal_of_mem_normalize (h : e ∈ normalize xs) :
    e.toList.head? = some '.' ∧ Text.trim e = e ∧ Text.lower e = e := by
  obtain ⟨x, -, hx⟩ := mem_normalize.mp h
  obtain ⟨hlow, hdot, hfree⟩ := normal?_spec hx
  refine ⟨hdot, ?_, ?_⟩
  · rw [Text.trim, Text.trimWith, Text.trimList_of_freeEnds hfree, String.ofList_toList]
  · rw [Text.lower, Text.lowerFrom_eq_self hlow, String.ofList_toList]

theorem normalize_normalize (xs : List String) : normalize (normalize xs) = normalize xs := by
  have hforms : (normalize xs).filterMap normal? = normalize xs := by
    have hself : ∀ e ∈ normalize xs, normal? e = some e := fun e he => by
      obtain ⟨x, -, hx⟩ := mem_normalize.mp he
      exact normal?_normal? hx
    rw [List.filterMap_congr hself, List.filterMap_some]
  conv_lhs => rw [normalize, hforms]
  exact eraseDups_of_nodup (firstOccurrences_normalize xs).nodup

/-! ## Names -/

theorem allow_normalize_eq (xs : List String) (name : String) :
    allow (normalize xs) name = allow xs name := by
  rw [allow, normalize_normalize, allow]

theorem allow_of_same_entries {ys : List String} (h : ∀ x, x ∈ ys ↔ x ∈ xs) (name : String) :
    allow ys name = allow xs name := by
  rw [Bool.eq_iff_iff]
  simp only [allow_iff, mem_normalize, h]

theorem isListed_normalize (xs excluded segments : List String) :
    Discovery.isListed (normalize xs) excluded segments =
      Discovery.isListed xs excluded segments := by
  rw [Discovery.isListed, Discovery.isListed, allow_normalize_eq]

open Discovery in
/-- The files that are found below a directory are those whose names the list accepts as given. -/
theorem mem_files_normalize {fs : FileSystem} {root p : Path} {l : Location}
    {excluded : List String} :
    p ∈ files fs root l (normalize xs) excluded ↔
      ∃ segments, Met fs root l segments ∧ p = root.join { parts := segments } ∧
        (∃ m c, fs.entry p = .ok (m, .file c)) ∧ (∀ s ∈ segments.dropLast, s ∉ excluded) ∧
        allow xs p.name = true := by
  rw [mem_files]
  refine exists_congr fun segments => and_congr_right fun hmet => and_congr_right fun hp => ?_
  refine and_congr_right fun _ => ?_
  rw [isListed_normalize, isListed, Bool.and_eq_true, hp, Path.name_join hmet.proper]
  simp

open Discovery in
/-- The normal form of a list of extensions has each normal form of an entry once, where it occurs
first; all of them start with a dot, have no blank around them and are in lower case.  It is its own
normal form.  So a name is accepted by a list exactly if it is accepted by the normal form, in
whatever order and however often the entries are written; and discovery, which brings the list to
normal form and then again for every name, finds the files whose names the list itself accepts. -/
theorem extensions_normalized_once (xs : List String) :
    FirstOccurrences (normalForms xs) (normalize xs) ∧
    (∀ e ∈ normalize xs, e.toList.head? = some '.' ∧ Text.trim e = e ∧ Text.lower e = e) ∧
    normalize (normalize xs) = normalize xs ∧
    (∀ name, allow (normalize xs) name = allow xs name) ∧
    (∀ ys, (∀ x, x ∈ ys ↔ x ∈ xs) → ∀ name, allow ys name = allow xs name) ∧
    ∀ (fs : FileSystem) (root : Path) (excluded : Option (List String)) (context : Option String),
      let found := discover fs root (some (.list (xs.map .str))) excluded context
      (∀ l c, fs.entry root = .ok (l, .file c) →
        found = .ok (if allow xs root.name then [root] else [])) ∧
      ∀ l, fs.entry root = .ok (l, .directory) →
        ((∃ files, found = .ok files) ↔ ∀ f, ¬IsHindered fs root l f) ∧
        ∀ files, found = .ok files →
          ∀ p, p ∈ files ↔ ∃ segments, Met fs root l segments ∧
            p = root.join { parts := segments } ∧ (∃ m c, fs.entry p = .ok (m, .file c)) ∧
            (∀ s ∈ segments.dropLast, s ∉ excluded.getD defaultExcluded) ∧
            allow xs p.name = true := by
  refine ⟨firstOccurrences_normalize xs, fun e => normal_of_mem_normalize, normalize_normalize xs,
    allow_normalize_eq xs, fun ys h => allow_of_same_entries h,
    fun fs root excluded context => ⟨fun l c hroot => ?_, fun l hroot => ?_⟩⟩
  · have hfile : discover fs root ((some xs).map fun es => .list (es.map .str)) excluded context =
        _ := discover_file hroot
    rwa [Option.getD_some, allow_normalize_eq] at hfile
  · have hfound : discover fs root (some (.list (xs.map .str))) excluded context =
        below fs root l (normalize xs) (excluded.getD defaultExcluded) := by
      have hdirectory : discover fs root ((some xs).map fun es => .list (es.map .str)) excluded
          context = _ := discover_directory hroot
      exact hdirectory
    simp only [hfound, below_eq_ok_iff]
    refine ⟨⟨fun ⟨_, h, _⟩ => h, fun h => ⟨_, h, rfl⟩⟩, ?_⟩
    rintro files ⟨-, rfl⟩ p
    exact mem_files_normalize

open Discovery in
/-- Five entries with two normal forms, one of which stands in the list as it is; the entries again,
some of them twice; and a directory and a file that are searched with them. -/
theorem extensions_normalized_once_mixed :
    let xs := [" JAVA ", "Kt", ".java", "  ", "kt"]
    let ys := ["kt", "kt", "  ", ".java", "Kt", " JAVA ", ".java"]
    let fs : FileSystem :=
      { entries := [(["w"], .directory), (["w", "A.KT"], .file (.bytes [])),
          (["w", "b.txt"], .file (.bytes []))] }
    let root : Path := { root := "/", parts := ["w"] }
    let file : Path := { root := "/", parts := ["w", "b.txt"] }
    normalize xs = [".java", ".kt"] ∧ (∀ name, allow ys name = allow xs name) ∧
      fs.entry root = .ok (["w"], .directory) ∧
      fs.entry file = .ok (["w", "b.txt"], .file (.bytes [])) ∧
      discover fs file (some (.list (xs.map .str))) none none = .ok [] ∧
      ∃ files, discover fs root (some (.list (xs.map .str))) none none = .ok files ∧
        root.join { parts := ["A.KT"] } ∈ files ∧ file ∉ files := by
  intro xs ys fs root file
  obtain ⟨-, -, -, -, hentries, hfound⟩ := extensions_normalized_once xs
  have hsame : ∀ x, x ∈ ys ↔ x ∈ xs := fun x => by
    simp only [xs, ys, List.mem_cons, List.not_mem_nil, or_false]
    grind
  have hroot : fs.entry root = .ok (["w"], .directory) := by decide +kernel
  have hfile : fs.entry file = .ok (["w", "b.txt"], .file (.bytes [])) := by decide +kernel
  have hrefused : allow xs file.name = false := by decide +kernel
  have hsingle := (hfound fs file none none).1 _ _ hfile
  rw [hrefused] at hsingle
  have hfree : ∀ f, ¬IsHindered fs root ["w"] f := by
    rintro f ⟨segments, fault, ⟨hne, ⟨e, hentry⟩, -⟩, hlook, -⟩
    have hsegments : segments = ["A.KT"] ∨ segments = ["b.txt"] := by
      simp only [fs, List.cons_append, List.nil_append, List.mem_cons, Prod.mk.injEq,
        List.cons.injEq, true_and, List.not_mem_nil, or_false, hne, false_and, false_or] at hentry
      exact hentry.imp And.left And.left
    obtain rfl | rfl := hsegments <;> revert hlook <;> cases fault <;> decide +kernel
  obtain ⟨hreturns, hmem⟩ := (hfound fs root none none).2 _ hroot
  obtain ⟨files, hfiles⟩ := hreturns.mpr hfree
  refine ⟨by decide +kernel, hentries ys hsame, hroot, hfile, hsingle, files, hfiles,
    (hmem files hfiles _).mpr ?_, fun h => ?_⟩
  · refine ⟨["A.KT"], ⟨by decide, ⟨_, .tail _ (.head _)⟩, fun n hn => ?_⟩, rfl,
      ⟨["w", "A.KT"], .bytes [], by decide +kernel⟩, by decide, by decide +kernel⟩
    obtain rfl : n = 0 := by simpa using hn
    decide +kernel
  · obtain ⟨-, -, -, -, -, hallow⟩ := (hmem files hfiles _).mp h
    rw [hrefused] at hallow
    cases hallow

end ImportAudit.Extensions
