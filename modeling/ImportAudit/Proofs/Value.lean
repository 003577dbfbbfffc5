import ImportAudit.Settings.Merge
import Mathlib.Data.List.Nodup

/-!
# Mappings as lists of entries

What is found under a text key after entries have been put into a mapping or merged into it. The
lemmas on merging need mappings in which no text key comes twice; those that are made by putting one
entry after the other are like that.
-/

namespace ImportAudit

/-! ## Texts of points -/

namespace Value

theorem ofPoints_eq_str {ps : List Text.Point} {s : String} (h : Text.whole? ps = some s) :
    ofPoints ps = str s := by
  unfold ofPoints
  split
  · rename_i t ht
    rw [Option.some.inj (h.symm.trans ht)]
  · rename_i hnone
    rw [h] at hnone
    cases hnone

@[simp]
theorem ofPoints_chars (s : String) : ofPoints (s.toList.map .char) = str s := by
  rw [ofPoints_eq_str (Text.whole?_chars _), String.ofList_toList]

variable {k v : Value} {s : String} {e : Value × Value} {es fs : List (Value × Value)}

/-! ## Looking up text keys -/

def textKey? : Value → Option String
  | str s => some s
  | _ => none

theorem textKey?_eq_some_iff : v.textKey? = some s ↔ v = str s := by
  cases v <;> simp [textKey?]

theorem same_str_iff : same v (str s) = true ↔ v.textKey? = some s := by
  cases v <;> simp [same, number?, textKey?]

theorem str_same_iff : same (str s) v = true ↔ v.textKey? = some s := by
  cases v with
  | str t =>
      simp only [same, textKey?, beq_iff_eq, Option.some.injEq]
      exact eq_comm
  | _ => simp [same, number?, textKey?]

def textKeys (es : List (Value × Value)) : List String :=
  es.filterMap fun e => e.1.textKey?

@[simp]
theorem lookup_nil (k : Value) : lookup k [] = none := rfl

theorem lookup_cons (k : Value) (e : Value × Value) (es : List (Value × Value)) :
    lookup k (e :: es) = if same e.1 k then some e.2 else lookup k es := by
  unfold lookup
  rw [List.find?_cons]
  cases same e.1 k <;> rfl

theorem lookup_cons_of_eq (h : e.1.textKey? = some s) (es : List (Value × Value)) :
    lookup (str s) (e :: es) = some e.2 := by
  rw [lookup_cons, if_pos (same_str_iff.mpr h)]

theorem lookup_cons_of_ne (h : e.1.textKey? ≠ some s) (es : List (Value × Value)) :
    lookup (str s) (e :: es) = lookup (str s) es := by
  rw [lookup_cons, if_neg (mt same_str_iff.mp h)]

theorem mem_of_lookup (h : lookup (str s) es = some v) : (str s, v) ∈ es := by
  induction es with
  | nil => cases h
  | cons e es ih =>
      by_cases hkey : e.1.textKey? = some s
      · rw [lookup_cons_of_eq hkey] at h
        have he : e = (str s, v) := Prod.ext (textKey?_eq_some_iff.mp hkey) (Option.some.inj h)
        rw [he]
        exact List.mem_cons_self
      · rw [lookup_cons_of_ne hkey] at h
        exact List.mem_cons_of_mem e (ih h)

theorem textKeys_map {α : Type} (xs : List α) (name : α → String) (value : α → Value) :
    textKeys (xs.map fun x => (str (name x), value x)) = xs.map name := by
  unfold textKeys
  rw [List.filterMap_map]
  exact congrFun List.filterMap_eq_map xs

theorem mem_textKeys_cons : s ∈ textKeys (e :: es) ↔ e.1.textKey? = some s ∨ s ∈ textKeys es := by
  unfold textKeys
  simp [List.mem_filterMap]

theorem lookup_eq_none_iff : lookup (str s) es = none ↔ s ∉ textKeys es := by
  induction es with
  | nil => simp [textKeys]
  | cons e es ih =>
      rw [mem_textKeys_cons]
      by_cases hkey : e.1.textKey? = some s
      · rw [lookup_cons_of_eq hkey]
        simp [hkey]
      · rw [lookup_cons_of_ne hkey, ih]
        simp [hkey]

/-! ## Putting entries -/

theorem put_cons (k v : Value) (e : Value × Value) (es : List (Value × Value)) :
    put k v (e :: es) = if same e.1 k then (e.1, v) :: es else e :: put k v es := rfl

theorem lookup_put_same (s : String) (v : Value) (es : List (Value × Value)) :
    lookup (str s) (put (str s) v es) = some v := by
  induction es with
  | nil => rw [put, lookup_cons_of_eq rfl]
  | cons e es ih =>
      rw [put_cons]
      by_cases h : e.1.textKey? = some s
      · rw [if_pos (same_str_iff.mpr h), lookup_cons_of_eq (e := (e.1, v)) h]
      · rw [if_neg (mt same_str_iff.mp h), lookup_cons_of_ne h, ih]

theorem lookup_put_of_ne (h : k.textKey? ≠ some s) (v : Value) (es : List (Value × Value)) :
    lookup (str s) (put k v es) = lookup (str s) es := by
  induction es with
  | nil => rw [put, lookup_cons_of_ne h]
  | cons e es ih =>
      rw [put_cons]
      by_cases hsame : same e.1 k = true
      · have hne : e.1.textKey? ≠ some s := by
          intro he
          rw [textKey?_eq_some_iff.mp he] at hsame
          exact h (str_same_iff.mp hsame)
        rw [if_pos hsame, lookup_cons_of_ne (e := (e.1, v)) hne, lookup_cons_of_ne hne]
      · rw [if_neg hsame]
        by_cases he : e.1.textKey? = some s
        · rw [lookup_cons_of_eq he, lookup_cons_of_eq he]
        · rw [lookup_cons_of_ne he, lookup_cons_of_ne he, ih]

theorem mem_put (h : e ∈ put k v es) : e.2 = v ∨ e ∈ es := by
  induction es with
  | nil =>
      cases List.mem_singleton.mp h
      exact .inl rfl
  | cons d es ih =>
      rw [put_cons] at h
      split at h
      · rcases List.mem_cons.mp h with rfl | h
        · exact .inl rfl
        · exact .inr (List.mem_cons_of_mem d h)
      · rcases List.mem_cons.mp h with rfl | h
        · exact .inr List.mem_cons_self
        · exact (ih h).imp_right (List.mem_cons_of_mem d)

theorem mem_textKeys_put : s ∈ textKeys (put k v es) ↔ k.textKey? = some s ∨ s ∈ textKeys es := by
  rw [← not_iff_not, ← lookup_eq_none_iff, not_or, ← lookup_eq_none_iff]
  by_cases hk : k.textKey? = some s
  · rw [textKey?_eq_some_iff.mp hk, lookup_put_same]
    simp [textKey?]
  · rw [lookup_put_of_ne hk]
    simp [hk]

theorem nodup_textKeys_cons :
    (textKeys (e :: es)).Nodup ↔ (∀ s, e.1.textKey? = some s → s ∉ textKeys es) ∧
      (textKeys es).Nodup := by
  unfold textKeys
  rw [List.filterMap_cons]
  cases e.1.textKey? with
  | none => simp
  | some t => simp

theorem nodup_put (h : (textKeys es).Nodup) (k v : Value) : (textKeys (put k v es)).Nodup := by
  induction es with
  | nil =>
      rw [put, nodup_textKeys_cons]
      exact ⟨fun s _ => List.not_mem_nil, List.nodup_nil⟩
  | cons e es ih =>
      obtain ⟨hfresh, hes⟩ := nodup_textKeys_cons.mp h
      rw [put_cons]
      split
      · exact nodup_textKeys_cons.mpr ⟨hfresh, hes⟩
      · rename_i hdiffers
        refine nodup_textKeys_cons.mpr ⟨fun s hs hmem => ?_, ih hes⟩
        rcases mem_textKeys_put.mp hmem with hk | hmem
        · rw [textKey?_eq_some_iff.mp hs] at hdiffers
          exact hdiffers (str_same_iff.mpr hk)
        · exact hfresh s hs hmem

/-! ## Mappings without repeated keys -/

/-- No mapping has a text key twice that is the value or inside its lists and mappings. -/
inductive HasUniqueKeys : Value → Prop
  | scalar {v : Value} (hlist : ∀ xs, v ≠ list xs) (hmap : ∀ es, v ≠ map es) : HasUniqueKeys v
  | list {xs : List Value} (hitems : ∀ x ∈ xs, HasUniqueKeys x) : HasUniqueKeys (list xs)
  | map {es : List (Value × Value)} (hkeys : (textKeys es).Nodup)
      (hvalues : ∀ e ∈ es, HasUniqueKeys e.2) :
      HasUniqueKeys (map es)

theorem HasUniqueKeys.nodup (h : (Value.map es).HasUniqueKeys) : (textKeys es).Nodup := by
  cases h with
  | scalar _ hmap => exact absurd rfl (hmap es)
  | map hkeys _ => exact hkeys

theorem HasUniqueKeys.value (h : (Value.map es).HasUniqueKeys) (he : e ∈ es) :
    e.2.HasUniqueKeys := by
  cases h with
  | scalar _ hmap => exact absurd rfl (hmap es)
  | map _ hvalues => exact hvalues e he

theorem HasUniqueKeys.put (h : (Value.map es).HasUniqueKeys) (hv : v.HasUniqueKeys) (k : Value) :
    (Value.map (put k v es)).HasUniqueKeys := by
  refine .map (nodup_put h.nodup k v) fun e he => ?_
  rcases mem_put he with heq | he
  · rw [heq]
    exact hv
  · exact h.value he

theorem hasUniqueKeys_ofEntries (h : ∀ e ∈ es, e.2.HasUniqueKeys) :
    (Value.map (ofEntries es)).HasUniqueKeys := by
  have hfold : ∀ built, (Value.map built).HasUniqueKeys →
      (Value.map (es.foldl (fun m e => Value.put e.1 e.2 m) built)).HasUniqueKeys := by
    induction es with
    | nil => exact fun _ hbuilt => hbuilt
    | cons e es ih =>
        intro built hbuilt
        refine ih (fun d hd => h d (List.mem_cons_of_mem e hd)) _ ?_
        exact hbuilt.put (h e List.mem_cons_self) e.1
  exact hfold [] (.map List.nodup_nil fun e he => absurd he List.not_mem_nil)

theorem put_of_not_mem (h : s ∉ textKeys es) (v : Value) :
    put (str s) v es = es ++ [(str s, v)] := by
  induction es with
  | nil => rfl
  | cons e es ih =>
      rw [mem_textKeys_cons, not_or] at h
      rw [put_cons, if_neg (mt same_str_iff.mp h.1), ih h.2, List.cons_append]

theorem ofEntries_eq_self (hkeys : ∀ e ∈ es, ∃ s, e.1 = str s) (honce : (textKeys es).Nodup) :
    ofEntries es = es := by
  have hfold : ∀ built, (textKeys (built ++ es)).Nodup →
      es.foldl (fun m e => Value.put e.1 e.2 m) built = built ++ es := by
    induction es with
    | nil => exact fun built _ => (List.append_nil built).symm
    | cons e es ih =>
        intro built hbuilt
        obtain ⟨s, hs⟩ := hkeys e List.mem_cons_self
        have hfresh : s ∉ textKeys built := by
          intro hmem
          unfold textKeys at hbuilt hmem
          rw [List.filterMap_append] at hbuilt
          refine (List.nodup_append.mp hbuilt).2.2 s hmem s ?_ rfl
          rw [List.mem_filterMap]
          exact ⟨e, List.mem_cons_self, by rw [hs]; rfl⟩
        have hput : put e.1 e.2 built = built ++ [e] := by
          rw [hs, put_of_not_mem hfresh, ← hs]
        rw [List.foldl_cons, hput,
          ih (fun d hd => hkeys d (List.mem_cons_of_mem e hd)) (nodup_textKeys_cons.mp honce).2]
        · rw [List.append_assoc, List.singleton_append]
        · rw [List.append_assoc, List.singleton_append]
          exact hbuilt
  exact hfold [] honce

/-! ## Merging -/

theorem mergeEntries_cons (under : List (Value × Value)) (e : Value × Value)
    (es : List (Value × Value)) :
    mergeEntries under (e :: es) =
      mergeEntries (put e.1 (mergeOver (lookup e.1 under) e.2) under) es := by
  rw [mergeEntries]

theorem mergeOver_of_scalar (hmap : ∀ es, v ≠ map es) (under : Option Value) :
    mergeOver under v = v := by
  cases v with
  | map es => exact absurd rfl (hmap es)
  | _ => rfl

theorem nodup_mergeEntries {under : List (Value × Value)} (h : (textKeys under).Nodup)
    (es : List (Value × Value)) :
    (textKeys (mergeEntries under es)).Nodup := by
  induction es generalizing under with
  | nil => exact h
  | cons e es ih =>
      rw [mergeEntries_cons]
      exact ih (nodup_put h _ _)

/-- Under a key of the upper mapping is its value, merged over what was there;
all else is as before. -/
theorem lookup_mergeEntries (hkeys : (textKeys es).Nodup) (under : List (Value × Value))
    (s : String) :
    lookup (str s) (mergeEntries under es) =
      ((lookup (str s) es).map (mergeOver (lookup (str s) under))).or (lookup (str s) under) := by
  induction es generalizing under with
  | nil => rfl
  | cons e es ih =>
      obtain ⟨hfresh, hes⟩ := nodup_textKeys_cons.mp hkeys
      rw [mergeEntries_cons, ih hes]
      by_cases hkey : e.1.textKey? = some s
      · have habsent : lookup (str s) es = none := lookup_eq_none_iff.mpr (hfresh s hkey)
        rw [habsent, lookup_cons_of_eq hkey, textKey?_eq_some_iff.mp hkey]
        exact lookup_put_same s _ under
      · rw [lookup_cons_of_ne hkey, lookup_put_of_ne hkey]

theorem lookup_mergeEntries_of_scalars (hkeys : (textKeys es).Nodup)
    (hvalues : ∀ e ∈ es, ∀ fs, e.2 ≠ map fs) (under : List (Value × Value)) (s : String) :
    lookup (str s) (mergeEntries under es) = (lookup (str s) es).or (lookup (str s) under) := by
  rw [lookup_mergeEntries hkeys]
  cases h : lookup (str s) es with
  | none => rfl
  | some v => exact congrArg some (mergeOver_of_scalar (hvalues _ (mem_of_lookup h)) _)

theorem lookup_mergeEntries_nil (hkeys : (textKeys es).Nodup) (s : String) :
    lookup (str s) (mergeEntries [] es) = lookup (str s) es := by
  rw [lookup_mergeEntries hkeys]
  cases lookup (str s) es with
  | none => rfl
  | some v => cases v <;> rfl

/-! ## Deciding whether values are equal -/

mutual

/-- Whether two values are one and the same, numbers of different types being different. -/
def isEqual : Value → Value → Bool
  | null, null => true
  | bool a, bool b => a == b
  | int m, int n => m == n
  | float x, float y => x == y
  | str s, str t => s == t
  | torn s, torn t => s == t
  | date y m d, date y' m' d' => y == y' && m == m' && d == d'
  | moment a, moment b => a == b
  | bytes a, bytes b => a == b
  | list xs, list ys => areEqual xs ys
  | tuple xs, tuple ys => areEqual xs ys
  | set xs, set ys => areEqual xs ys
  | map es, map fs => haveEqualEntries es fs
  | knot a, knot b => a == b
  | _, _ => false

def areEqual : List Value → List Value → Bool
  | [], [] => true
  | x :: xs, y :: ys => isEqual x y && areEqual xs ys
  | _, _ => false

def haveEqualEntries : List (Value × Value) → List (Value × Value) → Bool
  | [], [] => true
  | (k, v) :: es, (l, u) :: fs => isEqual k l && isEqual v u && haveEqualEntries es fs
  | _, _ => false

end

mutual

theorem isEqual_iff : ∀ {v u : Value}, isEqual v u = true ↔ v = u
  | null, u => by cases u <;> simp [isEqual]
  | bool _, u => by cases u <;> simp [isEqual]
  | int _, u => by cases u <;> simp [isEqual]
  | float _, u => by cases u <;> simp [isEqual]
  | str _, u => by cases u <;> simp [isEqual]
  | torn _, u => by cases u <;> simp [isEqual]
  | date .., u => by cases u <;> simp [isEqual, and_assoc]
  | moment _, u => by cases u <;> simp [isEqual]
  | bytes _, u => by cases u <;> simp [isEqual]
  | list _, u => by cases u <;> simp [isEqual, areEqual_iff]
  | tuple _, u => by cases u <;> simp [isEqual, areEqual_iff]
  | set _, u => by cases u <;> simp [isEqual, areEqual_iff]
  | map _, u => by cases u <;> simp [isEqual, haveEqualEntries_iff]
  | knot _, u => by cases u <;> simp [isEqual]

theorem areEqual_iff : ∀ {xs ys : List Value}, areEqual xs ys = true ↔ xs = ys
  | [], ys => by cases ys <;> simp [areEqual]
  | x :: xs, ys => by cases ys <;> simp [areEqual, isEqual_iff, areEqual_iff]

theorem haveEqualEntries_iff : ∀ {es fs : List (Value × Value)},
    haveEqualEntries es fs = true ↔ es = fs
  | [], fs => by cases fs <;> simp [haveEqualEntries]
  | (k, v) :: es, fs => by
      cases fs <;> simp [haveEqualEntries, isEqual_iff, haveEqualEntries_iff, Prod.ext_iff]

end

instance : DecidableEq Value := fun _ _ => decidable_of_iff _ isEqual_iff

end Value

end ImportAudit
