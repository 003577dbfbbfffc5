import ImportAudit.Proofs.Keys

/-!
# Laws of merging

Mappings are merged one over the other. Merging over and over, or with nothing in between, comes to
the same as merging once; keys stay in the order in which they first came; and wherever the
uppermost mapping has a value that is no mapping, the merged one has it too.
-/

namespace ImportAudit.Value

variable {k v : Value} {e : Value × Value} {es under a b : List (Value × Value)}

/-! ## Mappings at any depth -/

/-- Every mapping in a value, down to the first list, has keys that come once. -/
inductive WellKeyed : Value → Prop
  | leaf {v : Value} (hmap : ∀ es, v ≠ map es) : WellKeyed v
  | map {es : List (Value × Value)} (hkeys : HaveKeys es) (honce : KeysOnce es)
      (hvalues : ∀ e ∈ es, WellKeyed e.2) :
      WellKeyed (map es)

namespace WellKeyed

theorem keys (h : (Value.map es).WellKeyed) : HaveKeys es := by
  cases h with
  | leaf hmap => exact absurd rfl (hmap es)
  | map hkeys => exact hkeys

theorem once (h : (Value.map es).WellKeyed) : KeysOnce es := by
  cases h with
  | leaf hmap => exact absurd rfl (hmap es)
  | map _ honce => exact honce

theorem value (h : (Value.map es).WellKeyed) (he : e ∈ es) : e.2.WellKeyed := by
  cases h with
  | leaf hmap => exact absurd rfl (hmap es)
  | map _ _ hvalues => exact hvalues e he

theorem lookup (h : (Value.map es).WellKeyed) (hv : lookup k es = some v) : v.WellKeyed := by
  obtain ⟨e, he, rfl⟩ := Option.map_eq_some_iff.mp hv
  exact h.value (List.mem_of_find?_eq_some he)

theorem put (h : (Value.map es).WellKeyed) (hk : k.isHashable = true) (hv : v.WellKeyed) :
    (Value.map (put k v es)).WellKeyed := by
  refine .map (haveKeys_put h.keys hk v) (keysOnce_put h.once k v) fun e he => ?_
  rcases mem_put he with heq | he
  · rw [heq]
    exact hv
  · exact h.value he

end WellKeyed

theorem wellKeyed_nil : (Value.map []).WellKeyed :=
  .map (fun _ h => absurd h List.not_mem_nil) List.Pairwise.nil fun _ h => absurd h List.not_mem_nil

/-! ## One mapping over another -/

theorem lookup_mergeEntries_of_once (hunder : HaveKeys under) (hes : HaveKeys es)
    (honce : KeysOnce es) (hk : k.isHashable = true) :
    lookup k (mergeEntries under es) =
      ((lookup k es).map (mergeOver (lookup k under))).or (lookup k under) := by
  induction es generalizing under with
  | nil => rfl
  | cons e es ih =>
      have htail := lookup_tail_of_once hes honce
      obtain ⟨he, hes⟩ := haveKeys_cons.mp hes
      rw [mergeEntries_cons, ih (haveKeys_put hunder he _) hes (keysOnce_cons.mp honce).2,
        lookup_put hunder he hk, lookup_cons]
      by_cases hsame : same e.1 k = true
      · rw [← lookup_congr hes he hsame, ← lookup_congr hunder he hsame, htail,
          if_pos hsame, if_pos hsame]
        rfl
      · rw [if_neg hsame, if_neg hsame]

theorem wellKeyed_mergeEntries_of (hkeys : HaveKeys es)
    (hvalues : ∀ e ∈ es, ∀ old, (∀ u, old = some u → u.WellKeyed) → (mergeOver old e.2).WellKeyed)
    (hunder : (Value.map under).WellKeyed) : (Value.map (mergeEntries under es)).WellKeyed := by
  induction es generalizing under with
  | nil => exact hunder
  | cons e es ih =>
      obtain ⟨he, hkeys⟩ := haveKeys_cons.mp hkeys
      obtain ⟨hvalue, hvalues⟩ := List.forall_mem_cons.mp hvalues
      rw [mergeEntries_cons]
      exact ih hkeys hvalues (hunder.put he (hvalue _ fun u hu => hunder.lookup hu))

theorem WellKeyed.mergeOver (hv : v.WellKeyed) {old : Option Value}
    (hold : ∀ u, old = some u → u.WellKeyed) :
    (mergeOver old v).WellKeyed := by
  induction hv generalizing old with
  | leaf hmap =>
      rw [mergeOver_of_scalar hmap]
      exact .leaf hmap
  | map hkeys honce hvalues ih =>
      unfold Value.mergeOver
      split
      · exact wellKeyed_mergeEntries_of hkeys (fun e he old hold => ih e he hold) (hold _ rfl)
      · exact .map hkeys honce hvalues

theorem WellKeyed.mergeEntries (ha : (Value.map a).WellKeyed) (hb : (Value.map b).WellKeyed) :
    (Value.map (mergeEntries a b)).WellKeyed :=
  wellKeyed_mergeEntries_of hb.keys (fun _ he _ hold => (hb.value he).mergeOver hold) ha

theorem mergeOver_none (v : Value) : mergeOver none v = v := by
  cases v <;> rfl

theorem mergeEntries_of_fresh (hes : HaveKeys es) (honce : KeysOnce es)
    (hfresh : ∀ e ∈ es, lookup e.1 under = none) :
    mergeEntries under es = under ++ es := by
  induction es generalizing under with
  | nil => exact (List.append_nil under).symm
  | cons e es ih =>
      obtain ⟨he, hes⟩ := haveKeys_cons.mp hes
      obtain ⟨hdiffers, honce⟩ := keysOnce_cons.mp honce
      obtain ⟨hnew, hfresh⟩ := List.forall_mem_cons.mp hfresh
      have hnext : ∀ d ∈ es, lookup d.1 (under ++ [e]) = none := by
        intro d hd
        rw [lookup_eq_none_iff_keys]
        intro k hk
        rw [Value.keys, List.map_append, List.mem_append] at hk
        rcases hk with hk | hk
        · exact lookup_eq_none_iff_keys.mp (hfresh d hd) k hk
        · rw [List.mem_singleton.mp hk]
          exact hdiffers d.1 (List.mem_map_of_mem hd)
      rw [mergeEntries_cons, hnew, mergeOver_none, put_of_lookup_none hnew, ih hes honce hnext,
        List.append_assoc]
      rfl

theorem WellKeyed.mergeEntries_nil (h : (Value.map es).WellKeyed) : Value.mergeEntries [] es = es :=
  mergeEntries_of_fresh h.keys h.once fun _ _ => rfl

/-! ## The same mapping twice -/

theorem mergeEntries_eq_self
    (h : ∀ e ∈ es, lookup e.1 under = some (mergeOver (lookup e.1 under) e.2)) :
    mergeEntries under es = under := by
  induction es with
  | nil => rfl
  | cons e es ih =>
      obtain ⟨he, hes⟩ := List.forall_mem_cons.mp h
      rw [mergeEntries_cons, put_eq_self he, ih hes]

theorem mergeEntries_idem_of (hkeys : HaveKeys es) (honce : KeysOnce es)
    (hvalues : ∀ e ∈ es, ∀ old, (∀ u, old = some u → u.WellKeyed) →
      mergeOver (some (mergeOver old e.2)) e.2 = mergeOver old e.2)
    (hunder : (Value.map under).WellKeyed) :
    mergeEntries (mergeEntries under es) es = mergeEntries under es := by
  apply mergeEntries_eq_self
  intro e he
  have hmerged : lookup e.1 (mergeEntries under es) = some (mergeOver (lookup e.1 under) e.2) := by
    rw [lookup_mergeEntries_of_once hunder.keys hkeys honce (hkeys e.1 (List.mem_map_of_mem he)),
      lookup_of_mem hkeys honce he]
    rfl
  rw [hmerged, hvalues e he _ fun u hu => hunder.lookup hu]

theorem WellKeyed.mergeOver_idem (hv : v.WellKeyed) {old : Option Value}
    (hold : ∀ u, old = some u → u.WellKeyed) :
    Value.mergeOver (some (Value.mergeOver old v)) v = Value.mergeOver old v := by
  induction hv generalizing old with
  | leaf hmap => rw [mergeOver_of_scalar hmap, mergeOver_of_scalar hmap]
  | @map es hkeys honce hvalues ih =>
      have hidem {under : List (Value × Value)} (hunder : (Value.map under).WellKeyed) :=
        mergeEntries_idem_of hkeys honce (fun e he old hold => ih e he hold) hunder
      have hself : Value.mergeEntries es es = es := by
        have hnil := WellKeyed.mergeEntries_nil (.map hkeys honce hvalues)
        have htwice := hidem wellKeyed_nil
        rwa [hnil] at htwice
      -- What was there counts only if it was a mapping.
      cases old with
      | none => exact congrArg Value.map hself
      | some u =>
          cases u with
          | map m => exact congrArg Value.map (hidem (hold _ rfl))
          | _ => exact congrArg Value.map hself

theorem WellKeyed.mergeEntries_idem (ha : (Value.map a).WellKeyed) (hb : (Value.map b).WellKeyed) :
    Value.mergeEntries (Value.mergeEntries a b) b = Value.mergeEntries a b :=
  mergeEntries_idem_of hb.keys hb.once (fun _ he _ hold => (hb.value he).mergeOver_idem hold) ha

theorem WellKeyed.mergeEntries_self (h : (Value.map es).WellKeyed) :
    Value.mergeEntries es es = es := by
  have htwice := wellKeyed_nil.mergeEntries_idem h
  rwa [h.mergeEntries_nil] at htwice

/-! ## Values at a path -/

/-- What is reached by following keys from mapping to mapping. -/
def atPath? : Value → List Value → Option Value
  | v, [] => some v
  | map es, k :: path => (lookup k es).bind fun u => atPath? u path
  | _, _ :: _ => none

/-- A value that is no mapping stays where it is, whatever is below. -/
theorem atPath?_mergeOver {path : List Value} {u : Value} (hv : v.WellKeyed) {old : Option Value}
    (hold : ∀ w, old = some w → w.WellKeyed) (hat : v.atPath? path = some u)
    (hu : ∀ es, u ≠ map es) :
    (mergeOver old v).atPath? path = some u := by
  induction path generalizing v old with
  | nil =>
      obtain rfl : v = u := by
        cases v <;> exact Option.some.inj hat
      rw [mergeOver_of_scalar hu]
      exact hat
  | cons k path ih =>
      cases v with
      | map es =>
          obtain ⟨w, hlookup, hrest⟩ := Option.bind_eq_some_iff.mp hat
          cases old with
          | none => exact hat
          | some o =>
              cases o with
              | map m =>
                  have hm := hold _ rfl
                  show (lookup k (mergeEntries m es)).bind (fun x => x.atPath? path) = some u
                  rw [lookup_mergeEntries_of_once hm.keys hv.keys hv.once
                    (isHashable_of_lookup hv.keys hlookup), hlookup]
                  exact ih (hv.lookup hlookup) (fun x hx => hm.lookup hx) hrest
              | _ => exact hat
      | _ => cases hat

/-! ## Lists of mappings -/

inductive IsLayer : Value → Prop
  | nothing : IsLayer null
  | mapping {es : List (Value × Value)} (h : (map es).WellKeyed) : IsLayer (map es)

def layOver (under : List (Value × Value)) : Value → List (Value × Value)
  | map es => mergeEntries under es
  | _ => under

section Layers

variable {x : Value} {xs ys : List Value}

theorem merge_eq_foldl (h : ∀ x ∈ xs, IsLayer x) : merge xs = .ok (xs.foldl layOver []) := by
  unfold merge
  generalize ([] : List (Value × Value)) = start
  induction xs generalizing start with
  | nil => rfl
  | cons x xs ih =>
      obtain ⟨hx, hxs⟩ := List.forall_mem_cons.mp h
      rw [List.foldlM_cons, List.foldl_cons, ← ih hxs]
      cases hx with
      | nothing => rfl
      | @mapping es _ => cases es <;> rfl

theorem wellKeyed_layOver (hunder : (Value.map under).WellKeyed) (hx : IsLayer x) :
    (Value.map (layOver under x)).WellKeyed := by
  cases hx with
  | nothing => exact hunder
  | mapping h => exact hunder.mergeEntries h

theorem wellKeyed_foldl (hunder : (Value.map under).WellKeyed) (h : ∀ x ∈ xs, IsLayer x) :
    (Value.map (xs.foldl layOver under)).WellKeyed := by
  induction xs generalizing under with
  | nil => exact hunder
  | cons x xs ih =>
      obtain ⟨hx, hxs⟩ := List.forall_mem_cons.mp h
      exact ih (wellKeyed_layOver hunder hx) hxs

/-! ### Keys in the order in which they came -/

def addKey (seen : List Value) (k : Value) : List Value :=
  if seen.any (same k) then seen else k :: seen

theorem eraseDupsBy_eq_foldl (ks : List Value) :
    ks.eraseDupsBy same = (ks.foldl addKey []).reverse := by
  unfold List.eraseDupsBy
  generalize ([] : List Value) = seen
  induction ks generalizing seen with
  | nil => rfl
  | cons k ks ih =>
      rw [List.eraseDupsBy.loop, List.foldl_cons, addKey]
      cases seen.any (same k) <;> exact ih _

theorem reverse_keys_put (hes : HaveKeys es) (hk : k.isHashable = true) (v : Value) :
    (keys (put k v es)).reverse = addKey (keys es).reverse k := by
  have hseen : (keys es).reverse.any (same k) = (lookup k es).isSome := by
    rw [List.any_reverse]
    cases hlookup : lookup k es with
    | none =>
        refine List.any_eq_false.mpr fun j hj => ?_
        rw [same_comm hk (hes j hj), lookup_eq_none_iff_keys.mp hlookup j hj]
        exact Bool.false_ne_true
    | some u =>
        obtain ⟨e, he, -⟩ := Option.map_eq_some_iff.mp hlookup
        have hmem : e.1 ∈ keys es := List.mem_map_of_mem (List.mem_of_find?_eq_some he)
        refine List.any_eq_true.mpr ⟨e.1, hmem, ?_⟩
        rw [same_comm hk (hes _ hmem)]
        simpa using List.find?_some he
  rw [keys_put, addKey, hseen]
  split
  · rfl
  · exact List.reverse_concat

theorem reverse_keys_mergeEntries (hunder : HaveKeys under) (hes : HaveKeys es) :
    (keys (mergeEntries under es)).reverse = (keys es).foldl addKey (keys under).reverse := by
  induction es generalizing under with
  | nil => rfl
  | cons e es ih =>
      obtain ⟨he, hes⟩ := haveKeys_cons.mp hes
      rw [mergeEntries_cons, ih (haveKeys_put hunder he _) hes, reverse_keys_put hunder he]
      rfl

def layerKeys : Value → List Value
  | map es => keys es
  | _ => []

theorem reverse_keys_foldl (hunder : (Value.map under).WellKeyed) (h : ∀ x ∈ xs, IsLayer x) :
    (keys (xs.foldl layOver under)).reverse =
      (xs.flatMap layerKeys).foldl addKey (keys under).reverse := by
  induction xs generalizing under with
  | nil => rfl
  | cons x xs ih =>
      obtain ⟨hx, hxs⟩ := List.forall_mem_cons.mp h
      rw [List.foldl_cons, ih (wellKeyed_layOver hunder hx) hxs, List.flatMap_cons,
        List.foldl_append]
      cases hx with
      | nothing => rfl
      | mapping hes =>
          show _ = List.foldl addKey (List.foldl addKey (keys under).reverse (keys _)) _
          rw [← reverse_keys_mergeEntries hunder.keys hes.keys]
          rfl

theorem keys_foldl_layOver (h : ∀ x ∈ xs, IsLayer x) :
    keys (xs.foldl layOver []) = (xs.flatMap layerKeys).eraseDupsBy same := by
  have hkeys := reverse_keys_foldl wellKeyed_nil h
  rw [eraseDupsBy_eq_foldl, ← List.reverse_eq_iff]
  exact hkeys

/-! ### Keys that are there -/

theorem isSome_lookup_mergeEntries (ha : (Value.map a).WellKeyed)
    (hb : (Value.map b).WellKeyed) (k : Value) :
    (lookup k (mergeEntries a b)).isSome = true ↔ (lookup k a).isSome = true ∨
      (lookup k b).isSome = true := by
  by_cases hk : k.isHashable = true
  · rw [lookup_mergeEntries_of_once ha.keys hb.keys hb.once hk]
    cases lookup k a <;> cases lookup k b <;> simp
  · have hnone {es : List (Value × Value)} (h : (Value.map es).WellKeyed) : lookup k es = none :=
      Option.eq_none_iff_forall_ne_some.mpr fun u hu => hk (isHashable_of_lookup h.keys hu)
    rw [hnone ha, hnone hb, hnone (ha.mergeEntries hb)]
    simp

theorem isSome_lookup_foldl (hunder : (Value.map under).WellKeyed)
    (h : ∀ x ∈ xs, IsLayer x) (k : Value) :
    (lookup k (xs.foldl layOver under)).isSome = true ↔
      (lookup k under).isSome = true ∨ ∃ es, map es ∈ xs ∧ (lookup k es).isSome = true := by
  induction xs generalizing under with
  | nil => simp
  | cons x xs ih =>
      obtain ⟨hx, hxs⟩ := List.forall_mem_cons.mp h
      rw [List.foldl_cons, ih (wellKeyed_layOver hunder hx) hxs]
      cases hx with
      | nothing => simp [layOver]
      | mapping hes =>
          rw [layOver, isSome_lookup_mergeEntries hunder hes, or_assoc]
          simp only [List.mem_cons, Value.map.injEq, or_and_right, exists_or, exists_eq_left]

/-! ### The laws -/

end Layers

end ImportAudit.Value
