import ImportAudit.Proofs.Sequencing
import ImportAudit.Proofs.Value
import ImportAudit.Settings.File

/-!
# What configuration files hold

A text key comes at most once in a mapping that is read from a file, whichever syntax the file has.
-/

namespace ImportAudit

open Value (HasUniqueKeys hasUniqueKeys_ofEntries)

theorem Value.hasUniqueKeys_ofPoints (ps : List Text.Point) : (ofPoints ps).HasUniqueKeys := by
  unfold ofPoints
  split <;> exact .scalar nofun nofun

namespace Json

theorem numberValue?_uniqueKeys {negative : Bool} {whole fraction : List Char}
    {exponent : Option Int} {v : Value}
    (h : numberValue? negative whole fraction exponent = some v) : v.HasUniqueKeys := by
  unfold numberValue? at h
  dsimp only at h
  split at h
  · split at h
    · cases h
    · cases h
      exact .scalar nofun nofun
  · cases h
    exact .scalar nofun nofun

theorem readNumber_uniqueKeys {cs rest : List Char} {v : Value}
    (h : readNumber cs = some (.ok (v, rest))) :
    v.HasUniqueKeys := by
  unfold readNumber at h
  dsimp only at h
  split at h
  · cases h
  · split at h
    · rename_i u hu
      cases h
      exact numberValue?_uniqueKeys hu
    · cases h

theorem readAtom_uniqueKeys {cs rest : List Char} {v : Value} (h : readAtom cs = .ok (v, rest)) :
    v.HasUniqueKeys := by
  unfold readAtom at h
  split at h
  · rename_i name u hfind
    cases h
    have hmem := List.mem_of_find?_eq_some hfind
    simp only [names, List.mem_cons, Prod.mk.injEq, List.not_mem_nil, or_false] at hmem
    rcases hmem with h | h | h | h | h | h <;> rw [h.2] <;> exact .scalar nofun nofun
  · cases hnumber : readNumber cs with
    | none =>
        rw [hnumber] at h
        cases h
    | some r =>
        rw [hnumber] at h
        exact readNumber_uniqueKeys (hnumber.trans (congrArg some h))

theorem readers_uniqueKeys (fuel : Nat) :
    (∀ cs v rest, readValue fuel cs = .ok (v, rest) → v.HasUniqueKeys) ∧
    (∀ built cs xs rest, (∀ x ∈ built, x.HasUniqueKeys) → readItems fuel built cs = .ok (xs, rest) →
      ∀ x ∈ xs, x.HasUniqueKeys) ∧
    (∀ built cs es rest, (∀ e ∈ built, e.2.HasUniqueKeys) →
      readMembers fuel built cs = .ok (es, rest) →
      ∀ e ∈ es, e.2.HasUniqueKeys) := by
  induction fuel with
  | zero =>
      refine ⟨fun cs v rest h => ?_, fun built cs xs rest _ h => ?_, fun built cs es rest _ h => ?_⟩
      all_goals cases h
  | succ fuel ih =>
      obtain ⟨ihvalue, ihitems, ihmembers⟩ := ih
      refine ⟨fun cs v rest h => ?_, fun built cs xs rest hbuilt h => ?_,
        fun built cs es rest hbuilt h => ?_⟩
      · unfold readValue at h
        split at h
        · obtain ⟨r, -, hr⟩ := map_eq_ok_iff.mp h
          cases hr
          exact Value.hasUniqueKeys_ofPoints _
        · split at h
          · cases h
            exact .list (fun x hx => absurd hx List.not_mem_nil)
          · obtain ⟨r, hread, hr⟩ := map_eq_ok_iff.mp h
            cases hr
            exact .list (ihitems _ _ _ _ (fun x hx => absurd hx List.not_mem_nil) hread)
        · split at h
          · cases h
            exact .map List.nodup_nil (fun x hx => absurd hx List.not_mem_nil)
          · obtain ⟨r, hread, hr⟩ := map_eq_ok_iff.mp h
            cases hr
            exact hasUniqueKeys_ofEntries
              (ihmembers _ _ _ _ (fun x hx => absurd hx List.not_mem_nil) hread)
        · exact readAtom_uniqueKeys h
      · unfold readItems at h
        split at h
        · cases h
        · rename_i x more hx
          have hnext : ∀ y ∈ x :: built, y.HasUniqueKeys :=
            List.forall_mem_cons.mpr ⟨ihvalue _ _ _ hx, hbuilt⟩
          split at h
          · cases h
            exact fun y hy => hnext y (List.mem_reverse.mp hy)
          · exact ihitems _ _ _ _ hnext h
          · cases h
      · unfold readMembers at h
        split at h
        · split at h
          · cases h
          · split at h
            · split at h
              · cases h
              · rename_i x more hx
                have hnext (k : Value) : ∀ e ∈ (k, x) :: built, e.2.HasUniqueKeys :=
                  List.forall_mem_cons.mpr ⟨ihvalue _ _ _ hx, hbuilt⟩
                dsimp only at h
                split at h
                · cases h
                  exact fun e he => hnext _ e (List.mem_reverse.mp he)
                · exact ihmembers _ _ _ _ (hnext _) h
                · cases h
            · cases h
        · cases h

theorem read_uniqueKeys {source : String} {v : Value} (h : read source = .ok v) :
    v.HasUniqueKeys := by
  unfold read at h
  dsimp only at h
  split at h
  · cases h
  · split at h
    · cases h
    · rename_i u rest hread
      split at h
      · cases h
        exact (readers_uniqueKeys _).1 _ _ _ hread
      · cases h

end Json

namespace Yaml

theorem Scalar.value_uniqueKeys {tag text : String} {v : Value}
    (h : Scalar.value tag text = .ok v) : v.HasUniqueKeys := by
  unfold Scalar.value at h
  split at h
  · cases h
    exact .scalar nofun nofun
  split at h
  · cases h
    exact .scalar nofun nofun
  split at h
  · obtain ⟨x, -, rfl⟩ := map_eq_ok_iff.mp h
    exact .scalar nofun nofun
  split at h
  · obtain ⟨x, -, rfl⟩ := map_eq_ok_iff.mp h
    exact .scalar nofun nofun
  split at h
  · obtain ⟨x, -, rfl⟩ := map_eq_ok_iff.mp h
    exact .scalar nofun nofun
  split at h
  · unfold Scalar.timestamp at h
    dsimp only at h
    split at h
    · cases h
    · split at h
      · cases h
      · cases h
        exact .scalar nofun nofun
    · split at h
      · cases h
      · cases h
      · cases h
      · cases h
        exact .scalar nofun nofun
  split at h
  · unfold Scalar.binary at h
    split at h
    · cases h
    · split at h
      · cases h
        exact .scalar nofun nofun
      · cases h
  · cases h

theorem Scalar.tornValue_uniqueKeys {tag : String} {t : Text.Torn} {v : Value}
    (h : Scalar.tornValue tag t = .ok v) : v.HasUniqueKeys := by
  unfold Scalar.tornValue at h
  split at h
  · cases h
    exact .scalar nofun nofun
  split at h
  · cases h
    exact .scalar nofun nofun
  repeat
    split at h
    · cases h
  cases h

namespace Found

variable {α β : Type} {x : Found α} {y : Found β}

theorem both_eq_ok_iff {r : α × β} : both x y = .ok r ↔ x = .ok r.1 ∧ y = .ok r.2 := by
  cases x <;> cases y <;> simp [both, Prod.ext_iff]

theorem atDepth_eq_ok_iff {depth : Nat} {x : Except Fault α} {a : α} :
    atDepth depth x = .ok a ↔ x = .ok a :=
  mapError_eq_ok_iff

theorem map_both_eq_ok {γ : Type} {f : α × β → γ} {c : γ} (h : (both x y).map f = .ok c) :
    ∃ a b, x = .ok a ∧ y = .ok b ∧ f (a, b) = c := by
  obtain ⟨⟨a, b⟩, hboth, hc⟩ := map_eq_ok_iff.mp h
  obtain ⟨ha, hb⟩ := both_eq_ok_iff.mp hboth
  exact ⟨a, b, ha, hb, hc⟩

end Found

open Found

namespace Node

theorem textValue_uniqueKeys {tag : String} {n : Node} {v : Value}
    (h : textValue tag n = .ok v) : v.HasUniqueKeys := by
  obtain ⟨text, -, h⟩ := bind_eq_ok_iff.mp h
  cases text with
  | inl s => exact Scalar.value_uniqueKeys h
  | inr t => exact Scalar.tornValue_uniqueKeys h

theorem markedValue_uniqueKeys {tag : String} {entries : List (Node × Node)} {v : Value}
    (h : markedValue tag entries = .ok v) : v.HasUniqueKeys := by
  unfold markedValue at h
  split at h
  · cases h
  · split at h
    · obtain ⟨text, -, h⟩ := bind_eq_ok_iff.mp h
      cases h
    · exact textValue_uniqueKeys h

theorem pairValue_uniqueKeys {depth : Nat} {v : Value} :
    ∀ n : Node, pairValue depth n = .ok v → v.HasUniqueKeys := by
  intro n h
  unfold pairValue at h
  split at h
  · obtain ⟨key, value, -, -, rfl⟩ := map_both_eq_ok h
    exact .scalar nofun nofun
  · cases h
    exact .scalar nofun nofun
  · obtain ⟨x, -, rfl⟩ := map_eq_ok_iff.mp h
    exact .scalar nofun nofun
  · cases h

theorem pairValues_uniqueKeys {depth : Nat} {xs : List Value} :
    ∀ ns : List Node, pairValues depth ns = .ok xs → ∀ x ∈ xs, x.HasUniqueKeys
  | [], h => by
      cases h
      exact nofun
  | n :: ns, h => by
      unfold pairValues at h
      obtain ⟨v, vs, hv, hvs, rfl⟩ := map_both_eq_ok h
      exact List.forall_mem_cons.mpr ⟨pairValue_uniqueKeys n hv, pairValues_uniqueKeys ns hvs⟩

theorem joined_uniqueKeys {taken own : Found (List (Value × Value))} {es : List (Value × Value)}
    (htaken : ∀ es, taken = .ok es → ∀ e ∈ es, e.2.HasUniqueKeys)
    (hown : ∀ es, own = .ok es → ∀ e ∈ es, e.2.HasUniqueKeys) (h : joined taken own = .ok es) :
    ∀ e ∈ es, e.2.HasUniqueKeys := by
  obtain ⟨as, bs, has, hbs, rfl⟩ := map_both_eq_ok h
  exact List.forall_mem_append.mpr ⟨htaken as has, hown bs hbs⟩

mutual

theorem toValue_uniqueKeys {depth : Nat} {v : Value} :
    ∀ n : Node, toValue depth n = .ok v → v.HasUniqueKeys
  | scalar tag text, h => Scalar.value_uniqueKeys (atDepth_eq_ok_iff.mp h)
  | torn tag t, h => Scalar.tornValue_uniqueKeys (atDepth_eq_ok_iff.mp h)
  | sequence tag items, h => by
      unfold toValue at h
      split at h
      · obtain ⟨xs, hxs, rfl⟩ := map_eq_ok_iff.mp h
        exact .list (itemValues_uniqueKeys items hxs)
      · split at h
        · obtain ⟨xs, hxs, rfl⟩ := map_eq_ok_iff.mp h
          exact .list (pairValues_uniqueKeys items hxs)
        · split at h <;> cases h
  | mapping tag entries, h => by
      unfold toValue at h
      split at h
      · split at h
        · obtain ⟨es, hes, rfl⟩ := map_eq_ok_iff.mp h
          dsimp only
          split
          · refine hasUniqueKeys_ofEntries (joined_uniqueKeys ?_ ?_ hes)
            · exact fun _ => takenOver_uniqueKeys entries
            · exact fun _ => ownValues_uniqueKeys entries
          · exact .scalar nofun nofun
        · cases h
      · split at h
        · cases h
        · exact markedValue_uniqueKeys (atDepth_eq_ok_iff.mp h)
  | knot n, h => by
      unfold toValue at h
      obtain ⟨u, -, rfl⟩ := map_eq_ok_iff.mp h
      exact .scalar nofun nofun
  | loop _, h => by cases h

theorem itemValues_uniqueKeys {depth : Nat} {xs : List Value} :
    ∀ ns : List Node, itemValues depth ns = .ok xs → ∀ x ∈ xs, x.HasUniqueKeys
  | [], h => by
      cases h
      exact nofun
  | n :: ns, h => by
      unfold itemValues at h
      obtain ⟨v, vs, hv, hvs, rfl⟩ := map_both_eq_ok h
      exact List.forall_mem_cons.mpr ⟨toValue_uniqueKeys n hv, itemValues_uniqueKeys ns hvs⟩

theorem takenOver_uniqueKeys {depth : Nat} {fs : List (Value × Value)} :
    ∀ es : List (Node × Node), takenOver depth es = .ok fs → ∀ e ∈ fs, e.2.HasUniqueKeys
  | [], h => by
      cases h
      exact nofun
  | (k, v) :: es, h => by
      unfold takenOver at h
      split at h
      · refine joined_uniqueKeys ?_ ?_ h
        · exact fun _ => sourceValues_uniqueKeys v
        · exact fun _ => takenOver_uniqueKeys es
      · exact takenOver_uniqueKeys es h

theorem sourceValues_uniqueKeys {depth : Nat} {fs : List (Value × Value)} :
    ∀ n : Node, sourceValues depth n = .ok fs → ∀ e ∈ fs, e.2.HasUniqueKeys
  | mapping _ entries, h => by
      refine joined_uniqueKeys ?_ ?_ h
      · exact fun _ => takenOver_uniqueKeys entries
      · exact fun _ => ownValues_uniqueKeys entries
  | sequence _ items, h => sourcesValues_uniqueKeys items h
  | knot n, h => sourceValues_uniqueKeys n h
  | scalar .., h => by
      cases h
      exact nofun
  | torn .., h => by
      cases h
      exact nofun
  | loop _, h => by
      cases h
      exact nofun

theorem sourcesValues_uniqueKeys {depth : Nat} {fs : List (Value × Value)} :
    ∀ ns : List Node, sourcesValues depth ns = .ok fs → ∀ e ∈ fs, e.2.HasUniqueKeys
  | [], h => by
      cases h
      exact nofun
  | n :: ns, h => by
      unfold sourcesValues at h
      refine joined_uniqueKeys ?_ ?_ h
      · exact fun _ => sourcesValues_uniqueKeys ns
      · exact fun _ => sourceValues_uniqueKeys n

theorem ownValues_uniqueKeys {depth : Nat} {fs : List (Value × Value)} :
    ∀ es : List (Node × Node), ownValues depth es = .ok fs → ∀ e ∈ fs, e.2.HasUniqueKeys
  | [], h => by
      cases h
      exact nofun
  | (k, v) :: es, h => by
      unfold ownValues at h
      split at h
      · exact ownValues_uniqueKeys es h
      · obtain ⟨⟨⟨key, u⟩, value⟩, rest, hfirst, hrest, rfl⟩ := map_both_eq_ok h
        obtain ⟨-, hvalue⟩ := both_eq_ok_iff.mp hfirst
        exact List.forall_mem_cons.mpr ⟨toValue_uniqueKeys v hvalue, ownValues_uniqueKeys es hrest⟩

end

end Node

theorem read_uniqueKeys {text : String} {v : Value} (h : read text = .ok v) : v.HasUniqueKeys := by
  unfold read at h
  obtain ⟨n, -, h⟩ := bind_eq_ok_iff.mp h
  split at h
  · cases h
    exact .scalar nofun nofun
  · rename_i n
    exact Node.toValue_uniqueKeys n (mapError_eq_ok_iff.mp h)

end Yaml

namespace ConfigFile

variable {fs : FileSystem} {path : String}

theorem leadsToEntry_of_readText {content : Content} (h : fs.readText path = .ok content) :
    fs.leadsToEntry path = true := by
  unfold FileSystem.leadsToEntry
  unfold FileSystem.readText at h
  cases hentry : fs.entryOfText path with
  | error fault =>
      rw [hentry] at h
      cases h
  | ok e => rfl

theorem document_of_readText {bs : List UInt8} (h : fs.readText path = .ok (.bytes bs)) :
    document fs path = documentOf path bs := by
  rw [document, leadsToEntry_of_readText h, h]
  rfl

/-- Whatever a configuration file stands for, no text key comes twice in a mapping of it. -/
theorem documentOf_uniqueKeys {path : String} {bs : List UInt8} {v : Value}
    (h : documentOf path bs = .ok v) :
    v.HasUniqueKeys := by
  unfold documentOf at h
  obtain ⟨text, -, h⟩ := bind_eq_ok_iff.mp h
  unfold parse at h
  split at h
  · split at h
    · rename_i u hread
      cases h
      exact Json.read_uniqueKeys hread
    · split at h <;> cases h
  · split at h
    · rename_i u hread
      cases h
      split
      · exact Yaml.read_uniqueKeys hread
      · exact .map List.nodup_nil nofun
    · cases h
    · cases h

end ConfigFile

end ImportAudit
