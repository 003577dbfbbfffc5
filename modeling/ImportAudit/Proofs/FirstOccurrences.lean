import Mathlib.Data.List.Induction
import Mathlib.Data.List.Nodup

/-!
# Names without their repetitions

Of names that repeat, the first occurrence of each is kept.
-/

namespace ImportAudit

/-- Names kept from a list, each once, in the order in which they first come. -/
structure FirstOccurrences (names kept : List String) : Prop where
  mem_iff : ∀ name, name ∈ kept ↔ name ∈ names
  ordered : kept.Pairwise fun a b => names.idxOf a < names.idxOf b

theorem FirstOccurrences.nodup {names kept : List String} (h : FirstOccurrences names kept) :
    kept.Nodup := by
  refine h.ordered.imp fun hlt => ?_
  rintro rfl
  exact Nat.lt_irrefl _ hlt

theorem eraseDups_of_nodup {names : List String} (h : names.Nodup) : names.eraseDups = names := by
  induction names with
  | nil => rfl
  | cons name names ih =>
      obtain ⟨hnew, hnodup⟩ := List.nodup_cons.mp h
      have hothers : names.filter (fun other => !other == name) = names := by
        refine List.filter_eq_self.mpr fun other hother => ?_
        have hne : other ≠ name := fun heq => hnew (heq ▸ hother)
        simpa using hne
      rw [List.eraseDups_cons, hothers, ih hnodup]

theorem eraseDups_append_of_subset {names more : List String} (h : ∀ name ∈ more, name ∈ names) :
    (names ++ more).eraseDups = names.eraseDups := by
  have hnone : more.removeAll names = [] := by
    refine List.filter_eq_nil_iff.mpr fun name hname => ?_
    simpa using h name hname
  rw [List.eraseDups_append, hnone]
  simp

theorem firstOccurrences_eraseDups (names : List String) :
    FirstOccurrences names names.eraseDups := by
  refine ⟨fun name => List.mem_eraseDups, ?_⟩
  induction names using List.reverseRecOn with
  | nil => exact List.Pairwise.nil
  | append_singleton names name ih =>
      -- What came before the last name first comes at the same place.
      have hbefore : names.eraseDups.Pairwise fun a b =>
          (names ++ [name]).idxOf a < (names ++ [name]).idxOf b := by
        refine ih.imp_of_mem fun {a b} ha hb hlt => ?_
        rwa [List.idxOf_append_of_mem (List.mem_eraseDups.mp ha),
          List.idxOf_append_of_mem (List.mem_eraseDups.mp hb)]
      by_cases hold : name ∈ names
      · rwa [eraseDups_append_of_subset (by simpa using hold)]
      · have hnew : [name].removeAll names = [name] := by simp [List.removeAll, hold]
        rw [List.eraseDups_append, hnew]
        refine List.pairwise_append.mpr ⟨hbefore, List.pairwise_singleton _ _, fun a ha b hb => ?_⟩
        obtain rfl : b = name := List.mem_singleton.mp hb
        have ha := List.mem_eraseDups.mp ha
        rw [List.idxOf_append_of_mem ha, List.idxOf_append_of_notMem hold]
        exact Nat.lt_of_lt_of_le (List.idxOf_lt_length_of_mem ha) (Nat.le_add_right _ _)

end ImportAudit
