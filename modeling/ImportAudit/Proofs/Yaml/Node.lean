import ImportAudit.Proofs.Value
import ImportAudit.Proofs.Yaml.Leaf
import ImportAudit.Yaml.Read

/-!
# Values of tokens

Which tokens stand for a value: those of a text, of an empty sequence, of a sequence that is not
indented, and of a mapping. They are read as the value whatever follows them.
-/

namespace ImportAudit.Yaml.Node

def Input.before (i : Input) (ts : List Token) : Input := { i with tokens := ts }

variable {i : Input} {ts rest : List Token} {fuel : Nat} {place : Place}

/-! ## Single nodes -/

theorem read_scalar {text : String} {plain : Bool} :
    read (fuel + 1) place (i.before (.scalar text plain :: rest)) =
      .ok (.scalar (readTag text plain) text, i.before rest) := by
  cases plain <;> rfl

theorem read_brackets :
    read (fuel + 2) place (i.before (.flowSequenceStart :: .flowSequenceEnd :: rest)) =
      .ok (.sequence (standard "seq") [], i.before rest) :=
  rfl

theorem read_mapping {es : List (Node × Node)} (hplace : place ≠ .flow)
    (h : readBlockEntries fuel (i.before ts) = .ok (es, i.before rest)) :
    read (fuel + 1) place (i.before (.blockMappingStart :: ts)) =
      .ok (.mapping (standard "map") es, i.before rest) := by
  unfold read
  show (if place = .flow then _ else Except.bind (readBlockEntries fuel (i.before ts)) _) = _
  rw [if_neg hplace, h]
  rfl

theorem read_indentless {ns : List Node}
    (h : readIndentlessItems fuel (i.before (.blockEntry :: ts)) = .ok (ns, i.before rest)) :
    read (fuel + 1) .indentless (i.before (.blockEntry :: ts)) =
      .ok (.sequence (standard "seq") ns, i.before rest) := by
  unfold read
  show Except.bind (readIndentlessItems fuel (i.before (.blockEntry :: ts))) _ = _
  rw [h]
  rfl

/-! ## Items -/

inductive ItemTokens : List Token → List Value → Prop
  | nil : ItemTokens [] []
  | cons {text : String} {plain : Bool} {v : Value} {ts : List Token} {vs : List Value}
      (hv : Scalar.value (readTag text plain) text = .ok v) (h : ItemTokens ts vs) :
      ItemTokens (.blockEntry :: .scalar text plain :: ts) (v :: vs)

theorem readIndentlessItems_of_itemTokens {vs : List Value} (h : ItemTokens ts vs)
    (hrest : rest.head? ≠ some .blockEntry) (hfuel : ts.length + 2 ≤ fuel) :
    ∃ ns, readIndentlessItems fuel (i.before (ts ++ rest)) = .ok (ns, i.before rest) ∧
      ∀ depth, itemValues depth ns = .ok vs := by
  induction h generalizing fuel with
  | nil =>
      obtain ⟨fuel, rfl⟩ : ∃ n, fuel = n + 1 := ⟨fuel - 1, by omega⟩
      refine ⟨[], ?_, fun _ => rfl⟩
      cases rest with
      | nil => rfl
      | cons t rest =>
          cases t with
          | blockEntry => exact absurd rfl hrest
          | _ => rfl
  | @cons text plain v ts vs hv h ih =>
      simp only [List.length_cons] at hfuel
      obtain ⟨fuel, rfl⟩ : ∃ n, fuel = n + 3 := ⟨fuel - 3, by omega⟩
      obtain ⟨ns, hread, hvalues⟩ := @ih (fuel + 2) (by omega)
      refine ⟨.scalar (readTag text plain) text :: ns, ?_, ?_⟩
      · rw [readIndentlessItems]
        show Except.bind (readUnless (fuel + 2) .block _
            (i.before (.scalar text plain :: (ts ++ rest)))) _ = _
        have hitem : readUnless (fuel + 2) .block [.blockEntry, .key, .value, .blockEnd]
            (i.before (.scalar text plain :: (ts ++ rest))) =
              .ok (.scalar (readTag text plain) text, i.before (ts ++ rest)) :=
          read_scalar
        rw [hitem]
        show Except.bind (readIndentlessItems (fuel + 2) (i.before (ts ++ rest))) _ = _
        rw [hread]
        rfl
      · intro depth
        rw [itemValues, toValue, hv, hvalues]
        rfl

/-! ## Values -/

/-- Tokens that are read as a value after a key. -/
structure Stands (ts : List Token) (v : Value) : Prop where
  starts : ∃ t ts', ts = t :: ts' ∧ [Token.key, .value, .blockEnd].contains t = false
  reads {i : Input} {rest : List Token} {fuel : Nat} (hrest : rest.head? ≠ some .blockEntry)
    (hfuel : ts.length + 3 ≤ fuel) :
    ∃ n, read fuel .indentless (i.before (ts ++ rest)) = .ok (n, i.before rest) ∧
      ∀ depth, n.toValue depth = .ok v

theorem Stands.scalar {text : String} {plain : Bool} {v : Value}
    (h : Scalar.value (readTag text plain) text = .ok v) :
    Stands [.scalar text plain] v where
  starts := ⟨_, _, rfl, rfl⟩
  reads {i rest fuel} _ hfuel := by
    obtain ⟨fuel, rfl⟩ : ∃ n, fuel = n + 1 := ⟨fuel - 1, by omega⟩
    refine ⟨_, read_scalar, fun depth => ?_⟩
    rw [toValue, h]
    rfl

theorem Stands.brackets : Stands [.flowSequenceStart, .flowSequenceEnd] (.list []) where
  starts := ⟨_, _, rfl, rfl⟩
  reads {i rest fuel} _ hfuel := by
    obtain ⟨fuel, rfl⟩ : ∃ n, fuel = n + 2 := ⟨fuel - 2, by omega⟩
    exact ⟨_, read_brackets, fun _ => rfl⟩

theorem Stands.items {vs : List Value} (h : ItemTokens ts vs) (hne : vs ≠ []) :
    Stands ts (.list vs) where
  starts := by
    cases h with
    | nil => exact absurd rfl hne
    | cons hv h => exact ⟨_, _, rfl, rfl⟩
  reads {i rest fuel} hrest hfuel := by
    obtain ⟨fuel, rfl⟩ : ∃ n, fuel = n + 1 := ⟨fuel - 1, by omega⟩
    have hlength : ts.length + 2 ≤ fuel := by omega
    obtain ⟨ns, hread, hvalues⟩ := readIndentlessItems_of_itemTokens (i := i) h hrest hlength
    refine ⟨.sequence (standard "seq") ns, ?_, ?_⟩
    · cases h with
      | nil => exact absurd rfl hne
      | cons hv h => exact read_indentless hread
    · intro depth
      rw [toValue, hvalues]
      rfl

/-! ## Entries -/

inductive EntryTokens : List Token → List (Value × Value) → Prop
  | nil : EntryTokens [] []
  | cons {k : String} {v : Value} {ts ts' : List Token} {es : List (Value × Value)}
      (hk : Scalar.implicitTag k = standard "str") (hv : Stands ts v) (h : EntryTokens ts' es) :
      EntryTokens (.key :: .scalar k true :: .value :: (ts ++ ts')) ((.str k, v) :: es)

variable (fuel) in
theorem Stands.readUnless {v : Value} (h : Stands ts v) (hrest : rest.head? ≠ some .blockEntry)
    (hfuel : ts.length + 3 ≤ fuel) :
    ∃ n, readUnless (fuel + 1) .indentless [.key, .value, .blockEnd] (i.before (ts ++ rest)) =
        .ok (n, i.before rest) ∧
      ∀ depth, n.toValue depth = .ok v := by
  obtain ⟨n, hread, hvalue⟩ := h.reads (i := i) hrest hfuel
  obtain ⟨t, ts, rfl, ht⟩ := h.starts
  refine ⟨n, ?_, hvalue⟩
  rw [Node.readUnless]
  exact (if_neg (Bool.eq_false_iff.mp ht)).trans hread

variable (rest fuel) in
theorem readBlockEntries_of_entryTokens {es : List (Value × Value)} (h : EntryTokens ts es)
    (hfuel : ts.length + 4 ≤ fuel) :
    ∃ ns, readBlockEntries fuel (i.before (ts ++ .blockEnd :: rest)) = .ok (ns, i.before rest) ∧
      mergesFit ns = true ∧
      ∀ depth, takenOver depth ns = .ok [] ∧ ownValues depth ns = .ok es := by
  induction h generalizing fuel with
  | nil =>
      obtain ⟨fuel, rfl⟩ : ∃ n, fuel = n + 1 := ⟨fuel - 1, by omega⟩
      exact ⟨[], rfl, rfl, fun _ => ⟨rfl, rfl⟩⟩
  | @cons k v ts ts' es hk hv h ih =>
      simp only [List.length_cons, List.length_append] at hfuel
      obtain ⟨fuel, rfl⟩ : ∃ n, fuel = n + 3 := ⟨fuel - 3, by omega⟩
      -- After the value come the next key or the end, and no item.
      have hnext : (ts' ++ .blockEnd :: rest).head? ≠ some .blockEntry := by
        cases h <;> exact fun heq => Token.noConfusion (Option.some.inj heq)
      obtain ⟨n, hread, hvalue⟩ := hv.readUnless (fuel + 1) (i := i) hnext (by omega)
      obtain ⟨ns, hmore, hfit, hvalues⟩ := @ih (fuel + 2) (by omega)
      refine ⟨(.scalar (standard "str") k, n) :: ns, ?_, hfit, fun depth => ⟨?_, ?_⟩⟩
      · have hkey : readUnless (fuel + 2) .indentless [.key, .value, .blockEnd]
            (i.before (.scalar k true :: .value :: (ts ++ (ts' ++ .blockEnd :: rest)))) =
            .ok (.scalar (standard "str") k,
              i.before (.value :: (ts ++ (ts' ++ .blockEnd :: rest)))) := by
          rw [← hk]
          exact read_scalar
        rw [List.cons_append, List.cons_append, List.cons_append, List.append_assoc,
          readBlockEntries]
        show Except.bind (readUnless (fuel + 2) .indentless _ (i.before (.scalar k true :: _))) _ =
            _
        rw [hkey]
        show Except.bind (readUnless (fuel + 2) .indentless _ (i.before (ts ++ _))) _ = _
        rw [hread]
        show Except.bind (readBlockEntries (fuel + 2) (i.before (ts' ++ .blockEnd :: rest))) _ = _
        rw [hmore]
        rfl
      · rw [takenOver]
        exact (hvalues depth).1
      · rw [ownValues, hvalue, (hvalues depth).2]
        rfl

theorem EntryTokens.keys {es : List (Value × Value)} (h : EntryTokens ts es) :
    ∀ e ∈ es, ∃ s, e.1 = .str s := by
  induction h with
  | nil => exact fun e he => absurd he List.not_mem_nil
  | cons hk hv h ih => exact List.forall_mem_cons.mpr ⟨⟨_, rfl⟩, ih⟩

variable (rest fuel place) in
theorem read_of_entryTokens {es : List (Value × Value)} (h : EntryTokens ts es)
    (honce : (Value.textKeys es).Nodup) (hplace : place ≠ .flow) (hfuel : ts.length + 5 ≤ fuel) :
    ∃ n, read fuel place (i.before (.blockMappingStart :: (ts ++ .blockEnd :: rest))) =
        .ok (n, i.before rest) ∧
      ∀ depth, n.toValue depth = .ok (.map es) := by
  obtain ⟨fuel, rfl⟩ : ∃ n, fuel = n + 1 := ⟨fuel - 1, by omega⟩
  obtain ⟨ns, hread, hfit, hvalues⟩ :=
    readBlockEntries_of_entryTokens rest fuel (i := i) h (by omega)
  refine ⟨.mapping (standard "map") ns, read_mapping hplace hread, fun depth => ?_⟩
  rw [toValue, hfit, (hvalues (depth + 1)).1, (hvalues (depth + 1)).2]
  show Except.ok (Value.map (Value.ofEntries es)) = _
  rw [Value.ofEntries_eq_self h.keys honce]

theorem Stands.mapping {es : List (Value × Value)} (h : EntryTokens ts es)
    (honce : (Value.textKeys es).Nodup) :
    Stands (.blockMappingStart :: (ts ++ [.blockEnd])) (.map es) where
  starts := ⟨_, _, rfl, rfl⟩
  reads {i rest fuel} hrest hfuel := by
    simp only [List.length_cons, List.length_append, List.length_nil] at hfuel
    rw [List.cons_append, List.append_assoc]
    exact read_of_entryTokens _ _ _ h honce (fun heq => by cases heq) (by omega)

end ImportAudit.Yaml.Node
