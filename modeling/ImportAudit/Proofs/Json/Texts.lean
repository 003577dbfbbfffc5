import ImportAudit.Json.Print
import ImportAudit.Proofs.Sequencing

/-!
# Values with a text

Whether a value has a text in JSON does not depend on how it is laid out. A value that has one in
ASCII lacks one in the characters themselves only where a text in it is torn.
-/

namespace ImportAudit.Json

mutual

def hasText (ascii : Bool) : Value → Bool
  | .int n => !(Value.int n).isLong
  | .torn _ => ascii
  | .date .. | .moment _ | .bytes _ | .set _ | .knot _ => false
  | .list xs => itemsHaveText ascii xs
  | .tuple xs => itemsHaveText ascii xs
  | .map es => membersHaveText ascii es
  | _ => true

def itemsHaveText (ascii : Bool) : List Value → Bool
  | [] => true
  | x :: xs => hasText ascii x && itemsHaveText ascii xs

def membersHaveText (ascii : Bool) : List (Value × Value) → Bool
  | [] => true
  | (k, v) :: es =>
      (keyFault? k).isNone && (keyText ascii k).isOk && hasText ascii v && membersHaveText ascii es

end

open Writing

section

variable (start : String) (v : Value) (w w' : Writing)

theorem isOk_after : (after start w).isOk = w.isOk := by
  cases w <;> rfl

theorem isOk_setOff : (setOff start v w).isOk = w.isOk := by
  unfold setOff
  split
  · rfl
  · exact isOk_after start w

theorem isOk_andThen : (andThen w w').isOk = (w.isOk && w'.isOk) := by
  cases w with
  | error e => rfl
  | ok s => exact isOk_after s w'

end

theorem isOk_tornText (ascii : Bool) (t : Text.Torn) : (tornText ascii t).isOk = ascii := by
  cases ascii <;> rfl

mutual

theorem isOk_write (st : Style) (level : Nat) : ∀ v, (write st level v).isOk = hasText st.ascii v
  | .null => rfl
  | .bool _ => rfl
  | .int n => by
      rw [write, hasText, intText]
      cases (Value.int n).isLong <;> rfl
  | .float _ => rfl
  | .str _ => rfl
  | .torn t => isOk_tornText st.ascii t
  | .date .. => rfl
  | .moment _ => rfl
  | .bytes _ => rfl
  | .list xs => by rw [write, hasText, isOk_writeList st level xs]
  | .tuple xs => by rw [write, hasText, isOk_writeList st level xs]
  | .set _ => rfl
  | .map [] => rfl
  | .map ((k, v) :: es) => by
      rw [write, isOk_andThen, isOk_andThen, isOk_after, writeMember,
        isOk_writeMembers st (level + 1) es, hasText, membersHaveText]
      cases keyFault? k with
      | some f => rfl
      | none =>
          dsimp only
          rw [isOk_andThen, isOk_after, isOk_write st (level + 1) v]
          simp [Except.isOk, Except.toBool, Bool.and_assoc]
  | .knot _ => rfl

theorem isOk_writeList (st : Style) (level : Nat) :
    ∀ xs, (writeList st level xs).isOk = itemsHaveText st.ascii xs
  | [] => rfl
  | x :: xs => by
      rw [writeList, isOk_andThen, isOk_andThen, isOk_setOff, isOk_write st (level + 1) x,
        isOk_writeItems st (level + 1) xs, itemsHaveText]
      exact congrArg _ (Bool.and_true _)

theorem isOk_writeItems (st : Style) (level : Nat) :
    ∀ xs, (writeItems st level xs).isOk = itemsHaveText st.ascii xs
  | [] => rfl
  | x :: xs => by
      rw [writeItems, isOk_andThen, isOk_setOff, isOk_write st level x, isOk_writeItems st level xs,
        itemsHaveText]

theorem isOk_writeMembers (st : Style) (level : Nat) :
    ∀ es, (writeMembers st level es).isOk = membersHaveText st.ascii es
  | [] => rfl
  | (k, v) :: es => by
      rw [writeMembers, membersHaveText]
      cases keyFault? k with
      | some f => rfl
      | none =>
          dsimp only
          rw [isOk_andThen, isOk_after, isOk_andThen, isOk_after, isOk_write st level v,
            isOk_writeMembers st level es]
          simp

end

theorem itemsHaveText_iff {ascii : Bool} {xs : List Value} :
    itemsHaveText ascii xs = true ↔ ∀ x ∈ xs, hasText ascii x = true := by
  induction xs with
  | nil => simp [itemsHaveText]
  | cons x xs ih => simp [itemsHaveText, ih]

theorem membersHaveText_iff {ascii : Bool} {es : List (Value × Value)}
    (h : ∀ e ∈ es, ∃ s, e.1 = .str s) :
    membersHaveText ascii es = true ↔ ∀ e ∈ es, hasText ascii e.2 = true := by
  induction es with
  | nil => simp [membersHaveText]
  | cons e es ih =>
      obtain ⟨k, v⟩ := e
      obtain ⟨s, rfl⟩ := h (k, v) List.mem_cons_self
      have hkey : ((keyFault? (.str s)).isNone && (keyText ascii (.str s)).isOk) = true := rfl
      rw [membersHaveText, hkey, Bool.true_and, Bool.and_eq_true, ih fun e he =>
        h e (List.mem_cons_of_mem _ he)]
      simp

/-! ## Texts without an encoding -/

/-- What is written in the characters themselves, beside what is written in ASCII: where the second
has a text, the first lacks one only because it is torn. -/
def Torn (ascii chars : Writing) : Prop :=
  (ascii.isOk = true → FailsOnly (fun e => ∃ halves, e.2 = .torn halves) chars) ∧
    (chars.isOk = true → ascii.isOk = true)

namespace Torn

variable {a b a' b' : Writing}

theorem same (a : Writing) : Torn a a := by
  refine ⟨fun h e he => ?_, id⟩
  rw [he] at h
  cases h

theorem ok {s t : String} : Torn (.ok s) (.ok t) :=
  ⟨fun _ => .ok t, fun _ => rfl⟩

theorem after (h : Torn a b) (s t : String) : Torn (Writing.after s a) (Writing.after t b) := by
  refine ⟨fun ha e he => ?_, fun hb => ?_⟩
  · rw [isOk_after] at ha
    cases b with
    | ok u => cases he
    | error e' =>
        cases he
        exact h.1 ha e' rfl
  · rw [isOk_after] at hb ⊢
    exact h.2 hb

theorem setOff (h : Torn a b) (mark mark' : String) (v : Value) :
    Torn (Writing.setOff mark v a) (Writing.setOff mark' v b) := by
  unfold Writing.setOff
  split
  · exact h
  · exact h.after mark mark'

theorem andThen (h : Torn a b) (h' : Torn a' b') :
    Torn (Writing.andThen a a') (Writing.andThen b b') := by
  refine ⟨fun ha => ?_, fun hb => ?_⟩
  · rw [isOk_andThen, Bool.and_eq_true] at ha
    cases b with
    | error e => exact .error (h.1 ha.1 e rfl)
    | ok s => exact (h'.after s s).1 (by rw [isOk_after]; exact ha.2)
  · rw [isOk_andThen, Bool.and_eq_true] at hb ⊢
    exact ⟨h.2 hb.1, h'.2 hb.2⟩

theorem tornText (t : Text.Torn) : Torn (Json.tornText true t) (Json.tornText false t) :=
  ⟨fun _ => .error ⟨t.halves, rfl⟩, fun h => by cases h⟩

theorem keyText (k : Value) : Torn (Json.keyText true k) (Json.keyText false k) := by
  cases k with
  | torn t => exact tornText t
  | _ => exact ok

end Torn

mutual

theorem torn_write (indent : Option String) (level : Nat) :
    ∀ v, Torn (write ⟨indent, true⟩ level v) (write ⟨indent, false⟩ level v)
  | .null => .same _
  | .bool _ => .same _
  | .int _ => .same _
  | .float _ => .same _
  | .str _ => .ok
  | .torn t => .tornText t
  | .date .. => .same _
  | .moment _ => .same _
  | .bytes _ => .same _
  | .list xs => torn_writeList indent level xs
  | .tuple xs => torn_writeList indent level xs
  | .set _ => .same _
  | .map [] => .same _
  | .map ((k, v) :: es) => by
      rw [write, write]
      refine .andThen (.after ?_ _ _) (.andThen (torn_writeMembers indent (level + 1) es) .ok)
      rw [writeMember, writeMember]
      cases keyFault? k with
      | some f => exact .same _
      | none => exact .andThen (.keyText k) ((torn_write indent (level + 1) v).after _ _)
  | .knot _ => .same _

theorem torn_writeList (indent : Option String) (level : Nat) :
    ∀ xs, Torn (writeList ⟨indent, true⟩ level xs) (writeList ⟨indent, false⟩ level xs)
  | [] => .same _
  | x :: xs => by
      rw [writeList, writeList]
      exact .andThen ((torn_write indent (level + 1) x).setOff _ _ x)
        (.andThen (torn_writeItems indent (level + 1) xs) .ok)

theorem torn_writeItems (indent : Option String) (level : Nat) :
    ∀ xs, Torn (writeItems ⟨indent, true⟩ level xs) (writeItems ⟨indent, false⟩ level xs)
  | [] => .same _
  | x :: xs => by
      rw [writeItems, writeItems]
      exact .andThen ((torn_write indent level x).setOff _ _ x) (torn_writeItems indent level xs)

theorem torn_writeMembers (indent : Option String) (level : Nat) :
    ∀ es, Torn (writeMembers ⟨indent, true⟩ level es) (writeMembers ⟨indent, false⟩ level es)
  | [] => .same _
  | (k, v) :: es => by
      rw [writeMembers, writeMembers]
      cases keyFault? k with
      | some f => exact .same _
      | none =>
          exact .andThen
            (.after (.andThen (.keyText k) ((torn_write indent level v).after _ _)) _ _)
            (torn_writeMembers indent level es)

end

/-- A text in the characters themselves needs none in ASCII. -/
theorem printCharacters_of_print {indent : Option String} {v : Value} {s : String}
    (h : print ⟨indent, false⟩ v = .ok s) : printCharacters indent v = .ok (.ok s) := by
  have hascii := (torn_write indent 0 v).2 (congrArg Except.isOk h)
  unfold printCharacters print at *
  cases hwrite : write ⟨indent, true⟩ 0 v with
  | error e =>
      rw [hwrite] at hascii
      cases hascii
  | ok t =>
      dsimp only
      rw [h]

theorem printCharacters_cases (indent : Option String) (v : Value) :
    (hasText false v = true ∧ ∃ s, print ⟨indent, false⟩ v = .ok s ∧
      printCharacters indent v = .ok (.ok s)) ∨
    (hasText true v = true ∧ hasText false v = false ∧ ∃ e,
      printCharacters indent v = .ok (.error e)) ∨
    (hasText true v = false ∧ hasText false v = false ∧
      ∃ s f, printCharacters indent v = .error (WriteFault.failure s f)) := by
  have hascii := isOk_write ⟨indent, true⟩ 0 v
  have hchars := isOk_write ⟨indent, false⟩ 0 v
  obtain ⟨htorn, hsame⟩ := torn_write indent 0 v
  unfold printCharacters print
  generalize write ⟨indent, true⟩ 0 v = a at *
  generalize write ⟨indent, false⟩ 0 v = b at *
  rw [← hascii, ← hchars]
  cases a with
  | error e =>
      obtain ⟨s, f⟩ := e
      refine .inr (.inr ⟨rfl, Bool.eq_false_iff.mpr fun hok => ?_, s, f, rfl⟩)
      cases hsame hok
  | ok s =>
      cases b with
      | ok t => exact .inl ⟨rfl, t, rfl, rfl⟩
      | error e =>
          obtain ⟨t, f⟩ := e
          obtain ⟨halves, rfl⟩ := htorn rfl _ rfl
          exact .inr (.inl ⟨rfl, rfl, _, rfl⟩)

end ImportAudit.Json
