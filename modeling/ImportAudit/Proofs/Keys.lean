import ImportAudit.Proofs.Decimal.Double
import ImportAudit.Proofs.Value

/-!
# Keys of mappings

Any value can be a key that has no list, set or mapping in it. Two keys are the same if
they stand for the same: numbers of all types by their value, points in time with a
known offset by the instant, tuples item by item. So sameness of keys is an equivalence,
and a mapping is read through it.
-/

namespace ImportAudit

/-! ## The value of a number -/

namespace Double

def rational (negative : Bool) (mantissa : Nat) (exponent : Int) : ℚ :=
  let size : ℚ := mantissa * 2 ^ exponent
  if negative then -size else size

theorem signed_mul (negative : Bool) (n k : Nat) :
    signed negative (n * k) = signed negative n * k := by
  cases negative <;> simp [signed]

theorem rational_eq_div (negative : Bool) (m : Nat) (e : Int) :
    rational negative m e = (signed negative (quotient m e).1 : ℚ) / (quotient m e).2 := by
  unfold rational signed
  rw [← (quotient_spec m e).2]
  cases negative <;> simp [neg_div]

theorem eq_finite_iff {a b : Bool} {m n : Nat} {e f : Int} :
    eq (finite a m e) (finite b n f) = true ↔ rational a m e = rational b n f := by
  have hq : ((quotient m e).2 : ℚ) ≠ 0 := by exact_mod_cast (quotient_spec m e).1.ne'
  have hs : ((quotient n f).2 : ℚ) ≠ 0 := by exact_mod_cast (quotient_spec n f).1.ne'
  have heq : eq (finite a m e) (finite b n f) = true ↔
      signed a ((quotient m e).1 * (quotient n f).2) =
        signed b ((quotient n f).1 * (quotient m e).2) := by
    have hlt (x y : Int) : (!decide (x < y) && !decide (y < x)) = true ↔ x = y := by
      simp
      omega
    exact hlt _ _
  rw [heq, rational_eq_div, rational_eq_div, div_eq_div_iff hq hs, signed_mul, signed_mul]
  exact_mod_cast Iff.rfl

end Double

namespace Value

/-! ## What keys stand for -/

/-- What keys are told apart by. -/
inductive KeyForm
  | number (q : ℚ)
  | infinity (negative : Bool)
  | nan
  | instant (known : Bool) (n : Int)
  | tuple (items : List KeyForm)
  | other (v : Value)

def Number.form : Number → KeyForm
  | .whole n => .number n
  | .real (.finite negative m e) => .number (Double.rational negative m e)
  | .real (.infinity negative) => .infinity negative
  | .real .nan => .nan

def scalarForm : Value → KeyForm
  | moment m => .instant m.offset.isSome m.instant
  | v => .other v

mutual

def form : Value → KeyForm
  | tuple xs => .tuple (forms xs)
  | v => (v.number?.map Number.form).getD v.scalarForm

def forms : List Value → List KeyForm
  | [] => []
  | x :: xs => form x :: forms xs

end

/-- Whether a value is no tuple, so that it stands for something on its own. -/
def isPlain : Value → Bool
  | tuple _ => false
  | _ => true

theorem form_of_plain {v : Value} (h : v.isPlain = true) :
    v.form = (v.number?.map Number.form).getD v.scalarForm := by
  cases v <;> first | rfl | cases h

theorem tuple_induction {P : Value → Prop} (plain : ∀ v, v.isPlain = true → P v)
    (tuple : ∀ xs, (∀ x ∈ xs, P x) → P (tuple xs)) (v : Value) : P v := by
  by_cases h : v.isPlain = true
  · exact plain v h
  · obtain ⟨xs, rfl⟩ : ∃ xs, v = .tuple xs := by cases v <;> simp [isPlain] at h ⊢
    exact tuple xs fun x _ => tuple_induction plain tuple x
termination_by v

theorem form_of_number {v : Value} {x : Number} (h : v.number? = some x) : v.form = x.form := by
  rw [form_of_plain (by cases v <;> first | rfl | cases h), h]
  rfl

theorem Number.exact_iff_form {z : Int} {x : Double} : Number.eq.exact z x = true ↔
    Number.form (.real x) = .number z := by
  cases x with
  | finite negative m e =>
      have hq : ((Double.quotient m e).2 : ℚ) ≠ 0 := by
        exact_mod_cast (Double.quotient_spec m e).1.ne'
      rw [Number.eq.exact, decide_eq_true_iff, Number.form, KeyForm.number.injEq,
        Double.rational_eq_div, div_eq_iff hq]
      exact_mod_cast Iff.rfl
  | _ => simp [Number.eq.exact, Number.form]

theorem Number.eq_iff_form {x y : Number} : x.eq y = true ↔ x.form = y.form := by
  cases x with
  | whole a =>
      cases y with
      | whole b => simp [Number.eq, form]
      | real y => exact Number.exact_iff_form.trans eq_comm
  | real x =>
      cases y with
      | whole b => exact Number.exact_iff_form
      | real y =>
          simp only [Number.eq, Bool.or_eq_true, beq_iff_eq]
          cases x <;> cases y
          case finite.finite a m e b n f =>
            rw [Double.eq_finite_iff, or_iff_right_of_imp, Number.form, Number.form,
              KeyForm.number.injEq]
            rintro ⟨⟩
            rfl
          case infinity.infinity a b =>
            cases a <;> cases b <;> simp [Number.form, Double.eq, Double.lt]
          all_goals simp [Number.form, Double.eq, Double.lt]

theorem same_of_numbers {a b : Value} {x y : Number} (ha : a.number? = some x)
    (hb : b.number? = some y) : same a b = x.eq y := by
  cases a <;> cases b <;> cases ha <;> cases hb
  case bool.bool a b => cases a <;> cases b <;> rfl
  case bool.int a n => exact Bool.beq_comm
  all_goals rfl

theorem form_ne_of_number {a b : Value} {x : Number} (ha : a.number? = some x)
    (hb : b.number? = none) : form a ≠ form b := by
  rw [form_of_number ha]
  rcases x with n | ⟨_⟩ | ⟨s⟩ | ⟨s, m, e⟩ <;> cases b <;> cases hb <;> exact KeyForm.noConfusion

theorem same_plain_iff_form {a b : Value} (hplain : a.isPlain = true) (h : a.isHashable = true) :
    same a b = true ↔ form a = form b := by
  cases ha : a.number? with
  | some x =>
      cases hb : b.number? with
      | some y =>
          rw [same_of_numbers ha hb, Number.eq_iff_form, form_of_number ha, form_of_number hb]
      | none =>
          have hdiffers : same a b = false := by
            cases a <;> cases ha <;> cases b <;> cases hb <;> rfl
          simp [hdiffers, form_ne_of_number ha hb]
  | none =>
      cases hb : b.number? with
      | some y =>
          have hdiffers : same a b = false := by
            cases b <;> cases hb <;> cases a <;> first | rfl | cases ha
          simp [hdiffers, (form_ne_of_number hb ha).symm]
      | none =>
          cases a <;> cases ha <;> cases hplain <;> cases h <;> cases b <;> cases hb <;>
            simp [same, form, scalarForm, number?, and_assoc]

theorem isHashable_tuple {xs : List Value} :
    (tuple xs).isHashable = true ↔ ∀ x ∈ xs, x.isHashable = true := by
  unfold isHashable
  rw [unhashable?]
  induction xs with
  | nil => simp [unhashableIn?]
  | cons x xs ih =>
      rw [unhashableIn?, List.forall_mem_cons, ← ih]
      cases x.unhashable? <;> simp

theorem sameAll_iff_forms {xs ys : List Value}
    (h : ∀ x ∈ xs, ∀ y, same x y = true ↔ form x = form y) :
    sameAll xs ys = true ↔ forms xs = forms ys := by
  induction xs generalizing ys with
  | nil => cases ys <;> simp [sameAll, forms]
  | cons x xs ih =>
      obtain ⟨hx, hxs⟩ := List.forall_mem_cons.mp h
      cases ys with
      | nil => simp [sameAll, forms]
      | cons y ys => rw [sameAll, Bool.and_eq_true, hx, ih hxs, forms, forms, List.cons.injEq]

theorem same_iff_form {a b : Value} (h : a.isHashable = true) :
    same a b = true ↔ form a = form b := by
  induction a using tuple_induction generalizing b with
  | plain a hplain => exact same_plain_iff_form hplain h
  | tuple xs ih =>
      have hxs := isHashable_tuple.mp h
      cases b with
      | tuple ys =>
          rw [same, form, form, KeyForm.tuple.injEq]
          exact sameAll_iff_forms fun x hx y => ih x hx (hxs x hx)
      | float x => rcases x with ⟨_⟩ | ⟨s⟩ | ⟨s, m, e⟩ <;> simp [same, form, number?, Number.form]
      | _ => simp [same, form, scalarForm, number?, Number.form]

theorem eq_of_form_other {a b : Value} (h : form a = .other b) : a = b := by
  cases a with
  | float x => cases x <;> cases h
  | _ => first | cases h; rfl | cases h

/-! ## Sameness of keys -/

section Sameness

variable {a b c : Value}

theorem isHashable_of_forms {xs ys : List Value}
    (h : ∀ x ∈ xs, ∀ y, form x = form y → y.isHashable = true) (hforms : forms xs = forms ys) :
    ∀ y ∈ ys, y.isHashable = true := by
  induction xs generalizing ys with
  | nil => cases ys <;> simp_all [forms]
  | cons x xs ih =>
      obtain ⟨hx, hxs⟩ := List.forall_mem_cons.mp h
      cases ys with
      | nil => simp
      | cons y ys =>
          rw [forms, forms, List.cons.injEq] at hforms
          exact List.forall_mem_cons.mpr ⟨hx y hforms.1, ih hxs hforms.2⟩

theorem isHashable_of_form (ha : a.isHashable = true) (h : form a = form b) :
    b.isHashable = true := by
  induction a using tuple_induction generalizing b with
  | plain a hplain =>
      cases b with
      | tuple ys =>
          rw [form_of_plain hplain] at h
          cases a with
          | float x => cases x <;> cases h
          | _ => cases h
      | list | set | map | knot =>
          rw [eq_of_form_other h] at ha
          exact ha
      | _ => rfl
  | tuple xs ih =>
      cases b with
      | tuple ys =>
          rw [form, form, KeyForm.tuple.injEq] at h
          have hxs := isHashable_tuple.mp ha
          exact isHashable_tuple.mpr (isHashable_of_forms (fun x hx _ => ih x hx (hxs x hx)) h)
      | float x => rfl
      | list | set | map | knot => cases eq_of_form_other h
      | _ => rfl

theorem isHashable_of_same (ha : a.isHashable = true) (h : same a b = true) :
    b.isHashable = true :=
  isHashable_of_form ha ((same_iff_form ha).mp h)

theorem same_self (ha : a.isHashable = true) : same a a = true :=
  (same_iff_form ha).mpr rfl

theorem same_comm (ha : a.isHashable = true) (hb : b.isHashable = true) : same a b = same b a := by
  rw [Bool.eq_iff_iff, same_iff_form ha, same_iff_form hb]
  exact eq_comm

theorem same_congr (ha : a.isHashable = true) (h : same a b = true) (c : Value) :
    same a c = same b c := by
  rw [Bool.eq_iff_iff, same_iff_form ha, same_iff_form (isHashable_of_same ha h),
    (same_iff_form ha).mp h]

end Sameness

/-! ## Entries under keys -/

section Entries

variable {j k v : Value} {e : Value × Value} {es : List (Value × Value)}

def keys (es : List (Value × Value)) : List Value :=
  es.map Prod.fst

def HaveKeys (es : List (Value × Value)) : Prop :=
  ∀ k ∈ keys es, k.isHashable = true

theorem haveKeys_cons : HaveKeys (e :: es) ↔ e.1.isHashable = true ∧ HaveKeys es :=
  List.forall_mem_cons

theorem lookup_eq_none_iff_keys : lookup k es = none ↔ ∀ j ∈ keys es, same j k = false := by
  induction es with
  | nil => simp [keys]
  | cons e es ih =>
      rw [lookup_cons]
      show _ ↔ ∀ j ∈ e.1 :: keys es, _
      rw [List.forall_mem_cons]
      by_cases hsame : same e.1 k = true
      · simp [hsame]
      · simp [hsame, ih]

theorem isHashable_of_lookup (hes : HaveKeys es) (h : lookup k es = some v) :
    k.isHashable = true := by
  induction es with
  | nil => cases h
  | cons e es ih =>
      obtain ⟨he, hes⟩ := haveKeys_cons.mp hes
      rw [lookup_cons] at h
      split at h
      · rename_i hsame
        exact isHashable_of_same he hsame
      · exact ih hes h

theorem lookup_congr (hes : HaveKeys es) (hj : j.isHashable = true) (h : same j k = true) :
    lookup j es = lookup k es := by
  have hk := isHashable_of_same hj h
  induction es with
  | nil => rfl
  | cons e es ih =>
      obtain ⟨he, hes⟩ := haveKeys_cons.mp hes
      rw [lookup_cons, lookup_cons, same_comm he hj, same_comm he hk, same_congr hj h, ih hes]

theorem lookup_put (hes : HaveKeys es) (hk : k.isHashable = true)
    (hj : j.isHashable = true) (v : Value) :
    lookup j (put k v es) = if same k j then some v else lookup j es := by
  induction es with
  | nil => rw [put, lookup_cons]
  | cons e es ih =>
      obtain ⟨he, hes⟩ := haveKeys_cons.mp hes
      rw [put_cons, lookup_cons]
      split
      · rename_i hsame
        rw [lookup_cons, same_congr he hsame]
        split <;> rfl
      · rename_i hdiffers
        rw [lookup_cons, ih hes]
        by_cases hkj : same k j = true
        · have hej : ¬same e.1 j = true := by
            rwa [same_comm he hj, ← same_congr hk hkj, ← same_comm he hk]
          rw [if_neg hej]
          simp [hkj]
        · simp [hkj]

theorem put_eq_self (h : lookup k es = some v) : put k v es = es := by
  induction es with
  | nil => cases h
  | cons e es ih =>
      rw [lookup_cons] at h
      rw [put_cons]
      split at h
      · rename_i hsame
        rw [if_pos hsame, ← Option.some.inj h]
      · rename_i hdiffers
        rw [if_neg hdiffers, ih h]

theorem put_of_lookup_none (h : lookup k es = none) (v : Value) : put k v es = es ++ [(k, v)] := by
  induction es with
  | nil => rfl
  | cons e es ih =>
      rw [lookup_cons] at h
      rw [put_cons]
      split at h
      · cases h
      · rename_i hdiffers
        rw [if_neg hdiffers, ih h, List.cons_append]

theorem keys_put (k v : Value) (es : List (Value × Value)) :
    keys (put k v es) = if (lookup k es).isSome then keys es else keys es ++ [k] := by
  induction es with
  | nil => rfl
  | cons e es ih =>
      rw [put_cons, lookup_cons]
      by_cases hsame : same e.1 k = true
      · simp [hsame, keys]
      · simp only [hsame, Bool.false_eq_true, if_false]
        show e.1 :: keys (put k v es) = _
        rw [ih]
        split <;> rfl

theorem haveKeys_put (hes : HaveKeys es) (hk : k.isHashable = true) (v : Value) :
    HaveKeys (put k v es) := by
  intro j hj
  rw [keys_put] at hj
  split at hj
  · exact hes j hj
  · rcases List.mem_append.mp hj with hj | hj
    · exact hes j hj
    · rwa [List.mem_singleton.mp hj]

/-! ### Keys that come once -/

def KeysOnce (es : List (Value × Value)) : Prop :=
  (keys es).Pairwise fun j k => same j k = false

theorem keysOnce_cons : KeysOnce (e :: es) ↔ (∀ k ∈ keys es, same e.1 k = false) ∧ KeysOnce es :=
  List.pairwise_cons

theorem keysOnce_put (honce : KeysOnce es) (k v : Value) : KeysOnce (put k v es) := by
  unfold KeysOnce
  rw [keys_put]
  cases hlookup : lookup k es with
  | some u => exact honce
  | none =>
      refine List.pairwise_append.mpr ⟨honce, List.pairwise_singleton _ k, fun j hj i hi => ?_⟩
      rw [List.mem_singleton.mp hi]
      exact lookup_eq_none_iff_keys.mp hlookup j hj

theorem lookup_tail_of_once (hes : HaveKeys (e :: es)) (honce : KeysOnce (e :: es)) :
    lookup e.1 es = none := by
  obtain ⟨he, hes⟩ := haveKeys_cons.mp hes
  rw [lookup_eq_none_iff_keys]
  intro k hk
  rw [same_comm (hes k hk) he]
  exact (keysOnce_cons.mp honce).1 k hk

theorem lookup_of_mem (hes : HaveKeys es) (honce : KeysOnce es) (he : e ∈ es) :
    lookup e.1 es = some e.2 := by
  induction es with
  | nil => cases he
  | cons d es ih =>
      obtain ⟨hd, hes⟩ := haveKeys_cons.mp hes
      obtain ⟨hfresh, honce⟩ := keysOnce_cons.mp honce
      rw [lookup_cons]
      rcases List.mem_cons.mp he with rfl | he
      · rw [if_pos (same_self hd)]
      · rw [hfresh e.1 (List.mem_map_of_mem he), ih hes honce he]
        rfl

end Entries

end Value

end ImportAudit
