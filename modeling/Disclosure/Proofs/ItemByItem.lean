import Disclosure.Reading
import Mathlib.Data.List.Forall2

/-!
# Disclosure.Proofs.ItemByItem — lists that correspond item by item

Reading a list gives a list of the same length, whose items come from the items at the same places.

* `readEach_eq_ok_iff`: when acceptance does not depend on the place, reading is a relation between items.
* `readEach_append_cons_congr`: one item may be exchanged for another that is read alike.
* `getElem?_readEach_iff`: what stands at a place, when it does.
* `FirstWithout`, `exists_firstWithout_cons_iff`: the first item without a property, and where it stands.
* `readEach_eq_error_iff`: a list is refused for the first of its items that is refused.
* `exists_forall₂_iff`, `map_eq_map_of_forall₂`: how such a relation is built, and what both lists share.
-/

namespace Disclosure

theorem bind_eq_ok_iff {ε α β : Type} {x : Except ε α} {f : α → Except ε β} {b : β} :
    (x >>= f) = .ok b ↔ ∃ a, x = .ok a ∧ f a = .ok b := by
  cases x with
  | error e => simp [bind, Except.bind]
  | ok a => simp [bind, Except.bind]

theorem bind_eq_error_iff {ε α β : Type} {x : Except ε α} {f : α → Except ε β} {e : ε} :
    (x >>= f) = .error e ↔ x = .error e ∨ ∃ a, x = .ok a ∧ f a = .error e := by
  cases x with
  | error e' => simp [bind, Except.bind]
  | ok a => simp [bind, Except.bind]

/-- The item at this place is the first one that does not satisfy the condition. -/
def FirstWithout {α : Type} (P : α → Prop) (as : List α) (i : Nat) (a : α) : Prop :=
  as[i]? = some a ∧ ¬ P a ∧ ∀ j < i, ∀ b, as[j]? = some b → P b

theorem firstWithout_cons_zero {α : Type} {P : α → Prop} {a b : α} {rest : List α} :
    FirstWithout P (a :: rest) 0 b ↔ b = a ∧ ¬ P a := by
  simp only [FirstWithout, List.getElem?_cons_zero, Option.some.injEq, Nat.not_lt_zero, false_imp_iff, implies_true,
    and_true]
  constructor
  · rintro ⟨rfl, h⟩
    exact ⟨rfl, h⟩
  · rintro ⟨rfl, h⟩
    exact ⟨rfl, h⟩

theorem firstWithout_cons_succ {α : Type} {P : α → Prop} {a b : α} {rest : List α} {j : Nat} :
    FirstWithout P (a :: rest) (j + 1) b ↔ P a ∧ FirstWithout P rest j b := by
  constructor
  · rintro ⟨hb, hP, hbefore⟩
    exact ⟨hbefore 0 (by omega) a rfl, hb, hP, fun k hk c hc => hbefore (k + 1) (by omega) c hc⟩
  · rintro ⟨ha, hb, hP, hbefore⟩
    refine ⟨hb, hP, ?_⟩
    intro k hk c hc
    cases k with
    | zero =>
      obtain rfl := Option.some.inj hc
      exact ha
    | succ k => exact hbefore k (by omega) c hc

/-- The first item without a property is the head, or it comes later and the head has the property. -/
theorem exists_firstWithout_cons_iff {α : Type} {P Q : α → Prop} {a : α} {rest : List α} :
    (∃ i b, FirstWithout P (a :: rest) i b ∧ Q b) ↔
      ¬ P a ∧ Q a ∨ P a ∧ ∃ i b, FirstWithout P rest i b ∧ Q b := by
  constructor
  · rintro ⟨i, b, hfirst, hQ⟩
    cases i with
    | zero =>
      obtain ⟨rfl, hP⟩ := firstWithout_cons_zero.1 hfirst
      exact Or.inl ⟨hP, hQ⟩
    | succ i =>
      obtain ⟨hP, hrest⟩ := firstWithout_cons_succ.1 hfirst
      exact Or.inr ⟨hP, i, b, hrest, hQ⟩
  · rintro (⟨hP, hQ⟩ | ⟨hP, i, b, hrest, hQ⟩)
    · exact ⟨0, a, firstWithout_cons_zero.2 ⟨rfl, hP⟩, hQ⟩
    · exact ⟨i + 1, b, firstWithout_cons_succ.2 ⟨hP, hrest⟩, hQ⟩

theorem exists_firstWithout_iff {α : Type} {P : α → Prop} {as : List α} :
    (∃ i a, FirstWithout P as i a) ↔ ∃ a ∈ as, ¬ P a := by
  induction as with
  | nil => simp [FirstWithout]
  | cons a rest ih =>
    have hcons := @exists_firstWithout_cons_iff α P (fun _ => True) a rest
    simp only [and_true] at hcons
    rw [hcons, ih, List.exists_mem_cons_iff]
    by_cases ha : P a <;> simp [ha]

theorem firstWithout_congr {α : Type} {P Q : α → Prop} {as : List α} (h : ∀ a ∈ as, P a ↔ Q a) {i : Nat} {a : α} :
    FirstWithout P as i a ↔ FirstWithout Q as i a := by
  unfold FirstWithout
  refine and_congr_right (fun ha => and_congr (not_congr (h a (List.mem_of_getElem? ha))) ?_)
  exact forall₂_congr (fun j _ => forall₂_congr (fun b hb => h b (List.mem_of_getElem? hb)))

/-- When two items are read alike at every place, so are two lists that differ in these items only. -/
theorem readEach_append_cons_congr {ε α β : Type} (read : Nat → α → Except ε β) {a b : α}
    (h : ∀ i, read i b = read i a) (before later : List α) (i : Nat) :
    readEach read i (before ++ b :: later) = readEach read i (before ++ a :: later) := by
  induction before generalizing i with
  | nil => simp only [List.nil_append, readEach, h]
  | cons c rest ih => simp only [List.cons_append, readEach, ih]

/-- When acceptance does not depend on the position, a list is refused for its first item that is not accepted. -/
theorem readEach_eq_error_iff {ε α β : Type} {read : Nat → α → Except ε β} {P : α → Prop}
    (h : ∀ i a, (∃ b, read i a = .ok b) ↔ P a) {i : Nat} {as : List α} {e : ε} :
    readEach read i as = .error e ↔ ∃ j a, FirstWithout P as j a ∧ read (i + j) a = .error e := by
  induction as generalizing i with
  | nil => simp [FirstWithout]
  | cons a rest ih =>
    have hstep : readEach read i (a :: rest) = .error e ↔
        read i a = .error e ∨ P a ∧ readEach read (i + 1) rest = .error e := by
      rw [← h i a, readEach]
      cases read i a with
      | error e' => simp
      | ok b => cases readEach read (i + 1) rest <;> simp
    have hnot : read i a = .error e → ¬ P a := by
      intro he hP
      obtain ⟨b, hb⟩ := (h i a).2 hP
      rw [he] at hb
      cases hb
    have hplace : ∀ j, i + (j + 1) = i + 1 + j := by omega
    rw [hstep, ih]
    constructor
    · rintro (he | ⟨hP, j, b, hfirst, he⟩)
      · exact ⟨0, a, firstWithout_cons_zero.2 ⟨rfl, hnot he⟩, he⟩
      · exact ⟨j + 1, b, firstWithout_cons_succ.2 ⟨hP, hfirst⟩, by rwa [hplace]⟩
    · rintro ⟨j, b, hfirst, he⟩
      cases j with
      | zero =>
        obtain ⟨rfl, -⟩ := firstWithout_cons_zero.1 hfirst
        exact Or.inl he
      | succ j =>
        obtain ⟨hP, hfirst⟩ := firstWithout_cons_succ.1 hfirst
        exact Or.inr ⟨hP, j, b, hfirst, by rwa [hplace] at he⟩

/-- When acceptance does not depend on the position, a list is read exactly when every item is. -/
theorem readEach_eq_ok_iff {ε α β : Type} {read : Nat → α → Except ε β} {R : α → β → Prop}
    (h : ∀ i a b, read i a = .ok b ↔ R a b) {i : Nat} {as : List α} {bs : List β} :
    readEach read i as = .ok bs ↔ List.Forall₂ R as bs := by
  induction as generalizing i bs with
  | nil => simp [eq_comm]
  | cons a rest ih =>
    rw [readEach_cons_eq_ok_iff, List.forall₂_cons_left_iff]
    constructor
    · rintro ⟨b, cs, hb, hcs, rfl⟩
      exact ⟨b, cs, (h i a b).1 hb, ih.1 hcs, rfl⟩
    · rintro ⟨b, cs, hb, hcs, rfl⟩
      exact ⟨b, cs, (h i a b).2 hb, ih.2 hcs, rfl⟩

/-- What stands at a place of the result is what was read from the item at that place. -/
theorem getElem?_readEach_iff {ε α β : Type} {read : Nat → α → Except ε β} {i : Nat} {as : List α} {bs : List β}
    (h : readEach read i as = .ok bs) {j : Nat} {b : β} :
    bs[j]? = some b ↔ ∃ a, as[j]? = some a ∧ read (i + j) a = .ok b := by
  induction as generalizing i bs j with
  | nil =>
    cases h
    simp
  | cons a rest ih =>
    obtain ⟨c, cs, hc, hcs, rfl⟩ := readEach_cons_eq_ok_iff.1 h
    cases j with
    | zero => simp [hc]
    | succ j =>
      have hplace : i + (j + 1) = i + 1 + j := by omega
      rw [List.getElem?_cons_succ, List.getElem?_cons_succ, hplace]
      exact ih hcs

theorem mapM_eq_some_iff {α β : Type} {f : α → Option β} {as : List α} {bs : List β} :
    as.mapM f = some bs ↔ List.Forall₂ (fun a b => f a = some b) as bs := by
  induction as generalizing bs with
  | nil => simp [eq_comm]
  | cons a rest ih =>
    rw [List.mapM_cons, List.forall₂_cons_left_iff]
    simp only [Option.bind_eq_bind, Option.pure_def, Option.bind_eq_some_iff, Option.some.injEq]
    constructor
    · rintro ⟨b, hb, cs, hcs, rfl⟩
      exact ⟨b, cs, hb, ih.1 hcs, rfl⟩
    · rintro ⟨b, cs, hb, hcs, rfl⟩
      exact ⟨b, hb, cs, ih.2 hcs, rfl⟩

theorem exists_forall₂_iff {α β : Type} {R : α → β → Prop} {as : List α} :
    (∃ bs, List.Forall₂ R as bs) ↔ ∀ a ∈ as, ∃ b, R a b := by
  induction as with
  | nil => simp
  | cons a rest ih =>
    simp only [List.forall₂_cons_left_iff, List.forall_mem_cons]
    rw [← ih]
    constructor
    · rintro ⟨_, b, bs, hb, hbs, rfl⟩
      exact ⟨⟨b, hb⟩, bs, hbs⟩
    · rintro ⟨⟨b, hb⟩, bs, hbs⟩
      exact ⟨b :: bs, b, bs, hb, hbs, rfl⟩

theorem exists_getElem?_of_forall₂ {α β : Type} {R : α → β → Prop} {as : List α} {bs : List β}
    (h : List.Forall₂ R as bs) {i : Nat} {b : β} (hb : bs[i]? = some b) : ∃ a, as[i]? = some a ∧ R a b := by
  induction h generalizing i with
  | nil => simp at hb
  | cons hab _ ih =>
    cases i with
    | zero =>
      obtain rfl := Option.some.inj hb
      exact ⟨_, rfl, hab⟩
    | succ i => exact ih hb

theorem ne_nil_iff_of_forall₂ {α β : Type} {R : α → β → Prop} {as : List α} {bs : List β}
    (h : List.Forall₂ R as bs) : as ≠ [] ↔ bs ≠ [] := by
  cases h <;> simp

theorem exists_cons_of_forall₂ {α β : Type} {R : α → β → Prop} {as : List α} {bs : List β}
    (h : List.Forall₂ R as bs) (hne : bs ≠ []) : ∃ a rest, as = a :: rest :=
  List.exists_cons_of_ne_nil ((ne_nil_iff_of_forall₂ h).2 hne)

/-- A list corresponds to its own image when each of its items does. -/
theorem forall₂_map_self_iff {α β : Type} {R : α → β → Prop} {f : β → α} {bs : List β} :
    List.Forall₂ R (bs.map f) bs ↔ ∀ b ∈ bs, R (f b) b := by
  rw [List.forall₂_map_left_iff, List.forall₂_same]

theorem map_eq_map_of_forall₂ {α β γ : Type} {R : α → β → Prop} {f : α → γ} {g : β → γ} {as : List α} {bs : List β}
    (h : List.Forall₂ R as bs) (hfg : ∀ a b, R a b → f a = g b) : as.map f = bs.map g := by
  induction h with
  | nil => rfl
  | cons hab _ ih => rw [List.map_cons, List.map_cons, hfg _ _ hab, ih]

end Disclosure
