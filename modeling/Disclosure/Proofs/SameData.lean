import Disclosure.Proofs.JsonText
import Disclosure.Proofs.Spelling
import Mathlib.Data.List.Perm.Subperm

/-!
# Disclosure.Proofs.SameData — data that say the same

Saying the same is an equivalence of trees: of data in which nothing stands inside itself, no object names a field twice,
and every number is one.  Lists agree item by item.  Two objects agree when they have as many fields and every field of the
first has a partner in the second; as names are distinct, no two fields share a partner, so every field of the second has
one in the first too.

* `Value.IsTree`; `Value.IsJson.isTree`: JSON data are trees.
* `Fields.Distinct.exists_partner`: when every name of as many fields is found in others, the others are found too.
* `Value.equiv_object_iff`: objects field by field.
* `Value.IsTree.equiv_refl`, `Value.IsTree.equiv_symm`, `Value.IsTree.equiv_trans`: the three laws.
* `Value.IsTree.equiv_of_perm`: the order of fields does not count.
-/

namespace Disclosure

/-! ### Names -/

namespace Fields

/-- Every name equals itself. -/
def Definite (fields : Fields) : Prop := ∀ f ∈ fields, f.1.equiv f.1 = true

namespace Distinct

variable {a b : Fields}

/-- Of two fields of an object with equal names both are the same. -/
theorem eq_of_equiv (h : b.Distinct) {f g : Scalar × Value} (hf : f ∈ b) (hg : g ∈ b) (heq : f.1.equiv g.1 = true) :
    f = g := by
  induction b with
  | nil => cases hf
  | cons first rest ih =>
    obtain ⟨hfirst, hrest⟩ := List.pairwise_cons.1 h
    rcases List.mem_cons.1 hf with rfl | hfrest
    · rcases List.mem_cons.1 hg with rfl | hgrest
      · rfl
      · rw [hfirst g hgrest] at heq
        cases heq
    · rcases List.mem_cons.1 hg with rfl | hgrest
      · have hne := hfirst f hfrest
        rw [Scalar.equiv_symm heq] at hne
        cases hne
      · exact ih hrest hfrest hgrest

theorem find?_eq_some_iff (h : b.Distinct) {name : Scalar} {g : Scalar × Value} :
    b.find? (fun field => name.equiv field.1) = some g ↔ g ∈ b ∧ name.equiv g.1 = true := by
  constructor
  · intro hg
    exact ⟨List.mem_of_find?_eq_some hg, by simpa using List.find?_some hg⟩
  · rintro ⟨hg, heq⟩
    cases hfind : b.find? (fun field => name.equiv field.1) with
    | none => exact absurd heq (by simpa using List.find?_eq_none.1 hfind g hg)
    | some g' =>
      have hg' : name.equiv g'.1 = true := by simpa using List.find?_some hfind
      rw [h.eq_of_equiv (List.mem_of_find?_eq_some hfind) hg (Scalar.equiv_trans (Scalar.equiv_symm hg') heq)]

/-- The senses of distinct names are distinct. -/
theorem nodup_senses (h : a.Distinct) (hdefinite : a.Definite) : (a.map (fun f => f.1.sense?)).Nodup := by
  rw [List.Nodup, List.pairwise_map]
  refine List.Pairwise.imp_of_mem ?_ h
  intro f g hf _ hne hsense
  obtain ⟨s, hs, -⟩ := Scalar.equiv_iff.1 (hdefinite f hf)
  rw [Scalar.equiv_iff.2 ⟨s, hs, hsense ▸ hs⟩] at hne
  cases hne

/-- When as many fields as there are in an object have partners in it, all its fields are partners. -/
theorem exists_partner (h : a.Distinct) (hdefinite : a.Definite) (hlength : a.length = b.length)
    (hpartner : ∀ f ∈ a, ∃ g ∈ b, f.1.equiv g.1 = true) : ∀ g ∈ b, ∃ f ∈ a, f.1.equiv g.1 = true := by
  have hsubset : a.map (fun f => f.1.sense?) ⊆ b.map (fun g => g.1.sense?) := by
    intro s hs
    obtain ⟨f, hf, rfl⟩ := List.mem_map.1 hs
    obtain ⟨g, hg, heq⟩ := hpartner f hf
    obtain ⟨s, hfs, hgs⟩ := Scalar.equiv_iff.1 heq
    exact List.mem_map.2 ⟨g, hg, hgs.trans hfs.symm⟩
  have hperm : (a.map (fun f => f.1.sense?)).Perm (b.map (fun g => g.1.sense?)) :=
    (List.subperm_of_subset (h.nodup_senses hdefinite) hsubset).perm_of_length_le (by simp [hlength])
  intro g hg
  obtain ⟨f, hf, hsense⟩ := List.mem_map.1 (hperm.mem_iff.2 (List.mem_map_of_mem hg))
  obtain ⟨s, hs, -⟩ := Scalar.equiv_iff.1 (hdefinite f hf)
  exact ⟨f, hf, Scalar.equiv_iff.2 ⟨s, hs, hsense ▸ hs⟩⟩

end Distinct

end Fields

/-! ### Lists and objects -/

namespace Value

theorem forall₂_symm_of_mem {R : Value → Value → Prop} {a b : List Value} (hab : List.Forall₂ R a b)
    (h : ∀ v ∈ a, ∀ w ∈ b, R v w → R w v) : List.Forall₂ R b a := by
  induction hab with
  | nil => exact .nil
  | cons hvw _ ih =>
    refine .cons (h _ (by simp) _ (by simp) hvw) (ih fun v hv w hw => ?_)
    exact h v (List.mem_cons_of_mem _ hv) w (List.mem_cons_of_mem _ hw)

theorem forall₂_trans_of_mem {R : Value → Value → Prop} {a b c : List Value} (hab : List.Forall₂ R a b)
    (hbc : List.Forall₂ R b c) (h : ∀ u ∈ a, ∀ v ∈ b, ∀ w ∈ c, R u v → R v w → R u w) : List.Forall₂ R a c := by
  induction hab generalizing c with
  | nil => exact hbc
  | cons huv _ ih =>
    cases hbc with
    | cons hvw hrest =>
      refine .cons (h _ (by simp) _ (by simp) _ (by simp) huv hvw) (ih hrest fun u hu v hv w hw => ?_)
      exact h u (List.mem_cons_of_mem _ hu) v (List.mem_cons_of_mem _ hv) w (List.mem_cons_of_mem _ hw)

theorem equivItems_iff {a b : List Value} : equivItems a b = true ↔ List.Forall₂ (fun v w => v.equiv w = true) a b := by
  induction a generalizing b with
  | nil => cases b <;> simp [equivItems]
  | cons v rest ih => cases b <;> simp [equivItems, ih]

theorem equiv_list_iff {a b : List Value} :
    (list a).equiv (list b) = true ↔ List.Forall₂ (fun v w => v.equiv w = true) a b := by
  rw [equiv, equivItems_iff]

/-- Fields with equal names that hold the same. -/
def SameField (f g : Scalar × Value) : Prop := f.1.equiv g.1 = true ∧ f.2.equiv g.2 = true

theorem exists_equiv_of_sameField {a b : Fields} (h : ∀ f ∈ a, ∃ g ∈ b, SameField f g) :
    ∀ f ∈ a, ∃ g ∈ b, f.1.equiv g.1 = true := by
  intro f hf
  obtain ⟨g, hg, heq, -⟩ := h f hf
  exact ⟨g, hg, heq⟩

theorem equivFields_iff {a b : Fields} (hb : b.Distinct) :
    equivFields a b = true ↔ ∀ f ∈ a, ∃ g ∈ b, SameField f g := by
  induction a with
  | nil => simp [equivFields]
  | cons f rest ih =>
    obtain ⟨name, v⟩ := f
    rw [equivFields, Bool.and_eq_true, ih, List.forall_mem_cons]
    refine and_congr_left fun _ => ?_
    cases hfind : b.find? (fun field => name.equiv field.1) with
    | none =>
      have hnone := List.find?_eq_none.1 hfind
      refine iff_of_false (by simp) ?_
      rintro ⟨g, hg, heq, -⟩
      exact hnone g hg heq
    | some g =>
      obtain ⟨hg, heq⟩ := hb.find?_eq_some_iff.1 hfind
      constructor
      · intro hv
        exact ⟨g, hg, heq, hv⟩
      · rintro ⟨g', hg', heq', hv⟩
        rwa [hb.eq_of_equiv hg hg' (Scalar.equiv_trans (Scalar.equiv_symm heq) heq')]

/-- Objects say the same when they have as many fields, and every field of the first is one of the second. -/
theorem equiv_object_iff {a b : Fields} (hb : b.Distinct) :
    (object a).equiv (object b) = true ↔ a.length = b.length ∧ ∀ f ∈ a, ∃ g ∈ b, SameField f g := by
  rw [equiv, Bool.and_eq_true, equivFields_iff hb, beq_iff_eq]

/-! ### Trees -/

/-- Data in which nothing stands inside itself, no object names a field twice, and every datum without parts equals
itself. -/
inductive IsTree : Value → Prop
  | scalar {s : Scalar} (definite : s.equiv s = true) : IsTree (.scalar s)
  | list {items : List Value} (trees : ∀ v ∈ items, IsTree v) : IsTree (.list items)
  | object {fields : Fields} (distinct : fields.Distinct) (definite : fields.Definite)
    (trees : ∀ f ∈ fields, IsTree f.2) : IsTree (.object fields)

namespace IsTree

variable {u v w : Value}

theorem equiv_refl (h : v.IsTree) : v.equiv v = true := by
  induction h with
  | scalar hdefinite => rwa [equiv]
  | list _ ih => exact equiv_list_iff.2 (List.forall₂_same.2 ih)
  | object hdistinct hdefinite _ ih =>
    exact (equiv_object_iff hdistinct).2 ⟨rfl, fun f hf => ⟨f, hf, hdefinite f hf, ih f hf⟩⟩

theorem equiv_symm (hv : v.IsTree) (hw : w.IsTree) (h : v.equiv w = true) : w.equiv v = true := by
  induction hv generalizing w with
  | scalar _ =>
    cases hw with
    | scalar _ =>
      rw [equiv] at h ⊢
      exact Scalar.equiv_symm h
    | _ => simp [equiv] at h
  | list htrees ih =>
    cases hw with
    | list htrees' =>
      rw [equiv_list_iff] at h ⊢
      exact forall₂_symm_of_mem h fun v hv w hw => ih v hv (htrees' w hw)
    | _ => simp [equiv] at h
  | object hdistinct hdefinite htrees ih =>
    cases hw with
    | object hdistinct' hdefinite' htrees' =>
      rw [equiv_object_iff hdistinct'] at h
      obtain ⟨hlength, hsame⟩ := h
      rw [equiv_object_iff hdistinct]
      have hpartner := hdistinct.exists_partner hdefinite hlength (exists_equiv_of_sameField hsame)
      refine ⟨hlength.symm, fun g hg => ?_⟩
      obtain ⟨f, hf, heq⟩ := hpartner g hg
      obtain ⟨g', hg', heq', hvalue⟩ := hsame f hf
      obtain rfl : g' = g := hdistinct'.eq_of_equiv hg' hg (Scalar.equiv_trans (Scalar.equiv_symm heq') heq)
      exact ⟨f, hf, Scalar.equiv_symm heq, ih f hf (htrees' g' hg') hvalue⟩
    | _ => simp [equiv] at h

theorem equiv_trans (hu : u.IsTree) (hv : v.IsTree) (hw : w.IsTree) (huv : u.equiv v = true)
    (hvw : v.equiv w = true) : u.equiv w = true := by
  induction hu generalizing v w with
  | scalar _ =>
    cases hv with
    | scalar _ =>
      cases hw with
      | scalar _ =>
        rw [equiv] at huv hvw ⊢
        exact Scalar.equiv_trans huv hvw
      | _ => simp [equiv] at hvw
    | _ => simp [equiv] at huv
  | list _ ih =>
    cases hv with
    | list hvs =>
      cases hw with
      | list hws =>
        rw [equiv_list_iff] at huv hvw ⊢
        exact forall₂_trans_of_mem huv hvw fun u hu v hv w hw => ih u hu (hvs v hv) (hws w hw)
      | _ => simp [equiv] at hvw
    | _ => simp [equiv] at huv
  | object _ _ _ ih =>
    cases hv with
    | object hdistinct _ hvs =>
      cases hw with
      | object hdistinct' _ hws =>
        rw [equiv_object_iff hdistinct] at huv
        rw [equiv_object_iff hdistinct'] at hvw ⊢
        refine ⟨huv.1.trans hvw.1, fun f hf => ?_⟩
        obtain ⟨g, hg, hname, hvalue⟩ := huv.2 f hf
        obtain ⟨k, hk, hname', hvalue'⟩ := hvw.2 g hg
        exact ⟨k, hk, Scalar.equiv_trans hname hname', ih f hf (hvs g hg) (hws k hk) hvalue hvalue'⟩
      | _ => simp [equiv] at hvw
    | _ => simp [equiv] at huv

/-- The fields of a tree may stand in any order. -/
theorem equiv_of_perm {a b : Fields} (h : (Value.object a).IsTree) (hp : a.Perm b) :
    (Value.object a).equiv (.object b) = true := by
  cases h with
  | object hdistinct hdefinite htrees =>
    refine (equiv_object_iff (hdistinct.of_perm hp)).2 ⟨hp.length_eq, fun f hf => ?_⟩
    exact ⟨f, hp.mem_iff.1 hf, hdefinite f hf, (htrees f hf).equiv_refl⟩

end IsTree

theorem fieldsJson_definite {fields : Fields} (h : FieldsJson fields) : fields.Definite := by
  intro f hf
  obtain ⟨⟨t, ht⟩, -⟩ := fieldsJson_iff.1 h f hf
  rw [ht]
  exact Scalar.equiv_text.2 rfl

mutual

/-- JSON data in which no object names a field twice are trees. -/
theorem IsJson.isTree : ∀ {v : Value}, v.IsJson → v.WellFormed → v.IsTree
  | .scalar s, h, _ => by
    refine .scalar (Scalar.equiv_self_iff.2 fun origin hs => ?_)
    rw [hs] at h
    exact h
  | .list _, h, hw => .list (areJson_areTrees h hw)
  | .object _, h, hw => .object hw.1 (fieldsJson_definite h) (fieldsJson_areTrees h hw.2)

theorem areJson_areTrees : ∀ {items : List Value}, AreJson items → ItemsWellFormed items → ∀ v ∈ items, v.IsTree
  | [], _, _ => by simp
  | _ :: _, ⟨hv, hrest⟩, ⟨hw, hws⟩ => List.forall_mem_cons.2 ⟨hv.isTree hw, areJson_areTrees hrest hws⟩

theorem fieldsJson_areTrees : ∀ {fields : List (Scalar × Value)}, FieldsJson fields → FieldsWellFormed fields →
    ∀ f ∈ fields, f.2.IsTree
  | [], _, _ => by simp
  | _ :: _, ⟨_, hv, hrest⟩, ⟨hw, hws⟩ => List.forall_mem_cons.2 ⟨hv.isTree hw, fieldsJson_areTrees hrest hws⟩

end

end Value

end Disclosure
