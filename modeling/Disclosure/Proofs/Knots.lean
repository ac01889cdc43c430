import Disclosure.Proofs.JsonRequest
import Disclosure.Proofs.Runs

/-!
# Disclosure.Proofs.Knots — what stands inside itself in a file

In the data of a file only lists and objects stand inside themselves.  So what is a scalar when it is untied was never
tied.

* `Value.WellTied`: every knot is a list or an object; `WellTied.untie`, `WellTied.member`, `WellTied.of_mem_items`: so it
  is in the parts of a value.
* `Value.WellTied.eq_scalar_of_untie`: a scalar was never tied.
* `Files.wellTied_of_loadValue`: the data of a file.
-/

namespace Disclosure

/-! ### Knots around lists and objects -/

namespace Value

/-- A list or an object. -/
def IsCollection (v : Value) : Prop := (∃ items, v = .list items) ∨ ∃ fields, v = .object fields

mutual

/-- Only lists and objects stand inside themselves. -/
def WellTied : Value → Prop
  | .scalar _ | .set _ | .again _ => True
  | .list items => ItemsWellTied items
  | .object fields => FieldsWellTied fields
  | .pair v w => v.WellTied ∧ w.WellTied
  | .knot _ v => v.IsCollection ∧ v.WellTied

/-- Every item is well tied. -/
def ItemsWellTied : List Value → Prop
  | [] => True
  | v :: rest => v.WellTied ∧ ItemsWellTied rest

/-- Every field holds a value that is well tied. -/
def FieldsWellTied : List (Scalar × Value) → Prop
  | [] => True
  | (_, v) :: rest => v.WellTied ∧ FieldsWellTied rest

end

theorem itemsWellTied_iff {items : List Value} : ItemsWellTied items ↔ ∀ v ∈ items, v.WellTied := by
  induction items with
  | nil => simp [ItemsWellTied]
  | cons v rest ih => simp [ItemsWellTied, ih]

theorem fieldsWellTied_iff {fields : List (Scalar × Value)} : FieldsWellTied fields ↔ ∀ f ∈ fields, f.2.WellTied := by
  induction fields with
  | nil => simp [FieldsWellTied]
  | cons f rest ih =>
    obtain ⟨name, v⟩ := f
    simp [FieldsWellTied, ih]

theorem IsCollection.replace {v : Value} (h : v.IsCollection) (label : Nat) (whole : Value) :
    (Value.replace label whole v).IsCollection := by
  rcases h with ⟨items, rfl⟩ | ⟨fields, rfl⟩
  · exact Or.inl ⟨_, rfl⟩
  · exact Or.inr ⟨_, rfl⟩

section Replace

variable {label : Nat} {whole : Value}

mutual

/-- Putting something well tied in for a mark unties nothing. -/
theorem wellTied_replace (hwhole : whole.WellTied) : ∀ {v : Value}, v.WellTied → (replace label whole v).WellTied
  | .scalar _, _ => trivial
  | .list _, h => itemsWellTied_replace hwhole h
  | .object _, h => fieldsWellTied_replace hwhole h
  | .pair .., h => ⟨wellTied_replace hwhole h.1, wellTied_replace hwhole h.2⟩
  | .set _, _ => trivial
  | .knot inner v, h => by
    rw [replace]
    split
    · exact h
    · exact ⟨h.1.replace label whole, wellTied_replace hwhole h.2⟩
  | .again mark, _ => by
    rw [replace]
    split
    · exact hwhole
    · trivial

theorem itemsWellTied_replace (hwhole : whole.WellTied) : ∀ {items : List Value}, ItemsWellTied items →
    ItemsWellTied (replaceItems label whole items)
  | [], _ => trivial
  | _ :: _, h => ⟨wellTied_replace hwhole h.1, itemsWellTied_replace hwhole h.2⟩

theorem fieldsWellTied_replace (hwhole : whole.WellTied) : ∀ {fields : List (Scalar × Value)}, FieldsWellTied fields →
    FieldsWellTied (replaceFields label whole fields)
  | [], _ => trivial
  | _ :: _, h => ⟨wellTied_replace hwhole h.1, fieldsWellTied_replace hwhole h.2⟩

end

end Replace

namespace WellTied

variable {v w : Value}

theorem untie (h : v.WellTied) : v.untie.WellTied := by
  cases v with
  | knot label u => exact wellTied_replace h h.2
  | _ => exact h

/-- What is a scalar when it is untied was never tied. -/
theorem eq_scalar_of_untie (h : v.WellTied) {s : Scalar} (hv : v.untie = .scalar s) : v = .scalar s := by
  cases v with
  | knot label u =>
    have hcollection : (Value.knot label u).untie.IsCollection := h.1.replace label (.knot label u)
    rcases hcollection with ⟨items, hitems⟩ | ⟨fields, hfields⟩
    · rw [hv] at hitems
      cases hitems
    · rw [hv] at hfields
      cases hfields
  | _ => exact hv

theorem member (h : v.WellTied) (name : String) : (v.member name).WellTied := by
  unfold Value.member
  split
  · rename_i fields hobject
    have hfields : (Value.object fields).WellTied := hobject ▸ h.untie
    exact Fields.get_of_forall trivial (fieldsWellTied_iff.1 hfields) name
  · trivial

theorem of_mem_items (h : v.WellTied) (hw : w ∈ v.items) : w.WellTied := by
  unfold items at hw
  split at hw
  · rename_i items hitems
    have hlist : (Value.list items).WellTied := hitems ▸ h.untie
    exact itemsWellTied_iff.1 hlist w hw
  · simp at hw

end WellTied

end Value

/-! ### Putting data together -/

namespace Yaml

/-- Whatever is done keeps the invariant, and gives results with the property. -/
def Keeps {σ α : Type} (Inv : σ → Prop) (P : α → Prop) (x : StateM σ α) : Prop :=
  ∀ s, Inv s → P (x.run s).1 ∧ Inv (x.run s).2

section Keeps

variable {σ α β : Type} {Inv : σ → Prop} {P : α → Prop} {Q : β → Prop} {x : StateM σ α}

theorem Keeps.pure {a : α} (h : P a) : Keeps Inv P (pure a : StateM σ α) := fun _ hs => ⟨h, hs⟩

theorem Keeps.bind {f : α → StateM σ β} (hx : Keeps Inv P x) (hf : ∀ a, P a → Keeps Inv Q (f a)) :
    Keeps Inv Q (x >>= f) := by
  intro s hs
  obtain ⟨ha, hs'⟩ := hx s hs
  exact hf _ ha _ hs'

theorem Keeps.get : Keeps Inv Inv (get : StateM σ σ) := fun _ hs => ⟨hs, hs⟩

theorem Keeps.modify {f : σ → σ} (h : ∀ s, Inv s → Inv (f s)) : Keeps Inv (fun _ => True) (modify f : StateM σ PUnit) :=
  fun s hs => ⟨trivial, h s hs⟩

theorem Keeps.mapM {f : α → StateM σ β} {as : List α} (hf : ∀ a ∈ as, Keeps Inv Q (f a)) :
    Keeps Inv (fun bs => ∀ b ∈ bs, Q b) (as.mapM f) := by
  induction as with
  | nil => exact .pure (by simp)
  | cons a rest ih =>
    obtain ⟨ha, hrest⟩ := List.forall_mem_cons.1 hf
    rw [List.mapM_cons]
    exact ha.bind fun b hb => (ih hrest).bind fun bs hbs => .pure (List.forall_mem_cons.2 ⟨hb, hbs⟩)

end Keeps

/-- All values that are complete are well tied. -/
def AllWellTied (finished : Finished) : Prop := ∀ (i : NodeId) (v : Value), finished[i]?.join = some v → v.WellTied

theorem AllWellTied.setIfInBounds {finished : Finished} (h : AllWellTied finished) {v : Value} (hv : v.WellTied)
    (id : NodeId) : AllWellTied (finished.setIfInBounds id (some v)) := by
  intro i w hw
  rw [Array.getElem?_setIfInBounds] at hw
  split at hw
  · split at hw
    · obtain rfl : v = w := by simpa using hw
      exact hv
    · simp at hw
  · exact h i w hw

/-- A value that is put together is well tied, whatever labels in it stand for something outside. -/
def IsWhole (found : Value × List NodeId) : Prop := found.1.WellTied

/-- A value and the labels in it, before a knot is put around it: a value that is no list and no object has none. -/
def IsOpen (found : Value × List NodeId) : Prop := found.1.WellTied ∧ (found.2 = [] ∨ found.1.IsCollection)

theorem IsOpen.wellTied_whole {found : Value × List NodeId} (h : IsOpen found) (id : NodeId) :
    (if found.2.isEmpty then found.1 else Value.knot id found.1).WellTied := by
  split
  · exact h.1
  · rename_i hne
    have hcollection : found.1.IsCollection := h.2.resolve_left (by simpa using hne)
    exact ⟨hcollection, h.1⟩

/-- Noting what is complete keeps the invariant. -/
theorem keeps_whole {whole : Value} (h : whole.WellTied) {id : NodeId} {outside : List NodeId} :
    Keeps AllWellTied IsWhole
      (if outside.isEmpty then
        modify (fun finished => finished.setIfInBounds id (some whole)) >>= fun _ => pure (whole, outside)
      else pure (whole, outside)) := by
  split
  · exact Keeps.bind (.modify fun _ hs => hs.setIfInBounds h id) fun _ _ => .pure h
  · exact .pure h

theorem wellTied_map_fst {found : List (Value × List NodeId)} (h : ∀ b ∈ found, IsWhole b) :
    ∀ v ∈ found.map Prod.fst, v.WellTied := List.forall_mem_map.2 h

/-- A node is put together to something well tied: a knot is put around lists and objects only, since only they refer to
other nodes. -/
theorem keeps_tie (data : Array (Option Datum)) (fuel : Nat) (around : List NodeId) (id : NodeId) :
    Keeps AllWellTied IsWhole (tie data fuel around id) := by
  induction fuel generalizing around id with
  | zero => exact .pure trivial
  | succ fuel ih =>
    rw [tie]
    refine Keeps.get.bind fun finished hfinished => ?_
    split
    · rename_i v hv
      exact .pure (hfinished id v hv)
    · split
      · exact .pure trivial
      · dsimp only
        have hmany : ∀ ids : List NodeId, Keeps AllWellTied (fun found => ∀ b ∈ found, IsWhole b)
            (ids.mapM (tie data fuel (id :: around))) := fun ids => .mapM fun a _ => ih (id :: around) a
        -- no datum, a scalar and a set hold no labels; lists, objects and lists of pairs are collections
        split
        · exact Keeps.bind (P := IsOpen) (.pure ⟨trivial, Or.inl rfl⟩) fun _ h => keeps_whole (h.wellTied_whole id)
        · exact Keeps.bind (P := IsOpen) (.pure ⟨trivial, Or.inl rfl⟩) fun _ h => keeps_whole (h.wellTied_whole id)
        · exact Keeps.bind (P := IsOpen) (.pure ⟨trivial, Or.inl rfl⟩) fun _ h => keeps_whole (h.wellTied_whole id)
        · refine (hmany _).bind fun found hfound => ?_
          have hlist : Value.ItemsWellTied (found.map Prod.fst) :=
            Value.itemsWellTied_iff.2 (wellTied_map_fst hfound)
          exact Keeps.bind (P := IsOpen) (.pure ⟨hlist, Or.inr (Or.inl ⟨_, rfl⟩)⟩) fun _ h =>
            keeps_whole (h.wellTied_whole id)
        · rename_i fields _
          refine (hmany _).bind fun found hfound => ?_
          have hobject : Value.FieldsWellTied ((fields.map Prod.fst).zip (found.map Prod.fst)) :=
            Value.fieldsWellTied_iff.2 fun f hf => wellTied_map_fst hfound f.2 (List.of_mem_zip hf).2
          exact Keeps.bind (P := IsOpen) (.pure ⟨hobject, Or.inr (Or.inr ⟨_, rfl⟩)⟩) fun _ h =>
            keeps_whole (h.wellTied_whole id)
        · refine (hmany _).bind fun firsts hfirsts => (hmany _).bind fun seconds hseconds => ?_
          have hpairs : Value.ItemsWellTied ((firsts.zip seconds).map (fun f => Value.pair f.1.1 f.2.1)) :=
            Value.itemsWellTied_iff.2 (List.forall_mem_map.2 fun f hf =>
              ⟨hfirsts _ (List.of_mem_zip hf).1, hseconds _ (List.of_mem_zip hf).2⟩)
          exact Keeps.bind (P := IsOpen) (.pure ⟨hpairs, Or.inr (Or.inl ⟨_, rfl⟩)⟩) fun _ h =>
            keeps_whole (h.wellTied_whole id)

theorem wellTied_valueOf (data : Array (Option Datum)) (root : NodeId) : (valueOf data root).WellTied := by
  refine (keeps_tie data (data.size + 1) [] root _ ?_).1
  intro i v hv
  rw [Array.getElem?_replicate] at hv
  split at hv <;> simp at hv

end Yaml

theorem Value.wellTied_ofYaml {chars : List Char} {v : Value} (h : ofYaml chars = .ok v) : v.WellTied := by
  obtain ⟨document, -, h⟩ := bind_eq_ok_iff.1 h
  obtain ⟨data, -, h⟩ := bind_eq_ok_iff.1 h
  obtain rfl := Except.ok.inj h
  exact Yaml.wellTied_valueOf data document.root

/-- The data of a file are well tied. -/
theorem Files.wellTied_of_loadValue {files : Files} {path : Path} {v : Value} (h : files.loadValue path = .ok v) :
    v.WellTied := by
  unfold loadValue at h
  split at h
  · cases h
  · split at h
    · cases h
    · exact Value.wellTied_ofYaml (mapError_eq_ok_iff.1 h)

end Disclosure
