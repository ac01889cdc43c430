import Disclosure.Proofs.Grammar
import Disclosure.Proofs.ItemByItem

/-!
# Disclosure.Proofs.Denotation — which part of a request a value denotes

A value denotes a part of a request when everything in that part stands in the value at its place.  Each function that
reads a part succeeds exactly on the values that denote something, wherever they stand, and gives what they denote.

* `QueryId.ofValue_eq_ok_iff`, `CredentialQuery.ofValue_eq_ok_iff`, `Combination.ofValue_eq_ok_iff`,
  `CredentialSet.ofValue_eq_ok_iff`: what each reader accepts, and what it gives.
* `exists_denotes_iff`, in each namespace: the values that denote something are those of the grammar.
-/

namespace Disclosure

open Grammar

/-! ### Objects, texts and ids -/

/-- An object denotes something exactly when its fields have the form of something. -/
theorem exists_objectWith_iff {α : Type} {R : Fields → α → Prop} {P : Fields → Prop}
    (h : ∀ fields, (∃ a, R fields a) ↔ P fields) {v : Value} :
    (∃ a, v.ObjectWith (fun fields => R fields a)) ↔ v.ObjectWith P := by
  constructor
  · rintro ⟨a, fields, hv, ha⟩
    exact ⟨fields, hv, (h fields).1 ⟨a, ha⟩⟩
  · rintro ⟨fields, hv, hP⟩
    obtain ⟨a, ha⟩ := (h fields).2 hP
    exact ⟨a, fields, hv, ha⟩

/-- Objects denote one thing each exactly when each has the form of something. -/
theorem exists_forall₂_objectWith_iff {α : Type} {R : Fields → α → Prop} {P : Fields → Prop} {vs : List Value}
    (h : ∀ fields, (∃ a, R fields a) ↔ P fields) :
    (∃ as, List.Forall₂ (fun v a => v.ObjectWith (fun fields => R fields a)) vs as) ↔ ∀ v ∈ vs, v.ObjectWith P := by
  rw [exists_forall₂_iff]
  exact forall₂_congr (fun v _ => exists_objectWith_iff h)

theorem Text.toString?_eq_some_iff {t : Text} {s : String} : t.toString? = some s ↔ t = ofString s := by
  constructor
  · intro h
    rw [toString?, Option.map_eq_some_iff] at h
    obtain ⟨cs, hcs, rfl⟩ := h
    have hchars : List.Forall₂ (fun p c => p = CodePoint.char c) t cs := by
      refine (mapM_eq_some_iff.1 hcs).imp (fun p c hp => ?_)
      cases p with
      | char d => simpa [CodePoint.char?] using hp
      | surrogate offset => simp [CodePoint.char?] at hp
    rw [← List.forall₂_map_right_iff, List.forall₂_eq_eq_eq] at hchars
    rw [hchars, ofString, String.toList_ofList]
  · rintro rfl
    exact toString?_ofString s

theorem Value.nonemptyText?_eq_some_iff {v : Value} {t : Text} :
    v.nonemptyText? = some t ↔ v = .text t ∧ t ≠ [] := by
  unfold nonemptyText?
  split
  · rename_i u
    cases u with
    | nil => simp +contextual
    | cons p rest => simp +contextual [eq_comm]
  · rename_i hv
    simp only [reduceCtorEq, false_iff, not_and]
    intro h
    exact absurd h (hv t)

theorem Value.fields?_eq_some_iff {v : Value} {f : Fields} : v.fields? = some f ↔ v.untie = .object f := by
  unfold fields?
  split
  · rename_i g h
    simp [h]
  · rename_i h
    simp only [reduceCtorEq, false_iff]
    exact h f

/-- What is read from objects only is read exactly from those with suitable fields. -/
theorem Value.readObject_eq_ok_iff {ε α : Type} {read : Fields → Except ε α} {refusal : ε} {R : Fields → α → Prop}
    (h : ∀ fields {a}, read fields = .ok a ↔ R fields a) {v : Value} {a : α} :
    (match v.untie with
      | .object fields => read fields
      | _ => .error refusal) = .ok a ↔ v.ObjectWith (fun fields => R fields a) := by
  unfold ObjectWith
  split
  · rename_i fields hobject
    simp [hobject, h]
  · rename_i hobject
    simp only [reduceCtorEq, false_iff, not_exists, not_and]
    exact fun fields hf => absurd hf (hobject fields)

namespace QueryId

/-- The value is the text of the id. -/
def Denotes (v : Value) (id : String) : Prop := IsIdText id.toList ∧ v = .text id

theorem ofText?_eq_some_iff {t : Text} {id : String} : ofText? t = some id ↔ IsIdText id.toList ∧ t = id := by
  rw [ofText?, Option.filter_eq_some_iff, isValid_iff, Text.toString?_eq_some_iff]
  exact and_comm

theorem ofString_ne_nil {id : String} (h : IsIdText id.toList) : Text.ofString id ≠ [] := by
  obtain ⟨letters, hne, -, heq | heq⟩ := h <;> simp [Text.ofString, heq, hne]

theorem ofValue_eq_ok_iff {v : Value} {place : Place} {id : String} :
    ofValue v place = .ok id ↔ Denotes v id := by
  unfold ofValue Denotes
  cases hv : v.nonemptyText? with
  | none =>
    have hno : ¬ (IsIdText id.toList ∧ v = .text id) := by
      rintro ⟨hid, rfl⟩
      rw [Value.nonemptyText?_eq_some_iff.2 ⟨rfl, ofString_ne_nil hid⟩] at hv
      exact absurd hv (by simp)
    simp [hno]
  | some t =>
    obtain ⟨rfl, -⟩ := Value.nonemptyText?_eq_some_iff.1 hv
    simp only [Scalar.text.injEq, Value.scalar.injEq]
    rw [← ofText?_eq_some_iff]
    cases ofText? t <;> simp

theorem exists_denotes_iff {v : Value} : (∃ id, Denotes v id) ↔ IsId v := by
  constructor
  · rintro ⟨id, hid, rfl⟩
    exact ⟨id.toList, hid, rfl⟩
  · rintro ⟨chars, hchars, rfl⟩
    refine ⟨String.ofList chars, ?_, ?_⟩
    · rwa [String.toList_ofList]
    · rw [Text.ofString, String.toList_ofList]

end QueryId

/-! ### Entries of the catalogue -/

namespace CredentialQuery

/-- The claims of a query: null stands for none, a list for the fields of its items. -/
def DenotesClaims (v : Value) : Option (List Fields) → Prop
  | none => v.untie = .null
  | some claims => claims ≠ [] ∧ ∃ items, v.untie = .list items ∧
      List.Forall₂ (fun c fields => c.untie = .object fields) items claims

/-- The fields are those of the query: what is there is kept, what may be left out has its default. -/
structure Denotes (fields : Fields) (q : CredentialQuery) : Prop where
  id : QueryId.Denotes (fields.get "id") q.id
  format : q.format ≠ [] ∧ fields.get "format" = .text q.format
  metadata : ((fields.get "meta").untie = .null ∧ q.metadata = []) ∨ (fields.get "meta").untie = .object q.metadata
  claims : DenotesClaims (fields.get "claims") q.claims
  multiple : (fields.field? "multiple" = none ∧ q.multiple = .bool false) ∨
    ∃ b, fields.field? "multiple" = some (.bool b) ∧ q.multiple = .bool b

variable {fields : Fields} {place : Place}

theorem readFormat_eq_ok_iff {t : Text} :
    readFormat fields place = .ok t ↔ t ≠ [] ∧ fields.get "format" = .text t := by
  unfold readFormat
  rw [and_comm, ← Value.nonemptyText?_eq_some_iff]
  cases (fields.get "format").nonemptyText? <;> simp

theorem readMetadata_eq_ok_iff {metadata : Fields} :
    readMetadata fields place = .ok metadata ↔
      ((fields.get "meta").untie = .null ∧ metadata = []) ∨ (fields.get "meta").untie = .object metadata := by
  unfold readMetadata
  split
  · rename_i h
    simp [h, eq_comm]
  · rename_i m h
    simp [h]
  · rename_i hnull hobject
    simp only [reduceCtorEq, false_iff, not_or, not_and]
    exact ⟨fun h => absurd h hnull, hobject metadata⟩

/-- A list with an item denotes the fields of its items. -/
theorem denotesClaims_some_iff {v c : Value} {rest : List Value} {claims : List Fields}
    (h : v.untie = .list (c :: rest)) :
    DenotesClaims v (some claims) ↔ (c :: rest).mapM Value.fields? = some claims := by
  rw [mapM_eq_some_iff]
  simp only [DenotesClaims, h, Value.list.injEq, exists_eq_left', Value.fields?_eq_some_iff]
  exact ⟨And.right, fun hf => ⟨(ne_nil_iff_of_forall₂ hf).1 (by simp), hf⟩⟩

theorem readClaims_eq_ok_iff {claims : Option (List Fields)} :
    readClaims fields place = .ok claims ↔ DenotesClaims (fields.get "claims") claims := by
  unfold readClaims
  split
  · rename_i h
    cases claims <;> simp [DenotesClaims, h]
  · rename_i c rest h
    cases claims with
    | none =>
      simp only [DenotesClaims, h, reduceCtorEq, iff_false]
      cases (c :: rest).mapM Value.fields? <;> simp
    | some claims =>
      rw [denotesClaims_some_iff h]
      cases (c :: rest).mapM Value.fields? <;> simp
  · rename_i hnull hlist
    cases claims with
    | none => simpa [DenotesClaims] using hnull
    | some claims =>
      simp only [DenotesClaims, reduceCtorEq, false_iff, not_and, not_exists]
      rintro hne items hitems hf
      obtain ⟨item, rest, rfl⟩ := exists_cons_of_forall₂ hf hne
      exact hlist item rest hitems

theorem readMultiple_eq_ok_iff {b : Bool} :
    readMultiple fields place = .ok b ↔
      (fields.field? "multiple" = none ∧ b = false) ∨ fields.field? "multiple" = some (.bool b) := by
  unfold readMultiple
  split
  · rename_i h
    simp [h, eq_comm]
  · rename_i c h
    simp [h]
  · rename_i w hbool h
    simp only [h, reduceCtorEq, false_and, false_or, false_iff, Option.some.injEq]
    rintro rfl
    exact hbool b rfl

/-- A query is read exactly from fields that denote it, wherever they stand. -/
theorem ofFields_eq_ok_iff {q : CredentialQuery} : ofFields fields place = .ok q ↔ Denotes fields q := by
  simp only [ofFields, bind_eq_ok_iff, QueryId.ofValue_eq_ok_iff, readFormat_eq_ok_iff, readMetadata_eq_ok_iff,
    readClaims_eq_ok_iff, readMultiple_eq_ok_iff, pure, Except.pure, Except.ok.injEq]
  constructor
  · rintro ⟨id, hid, format, hformat, metadata, hmetadata, claims, hclaims, b, hb, rfl⟩
    refine ⟨hid, hformat, hmetadata, hclaims, ?_⟩
    rcases hb with ⟨hnone, rfl⟩ | hb
    · exact Or.inl ⟨hnone, rfl⟩
    · exact Or.inr ⟨b, hb, rfl⟩
  · obtain ⟨id, format, metadata, claims, multiple⟩ := q
    rintro ⟨hid, hformat, hmetadata, hclaims, ⟨hnone, rfl⟩ | ⟨b, hb, rfl⟩⟩
    · exact ⟨id, hid, format, hformat, metadata, hmetadata, claims, hclaims, false, Or.inl ⟨hnone, rfl⟩, rfl⟩
    · exact ⟨id, hid, format, hformat, metadata, hmetadata, claims, hclaims, b, Or.inr hb, rfl⟩

theorem ofValue_eq_ok_iff {v : Value} {q : CredentialQuery} :
    ofValue v place = .ok q ↔ v.ObjectWith (fun fields => Denotes fields q) :=
  Value.readObject_eq_ok_iff (fun _ => ofFields_eq_ok_iff)

theorem exists_denotesClaims_iff {v : Value} :
    (∃ claims, DenotesClaims v claims) ↔ v.untie = .null ∨ IsClaims v := by
  constructor
  · rintro ⟨claims, h⟩
    cases claims with
    | none => exact Or.inl h
    | some claims =>
      obtain ⟨hne, items, hitems, hf⟩ := h
      refine Or.inr ⟨items, hitems, (ne_nil_iff_of_forall₂ hf).2 hne, ?_⟩
      intro c hc
      obtain ⟨fields, hfields⟩ := exists_forall₂_iff.1 ⟨claims, hf⟩ c hc
      exact ⟨fields, hfields, trivial⟩
  · rintro (hnull | ⟨items, hitems, hne, hobjects⟩)
    · exact ⟨none, hnull⟩
    · have hex : ∀ c ∈ items, ∃ fields, c.untie = .object fields := by
        intro c hc
        obtain ⟨fields, hfields, -⟩ := hobjects c hc
        exact ⟨fields, hfields⟩
      obtain ⟨claims, hf⟩ := exists_forall₂_iff.2 hex
      exact ⟨some claims, (ne_nil_iff_of_forall₂ hf).1 hne, items, hitems, hf⟩

theorem exists_denotes_iff : (∃ q, Denotes fields q) ↔ IsQuery fields := by
  constructor
  · rintro ⟨q, h⟩
    refine ⟨QueryId.exists_denotes_iff.1 ⟨q.id, h.id⟩, ⟨q.format, h.format⟩, ?_,
      exists_denotesClaims_iff.1 ⟨q.claims, h.claims⟩, ?_⟩
    · exact h.metadata.imp And.left (fun hm => ⟨_, hm⟩)
    · exact h.multiple.imp And.left (fun ⟨b, hb, _⟩ => ⟨b, hb⟩)
  · rintro ⟨hid, ⟨format, hformat⟩, hmetadata, hclaims, hmultiple⟩
    obtain ⟨id, hid⟩ := QueryId.exists_denotes_iff.2 hid
    obtain ⟨claims, hclaims⟩ := exists_denotesClaims_iff.2 hclaims
    have hmetadata : ∃ metadata, ((fields.get "meta").untie = .null ∧ metadata = []) ∨
        (fields.get "meta").untie = .object metadata := by
      rcases hmetadata with hnull | ⟨metadata, hobject⟩
      · exact ⟨[], Or.inl ⟨hnull, rfl⟩⟩
      · exact ⟨metadata, Or.inr hobject⟩
    have hmultiple : ∃ multiple : Value, (fields.field? "multiple" = none ∧ multiple = .bool false) ∨
        ∃ b, fields.field? "multiple" = some (.bool b) ∧ multiple = .bool b := by
      rcases hmultiple with hnone | ⟨b, hb⟩
      · exact ⟨.bool false, Or.inl ⟨hnone, rfl⟩⟩
      · exact ⟨.bool b, Or.inr ⟨b, hb, rfl⟩⟩
    obtain ⟨metadata, hmetadata⟩ := hmetadata
    obtain ⟨multiple, hmultiple⟩ := hmultiple
    exact ⟨⟨id, format, metadata, claims, multiple⟩, hid, hformat, hmetadata, hclaims, hmultiple⟩

theorem exists_forall₂_denotes_iff {entries : List Value} :
    (∃ queries, List.Forall₂ (fun e q => e.ObjectWith (fun fields => Denotes fields q)) entries queries) ↔
      ∀ e ∈ entries, e.ObjectWith IsQuery :=
  exists_forall₂_objectWith_iff (fun _ => exists_denotes_iff)

/-- An entry carries the id of the query that it denotes. -/
theorem member_id_of_denotes {v : Value} {q : CredentialQuery} (h : v.ObjectWith (fun fields => Denotes fields q)) :
    v.member "id" = .text q.id := by
  obtain ⟨fields, hv, h⟩ := h
  rw [Value.member_of_untie hv, h.id.2]

end CredentialQuery

/-! ### Options and sets -/

namespace Combination

/-- The value is the list of the ids. -/
def Denotes (v : Value) (o : Combination) : Prop :=
  ∃ ids, v.untie = .list ids ∧ List.Forall₂ QueryId.Denotes ids o.ids

variable {v : Value} {place : Place} {o : Combination}

theorem ofIds_eq_ok_iff {ids : List String} : ofIds ids = .ok o ↔ ids = o.ids := by
  unfold ofIds
  split
  · rename_i h
    subst h
    simp only [reduceCtorEq, false_iff]
    exact fun h => o.ids_ne h.symm
  · rename_i h
    constructor
    · rintro ⟨⟩
      rfl
    · rintro rfl
      rfl

theorem ofValue_eq_ok_iff : ofValue v place = .ok o ↔ Denotes v o := by
  unfold ofValue Denotes
  split
  · rename_i item rest h
    have hread : ∀ (_ : Nat) w id, QueryId.ofValue w place = .ok id ↔ QueryId.Denotes w id :=
      fun _ _ _ => QueryId.ofValue_eq_ok_iff
    simp only [h, bind_eq_ok_iff, ofIds_eq_ok_iff, exists_eq_right, Value.list.injEq, exists_eq_left',
      readEach_eq_ok_iff hread]
  · rename_i h
    simp only [reduceCtorEq, false_iff, not_exists, not_and]
    intro ids hids hf
    obtain ⟨item, rest, rfl⟩ := exists_cons_of_forall₂ hf o.ids_ne
    exact h item rest hids

theorem items_of_denotes (h : Denotes v o) : v.items = o.ids.map (fun (id : String) => .text id) := by
  obtain ⟨ids, hv, hf⟩ := h
  rw [Value.items_of_untie hv, ← List.map_id ids]
  exact map_eq_map_of_forall₂ hf (fun _ _ hid => hid.2)

theorem exists_denotes_iff : (∃ o, Denotes v o) ↔ IsOption v := by
  constructor
  · rintro ⟨o, ids, hv, hf⟩
    refine ⟨ids, hv, (ne_nil_iff_of_forall₂ hf).2 o.ids_ne, ?_⟩
    intro id hid
    exact QueryId.exists_denotes_iff.1 (exists_forall₂_iff.1 ⟨o.ids, hf⟩ id hid)
  · rintro ⟨ids, hv, hne, hids⟩
    obtain ⟨texts, hf⟩ := exists_forall₂_iff.2 (fun id hid => QueryId.exists_denotes_iff.2 (hids id hid))
    exact ⟨⟨texts, (ne_nil_iff_of_forall₂ hf).1 hne⟩, ids, hv, hf⟩

end Combination

namespace CredentialSet

/-- The fields are those of the set: its options in order, its flag (required, when it is left out) and its
purpose. -/
structure Denotes (fields : Fields) (s : CredentialSet) : Prop where
  options : ∃ options, (fields.get "options").untie = .list options ∧
    List.Forall₂ Combination.Denotes options s.options
  required : (fields.get "required" = .null ∧ s.required = true) ∨ fields.get "required" = .bool s.required
  purpose : s.purpose = fields.get "purpose"

variable {fields : Fields} {place : Place} {s : CredentialSet}

theorem readOptions_eq_ok_iff {options : List Combination} :
    readOptions fields place = .ok options ↔
      options ≠ [] ∧ ∃ items, (fields.get "options").untie = .list items ∧
        List.Forall₂ Combination.Denotes items options := by
  unfold readOptions
  split
  · rename_i item rest h
    have hread : ∀ i w o, Combination.ofValue w ((place.field "options").item i) = .ok o ↔ Combination.Denotes w o :=
      fun _ _ _ => Combination.ofValue_eq_ok_iff
    simp only [h, Value.list.injEq, exists_eq_left', readEach_eq_ok_iff hread]
    exact ⟨fun hf => ⟨(ne_nil_iff_of_forall₂ hf).1 (by simp), hf⟩, And.right⟩
  · rename_i h
    simp only [reduceCtorEq, false_iff, not_and, not_exists]
    intro hne items hitems hf
    obtain ⟨item, rest, rfl⟩ := exists_cons_of_forall₂ hf hne
    exact h item rest hitems

theorem readRequired_eq_ok_iff {b : Bool} :
    readRequired fields place = .ok b ↔
      (fields.get "required" = .null ∧ b = true) ∨ fields.get "required" = .bool b := by
  unfold readRequired
  split
  · rename_i h
    simp [h, eq_comm]
  · rename_i c h
    simp [h]
  · rename_i hnull hbool
    simp only [reduceCtorEq, false_iff, not_or, not_and]
    exact ⟨fun h => absurd h hnull, hbool b⟩

theorem ofOptions_bool_eq_ok_iff {options : List Combination} {b : Bool} {purpose : Value} :
    ofOptions options (.bool b) purpose = .ok s ↔ options = s.options ∧ b = s.required ∧ purpose = s.purpose := by
  unfold ofOptions
  split
  · rename_i h
    subst h
    simp only [reduceCtorEq, false_iff, not_and]
    exact fun h => absurd h.symm s.options_ne
  · rename_i h
    constructor
    · rintro ⟨⟩
      exact ⟨rfl, rfl, rfl⟩
    · rintro ⟨rfl, rfl, rfl⟩
      rfl

theorem ofFields_eq_ok_iff : ofFields fields place = .ok s ↔ Denotes fields s := by
  simp only [ofFields, bind_eq_ok_iff, readOptions_eq_ok_iff, readRequired_eq_ok_iff, ofOptions_bool_eq_ok_iff]
  constructor
  · rintro ⟨_, ⟨-, hoptions⟩, _, hrequired, rfl, rfl, hpurpose⟩
    exact ⟨hoptions, hrequired, hpurpose.symm⟩
  · rintro ⟨hoptions, hrequired, hpurpose⟩
    exact ⟨s.options, ⟨s.options_ne, hoptions⟩, s.required, hrequired, rfl, rfl, hpurpose.symm⟩

theorem ofValue_eq_ok_iff {v : Value} :
    ofValue v place = .ok s ↔ v.ObjectWith (fun fields => Denotes fields s) :=
  Value.readObject_eq_ok_iff (fun _ => ofFields_eq_ok_iff)

theorem exists_denotes_iff : (∃ s, Denotes fields s) ↔ IsSet fields := by
  constructor
  · rintro ⟨s, ⟨options, hoptions, hf⟩, hrequired, -⟩
    refine ⟨⟨options, hoptions, (ne_nil_iff_of_forall₂ hf).2 s.options_ne, ?_⟩, ?_⟩
    · intro o ho
      exact Combination.exists_denotes_iff.1 (exists_forall₂_iff.1 ⟨s.options, hf⟩ o ho)
    · exact hrequired.imp And.left (fun h => ⟨s.required, h⟩)
  · rintro ⟨⟨options, hoptions, hne, hall⟩, hrequired⟩
    obtain ⟨combinations, hf⟩ := exists_forall₂_iff.2 (fun o ho => Combination.exists_denotes_iff.2 (hall o ho))
    have hflag : ∃ b, (fields.get "required" = .null ∧ b = true) ∨ fields.get "required" = .bool b := by
      rcases hrequired with hnull | ⟨b, hb⟩
      · exact ⟨true, Or.inl ⟨hnull, rfl⟩⟩
      · exact ⟨b, Or.inr hb⟩
    obtain ⟨b, hb⟩ := hflag
    exact ⟨⟨combinations, (ne_nil_iff_of_forall₂ hf).1 hne, b, fields.get "purpose"⟩, ⟨options, hoptions, hf⟩, hb, rfl⟩

theorem exists_forall₂_denotes_iff {items : List Value} :
    (∃ sets, List.Forall₂ (fun i s => i.ObjectWith (fun fields => Denotes fields s)) items sets) ↔
      ∀ i ∈ items, i.ObjectWith IsSet :=
  exists_forall₂_objectWith_iff (fun _ => exists_denotes_iff)

/-- A value that denotes a set names the ids of its options, in order. -/
theorem namedIds_of_denotes {v : Value} (h : v.ObjectWith (fun fields => Denotes fields s)) :
    namedIds v = (s.options.flatMap Combination.ids).map (fun (id : String) => .text id) := by
  obtain ⟨fields, hv, h⟩ := h
  obtain ⟨options, hoptions, hf⟩ := h.options
  have hitems := map_eq_map_of_forall₂ hf (fun _ _ ho => Combination.items_of_denotes ho)
  rw [namedIds, Value.member_of_untie hv, Value.items_of_untie hoptions, List.flatMap_def, hitems, ← List.flatMap_def,
    List.map_flatMap]

end CredentialSet

end Disclosure
