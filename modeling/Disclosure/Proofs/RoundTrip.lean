import Disclosure.Proofs.Acceptance
import Disclosure.Request.Writer

/-!
# Disclosure.Proofs.RoundTrip — a request that is written is read back

Writing leaves out empty metadata, absent claims and the unset flag for several credentials.  Reading puts them back,
so a request that was read is found again in what is written for it.  A request that was put together by hand need not
be: an empty list of claims is written, and refused.

* `CredentialQuery.Regular`, `Request.Regular`: what reading ensures, beyond what the types say.
* `CredentialQuery.denotes_toFields`, `CredentialSet.denotes_toValue`, `Request.denotes_toValue`: what is written denotes
  what was written.
* `Request.read_written`: reading after writing.
-/

namespace Disclosure

open Grammar

/-! ### Fields named by texts -/

@[simp]
theorem Fields.field?_text_cons (a b : String) (v : Value) (rest : Fields) :
    Fields.field? ((.text a, v) :: rest) b = if b = a then some v else Fields.field? rest b := by
  have h : (Scalar.text b = Scalar.text a) ↔ b = a := by
    rw [Scalar.text.injEq]
    exact ⟨Text.ofString_injective, fun h => h ▸ rfl⟩
  by_cases hba : b = a
  · simp [Fields.field?, hba]
  · have hne : (Scalar.text b == Scalar.text a) = false := by simpa [h] using hba
    simp [Fields.field?, List.lookup_cons, hne, hba]

@[simp]
theorem Fields.field?_nil (b : String) : Fields.field? [] b = none := rfl

theorem Fields.field?_append (fields later : Fields) (b : String) :
    Fields.field? (fields ++ later) b = (Fields.field? fields b).or (Fields.field? later b) :=
  List.lookup_append

/-! ### Queries -/

namespace CredentialQuery

/-- What reading ensures of a query: an id of the right form, a format, claims only if there are some, and a flag that
is a boolean. -/
structure Regular (q : CredentialQuery) : Prop where
  id : IsIdText q.id.toList
  format : q.format ≠ []
  claims : q.claims ≠ some []
  multiple : ∃ b, q.multiple = .bool b

variable {q : CredentialQuery}

theorem regular_of_denotes {fields : Fields} (h : Denotes fields q) : q.Regular := by
  refine ⟨h.id.1, h.format.1, ?_, ?_⟩
  · intro hclaims
    have hc := h.claims
    rw [hclaims] at hc
    exact hc.1 rfl
  · rcases h.multiple with ⟨-, hb⟩ | ⟨b, -, hb⟩
    · exact ⟨false, hb⟩
    · exact ⟨b, hb⟩

/-- The fields of a written query, by name. -/
theorem field?_toFields (name : String) :
    Fields.field? q.toFields name =
      if name = "id" then some (.text q.id)
      else if name = "format" then some (.text q.format)
      else if name = "meta" then (if q.metadata = [] then none else some (.object q.metadata))
      else if name = "claims" then q.claims.map (fun claims => .list (claims.map .object))
      else if name = "multiple" then (if q.multiple.isBlank then none else some (.bool true))
      else none := by
  have hmeta : Fields.field? (if q.metadata.isEmpty then [] else [(.text "meta", .object q.metadata)]) name =
      if name = "meta" then (if q.metadata = [] then none else some (.object q.metadata)) else none := by
    by_cases h : q.metadata = [] <;> simp [h]
  have hmultiple : Fields.field? (if q.multiple.isBlank then [] else [(.text "multiple", .bool true)]) name =
      if name = "multiple" then (if q.multiple.isBlank then none else some (.bool true)) else none := by
    by_cases h : q.multiple.isBlank <;> simp [h]
  unfold toFields
  rw [Fields.field?_append, Fields.field?_append, Fields.field?_append, hmeta, hmultiple, Fields.field?_text_cons,
    Fields.field?_text_cons, Fields.field?_nil]
  cases q.claims with
  | none =>
    rw [Fields.field?_nil]
    grind
  | some claims =>
    rw [Fields.field?_text_cons, Fields.field?_nil]
    grind

theorem denotesClaims_toFields (h : q.claims ≠ some []) : DenotesClaims (Fields.get q.toFields "claims") q.claims := by
  have hget : Fields.get q.toFields "claims" =
      (q.claims.map (fun claims => Value.list (claims.map .object))).getD .null := by
    simp [Fields.get, field?_toFields]
  rw [hget]
  cases hclaims : q.claims with
  | none => rfl
  | some claims =>
    have hne : claims ≠ [] := fun hnil => h (by rw [hclaims, hnil])
    refine ⟨hne, claims.map .object, rfl, ?_⟩
    rw [forall₂_map_self_iff]
    intro fields _
    rfl

/-- A query that could have been read is denoted by the fields that are written for it. -/
theorem denotes_toFields (h : q.Regular) : Denotes q.toFields q := by
  refine ⟨⟨h.id, ?_⟩, ⟨h.format, ?_⟩, ?_, denotesClaims_toFields h.claims, ?_⟩
  · simp [Fields.get, field?_toFields]
  · simp [Fields.get, field?_toFields]
  · by_cases hm : q.metadata = []
    · left
      refine ⟨?_, hm⟩
      simp [Fields.get, field?_toFields, hm]
    · right
      simp [Fields.get, field?_toFields, hm]
  · obtain ⟨b, hb⟩ := h.multiple
    rw [field?_toFields, hb]
    cases b with
    | false => exact Or.inl ⟨by simp [Value.isBlank, Scalar.isBlank], rfl⟩
    | true => exact Or.inr ⟨true, by simp [Value.isBlank, Scalar.isBlank], rfl⟩

theorem denotes_toValue (h : q.Regular) : q.toValue.ObjectWith (fun fields => Denotes fields q) :=
  ⟨q.toFields, rfl, denotes_toFields h⟩

end CredentialQuery

/-! ### Sets -/

theorem Combination.denotes_toValue {o : Combination} (h : ∀ id ∈ o.ids, IsIdText id.toList) :
    Denotes o.toValue o := by
  refine ⟨_, rfl, ?_⟩
  rw [forall₂_map_self_iff]
  intro id hid
  exact ⟨h id hid, rfl⟩

theorem CredentialSet.denotes_toValue {s : CredentialSet} (h : ∀ o ∈ s.options, ∀ id ∈ o.ids, IsIdText id.toList) :
    s.toValue.ObjectWith (fun fields => Denotes fields s) := by
  refine ⟨_, rfl, ⟨s.options.map Combination.toValue, ?_, ?_⟩, Or.inr ?_, ?_⟩
  · simp [Fields.get]
  · rw [forall₂_map_self_iff]
    intro o ho
    exact Combination.denotes_toValue (h o ho)
  · simp [Fields.get]
  · simp [Fields.get]

/-! ### Requests -/

namespace Request

/-- What reading ensures of a request: at least one query, and regular ones. -/
structure Regular (r : Request) : Prop where
  entries_ne : r.catalogue.entries ≠ []
  queries : ∀ q ∈ r.catalogue.entries, q.Regular

variable {r : Request}

theorem regular_of_denotes {v : Value} (h : Denotes v r) : r.Regular := by
  obtain ⟨fields, -, ⟨entries, -, hne, hf⟩, -⟩ := h
  refine ⟨(ne_nil_iff_of_forall₂ hf).1 hne, ?_⟩
  intro q hq
  obtain ⟨e, fields, -, hdenotes⟩ := exists_forall₂_iff.1 ⟨entries, List.Forall₂.flip hf⟩ q hq
  exact CredentialQuery.regular_of_denotes hdenotes

/-- The ids of the options are of the right form, because they are ids of the catalogue. -/
theorem isIdText_of_mem_option {sets : List CredentialSet} (h : r.Regular) (hg : r.grouping = some sets) :
    ∀ s ∈ sets, ∀ o ∈ s.options, ∀ id ∈ o.ids, IsIdText id.toList := by
  intro s hs o ho id hid
  have hcovers := firstUnknown?_eq_none_iff_forall.1 r.references_known sets hg
  obtain ⟨q, hq, rfl⟩ := List.mem_map.1 (hcovers s hs o ho id hid)
  exact (h.queries q hq).id

theorem catalogue_denotes (h : r.Regular) : Catalogue.Denotes r.catalogue.toValue r.catalogue := by
  refine ⟨r.catalogue.entries.map CredentialQuery.toValue, rfl, ?_, ?_⟩
  · simpa using h.entries_ne
  · rw [forall₂_map_self_iff]
    intro q hq
    exact CredentialQuery.denotes_toValue (h.queries q hq)

theorem grouping_denotes (h : r.Regular) : Grouping.Denotes (Grouping.toValue r.grouping) r.grouping := by
  cases hg : r.grouping with
  | none => rfl
  | some sets =>
    refine ⟨sets.map CredentialSet.toValue, rfl, ?_⟩
    rw [forall₂_map_self_iff]
    intro s hs
    exact CredentialSet.denotes_toValue (isIdText_of_mem_option h hg s hs)

/-- An object with what is written for the catalogue and the grouping denotes the request. -/
theorem denotes_object {fields : Fields} (h : r.Regular) (hbare : fields.field? "dcql_query" = none)
    (hc : fields.get "credentials" = r.catalogue.toValue)
    (hg : fields.get "credential_sets" = Grouping.toValue r.grouping) : Denotes (.object fields) r := by
  refine ⟨fields, .bare rfl hbare, ?_, ?_⟩
  · rw [hc]
    exact catalogue_denotes h
  · rw [hg]
    exact grouping_denotes h

theorem denotes_toValue (h : r.Regular) : Denotes r.toValue r := by
  refine denotes_object h ?_ ?_ ?_
  · cases hg : r.grouping <;> simp [toFields, hg]
  · simp [toFields, Fields.get]
  · cases hg : r.grouping <;> simp [toFields, hg, Fields.get, Grouping.toValue]

/-- **A request that was read is read back from what is written for it,** also when the missing grouping is written as
null, and writing it again gives the same object. -/
theorem read_written (v : Value) (r : Request) (h : ofValue v = .ok r) :
    ofValue r.toValue = .ok r ∧
      ofValue (.object [(.text "credentials", r.catalogue.toValue),
        (.text "credential_sets", Grouping.toValue r.grouping)]) = .ok r ∧
      ∀ s, ofValue r.toValue = .ok s → s.toValue = r.toValue := by
  have hregular : r.Regular := regular_of_denotes (ofValue_eq_ok_iff.1 h)
  have hwritten : ofValue r.toValue = .ok r := ofValue_eq_ok_iff.2 (denotes_toValue hregular)
  refine ⟨hwritten, ?_, ?_⟩
  · refine ofValue_eq_ok_iff.2 (denotes_object hregular ?_ ?_ ?_)
    · simp
    · simp [Fields.get]
    · simp [Fields.get]
  · intro s hs
    rw [Except.ok.inj (hwritten.symm.trans hs)]

/-- What was under `dcql_query`, with its defaults spelled out, is read back from the bare form without them. -/
theorem read_written_carried :
    ofValue carriedData = .ok carriedRequest ∧ ofValue carriedRequest.toValue = .ok carriedRequest := by
  have h : ofValue carriedData = .ok carriedRequest := rfl
  exact ⟨h, (read_written carriedData carriedRequest h).1⟩

end Request

end Disclosure
