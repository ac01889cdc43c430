import Disclosure.Proofs.Acceptance
import Disclosure.Proofs.JsonText

/-!
# Disclosure.Proofs.JsonRequest — requests in JSON files

What is read from JSON data holds JSON data.  So no query of a request in a JSON file has anything in it that cannot be
written as JSON again.

* `Value.IsJson.of_untie`, `Value.IsJson.get`: nothing is tied, and every field holds JSON data.
* `Request.isJson_of_mem_entries`: the queries of a request from JSON data.
-/

namespace Disclosure

/-- What holds of null and of every field holds of what is read by a name. -/
theorem Fields.get_of_forall {P : Value → Prop} {fields : Fields} (hnull : P .null) (h : ∀ f ∈ fields, P f.2)
    (name : String) : P (fields.get name) := by
  induction fields with
  | nil => exact hnull
  | cons f rest ih =>
    obtain ⟨hf, hrest⟩ := List.forall_mem_cons.1 h
    rw [Fields.get, Fields.field?, List.lookup_cons]
    split
    · exact hf
    · exact ih hrest

namespace Value.IsJson

variable {v : Value}

/-- JSON data stand nowhere inside themselves: what they are when they are untied is JSON data too. -/
theorem of_untie {w : Value} (h : v.IsJson) (hw : v.untie = w) : w.IsJson := by
  cases v with
  | knot label u => exact h.elim
  | _ => exact hw ▸ h

theorem get {fields : Fields} (h : FieldsJson fields) (name : String) : (fields.get name).IsJson :=
  Fields.get_of_forall trivial (fun f hf => (fieldsJson_iff.1 h f hf).2) name

end Value.IsJson

namespace CredentialQuery

theorem isJson_claims {v : Value} {claims : List Fields} (h : v.IsJson) (hd : DenotesClaims v (some claims)) :
    ∀ c ∈ claims, (Value.object c).IsJson := by
  obtain ⟨-, items, hitems, hall⟩ := hd
  have hjson := Value.areJson_iff.1 (h.of_untie hitems)
  intro c hc
  obtain ⟨i, hi⟩ := List.getElem?_of_mem hc
  obtain ⟨item, hitem, hobject⟩ := exists_getElem?_of_forall₂ hall hi
  exact (hjson item (List.mem_of_getElem? hitem)).of_untie hobject

/-- A query is written as JSON data when its entry holds some. -/
theorem isJson_toValue {fields : Fields} {q : CredentialQuery} (h : Value.FieldsJson fields) (hd : Denotes fields q) :
    q.toValue.IsJson := by
  have hmetadata : Value.FieldsJson q.metadata := by
    rcases hd.metadata with ⟨-, hnil⟩ | hobject
    · rw [hnil]
      trivial
    · exact (Value.IsJson.get h "meta").of_untie hobject
  have hclaims : ∀ claims, q.claims = some claims → ∀ c ∈ claims, (Value.object c).IsJson := by
    intro claims hq
    have hdenotes := hd.claims
    rw [hq] at hdenotes
    exact isJson_claims (Value.IsJson.get h "claims") hdenotes
  rw [toValue, Value.IsJson, Value.fieldsJson_iff, toFields]
  simp only [List.forall_mem_append]
  refine ⟨⟨⟨?_, ?_⟩, ?_⟩, ?_⟩
  · simp [Value.IsJson, Scalar.IsJson]
  · split
    · simp
    · simp [Value.IsJson, hmetadata]
  · cases hq : q.claims with
    | none => simp
    | some claims =>
      have hlist : Value.AreJson (claims.map .object) :=
        Value.areJson_iff.2 (List.forall_mem_map.2 (hclaims claims hq))
      simp [Value.IsJson, hlist]
  · split
    · simp
    · simp [Value.IsJson, Scalar.IsJson]

end CredentialQuery

namespace Request

theorem isJson_of_mem_entries {v : Value} {r : Request} (h : v.IsJson) (hr : ofValue v = .ok r) {q : CredentialQuery}
    (hq : q ∈ r.catalogue.entries) : q.toValue.IsJson := by
  obtain ⟨fields, hbody, ⟨entries, hentries, -, hall⟩, -⟩ := ofValue_eq_ok_iff.1 hr
  have hfields : Value.FieldsJson fields := by
    cases hbody with
    | bare hobject _ => exact h.of_untie hobject
    | carried hobject hpresent hnested =>
      have hw := Value.IsJson.get (h.of_untie hobject) "dcql_query"
      rw [Fields.get, hpresent, Option.getD_some] at hw
      exact hw.of_untie hnested
  have hcredentials := Value.areJson_iff.1 ((Value.IsJson.get hfields "credentials").of_untie hentries)
  obtain ⟨i, hi⟩ := List.getElem?_of_mem hq
  obtain ⟨e, he, own, hobject, hdenotes⟩ := exists_getElem?_of_forall₂ hall hi
  exact CredentialQuery.isJson_toValue ((hcredentials e (List.mem_of_getElem? he)).of_untie hobject) hdenotes

end Request

end Disclosure
