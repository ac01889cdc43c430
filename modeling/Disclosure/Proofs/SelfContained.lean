import Disclosure.Proofs.Resolved
import Disclosure.Proofs.RoundTrip

/-!
# Disclosure.Proofs.SelfContained — what is disclosed is a request of its own

The selected queries, written one after another, are a request without grouping.  It is read again because each query
was read once and stands under its own id, and ids under which a selection holds something are distinct.  Resolving it
for a wallet that has these ids gives the selection back: a catalogue without grouping is selected as a whole and in
order.

* `Selection.toRequestValue`: the data of that request.
* `Request.mem_entries_of_mem_selection`: each selected query stands under its own id.
* `Request.disclosed`: the request itself; `toMap_disclosed`, `regular_disclosed` say what it selects and that it can be
  read.
* `disclosure_selfContained`: both together.
-/

namespace Disclosure

/-- The data of a request for the selected queries, without grouping. -/
def Selection.toRequestValue (m : Selection) : Value :=
  .object [(.text "credentials", .list (m.values.map CredentialQuery.toValue))]

namespace Request

variable {r : Request} {available more : String → Bool}

/-! ### Selected queries -/

/-- What is selected stands in the catalogue, and is selected under its own id. -/
theorem mem_entries_of_mem_selection {e : String × CredentialQuery} (h : e ∈ (r.resolve available).selection.entries) :
    e.2 ∈ r.catalogue.entries ∧ e.2.id = e.1 := by
  have hkey : e.1 ∈ (r.resolve available).selection.keys := List.mem_map_of_mem h
  obtain ⟨-, q, hq, hmem, hid⟩ := exists_get?_of_mem_selection hkey
  obtain rfl : e.2 = q := Option.some.inj ((OrderedMap.get?_of_mem_entries h).symm.trans hq)
  exact ⟨hmem, hid⟩

theorem ids_of_selection (r : Request) (available : String → Bool) :
    (r.resolve available).selection.values.map CredentialQuery.id = (r.resolve available).selection.keys := by
  rw [OrderedMap.values, OrderedMap.keys, List.map_map]
  exact List.map_congr_left (fun e he => (mem_entries_of_mem_selection he).2)

/-! ### The request for them -/

/-- The selected queries as a catalogue without grouping. -/
def disclosed (r : Request) (available : String → Bool) : Request where
  catalogue :=
    { entries := (r.resolve available).selection.values
      nodup_ids := by
        rw [ids_of_selection]
        exact OrderedMap.keys_nodup _ }
  grouping := none
  references_known := rfl

theorem ids_disclosed (r : Request) (available : String → Bool) :
    (r.disclosed available).catalogue.ids = (r.resolve available).selection.keys := ids_of_selection r available

/-- Putting the selected queries into a map gives the selection, in its order. -/
theorem toMap_disclosed (r : Request) (available : String → Bool) :
    (r.disclosed available).catalogue.toMap = (r.resolve available).selection := by
  apply OrderedMap.ext
  calc (r.disclosed available).catalogue.toMap.entries
      = (r.resolve available).selection.values.map (fun q => (q.id, q)) := Catalogue.entries_toMap _
    _ = (r.resolve available).selection.entries.map (fun e => (e.2.id, e.2)) := by
      rw [OrderedMap.values, List.map_map]
      rfl
    _ = (r.resolve available).selection.entries.map id :=
      List.map_congr_left (fun e he => by rw [(mem_entries_of_mem_selection he).2, id])
    _ = (r.resolve available).selection.entries := List.map_id _

/-- Selected queries of a request that could have been read make up such a request. -/
theorem regular_disclosed (hr : r.Regular) (hne : (r.resolve available).selection ≠ ∅) :
    (r.disclosed available).Regular where
  entries_ne := by
    intro hnil
    have hids : (r.disclosed available).catalogue.ids = [] := by rw [Catalogue.ids, hnil, List.map_nil]
    rw [ids_disclosed] at hids
    exact hne (OrderedMap.eq_empty_iff.2 hids)
  queries := by
    intro q hq
    obtain ⟨e, he, rfl⟩ := List.mem_map.1 hq
    exact hr.queries e.2 (mem_entries_of_mem_selection he).1

/-- The whole request is selected when its ids are available. -/
theorem resolve_disclosed (h : ∀ id ∈ (r.resolve available).selection.keys, more id = true) :
    ((r.disclosed available).resolve more).selection = (r.resolve available).selection := by
  have hall : ∀ id ∈ (r.disclosed available).catalogue.ids, more id = true := by rwa [ids_disclosed]
  have hselected : ((r.disclosed available).resolve more).selection = (r.disclosed available).catalogue.toMap := by
    rw [Catalogue.toMap_eq_addAll]
    exact resolveAll_of_available hall
  rw [hselected, toMap_disclosed]

end Request

/-- **What is disclosed is a complete request, and a satisfied one.**  When something is selected for a request that was
read, the selected queries are read as a request of their own, in the same order and without grouping.  For every wallet
that has their ids the same queries are selected again, under the same ids and in the same order. -/
theorem disclosure_selfContained (data : Value) (r : Request) (available : String → Bool)
    (hr : Request.ofValue data = .ok r) :
    ∃ d, resolve r.catalogue r.grouping available = .ok d ∧
      (d.selection ≠ ∅ →
        ∃ s, Request.ofValue d.selection.toRequestValue = .ok s ∧
          s.catalogue.entries = d.selection.values ∧ s.grouping = none ∧
          ∀ more : String → Bool, (∀ id ∈ d.selection.keys, more id = true) →
            ∃ again, resolve s.catalogue s.grouping more = .ok again ∧ again.selection = d.selection) := by
  have hregular : r.Regular := Request.regular_of_denotes (Request.ofValue_eq_ok_iff.1 hr)
  refine ⟨r.resolve available, resolve_eq_ok r available, fun hne => ?_⟩
  have hread : Request.ofValue (r.disclosed available).toValue = .ok (r.disclosed available) :=
    Request.ofValue_eq_ok_iff.2 (Request.denotes_toValue (Request.regular_disclosed hregular hne))
  refine ⟨r.disclosed available, hread, rfl, rfl, fun more hmore => ?_⟩
  exact ⟨_, resolve_eq_ok _ more, Request.resolve_disclosed hmore⟩

/-- Both queries of a request with grouping are disclosed, the second one first, and make up a request in that order. -/
theorem disclosure_selfContained_carried :
    Request.ofValue Request.carriedData = .ok Request.carriedRequest ∧
      ∃ d, resolve Request.carriedRequest.catalogue Request.carriedRequest.grouping (fun _ => true) = .ok d ∧
        d.selection.keys = ["pid\n", "mdl"] ∧ d.selection ≠ ∅ ∧
        ∃ s, Request.ofValue d.selection.toRequestValue = .ok s ∧ s.catalogue.ids = ["pid\n", "mdl"] ∧
          ∃ again, resolve s.catalogue s.grouping (fun id => id != "other") = .ok again ∧
            again.selection = d.selection := by
  have hread : Request.ofValue Request.carriedData = .ok Request.carriedRequest := rfl
  obtain ⟨d, hd, hrequest⟩ :=
    disclosure_selfContained Request.carriedData Request.carriedRequest (fun _ => true) hread
  have hkeys : d.selection.keys = ["pid\n", "mdl"] := by
    cases hd
    decide
  have hne : d.selection ≠ ∅ := by
    rw [ne_eq, OrderedMap.eq_empty_iff, hkeys]
    simp
  obtain ⟨s, hs, hentries, -, hagain⟩ := hrequest hne
  refine ⟨hread, d, hd, hkeys, hne, s, hs, ?_, hagain _ ?_⟩
  · cases hd
    rw [Catalogue.ids, hentries]
    decide
  · rw [hkeys]
    decide

end Disclosure
