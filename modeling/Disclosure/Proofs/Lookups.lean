import Disclosure.Proofs.FirstPlaces
import Disclosure.Proofs.Resolved

/-!
# Disclosure.Proofs.Lookups — two ways to find a query in a catalogue

A query is found by its id in two ways: going through the list to the first query with that id, or asking the map into
which the queries have been put one after another, where the last one put under an id stands.  The ids of a catalogue are
distinct, so the first is the last.

* `Catalogue.get?_toMap`: both ways find the same.
* `Catalogue.get?_eq_none_iff`: nothing is found exactly under an id that no query carries.
* `lookups_agree`: which lists of queries are catalogues, and what is found in them.
-/

namespace Disclosure

theorem RequestError.message_repeatedId (id : String) :
    (repeatedId id).message = Text.ofString ("Duplicate credential query id: '" ++ id ++ "'") := by
  simp [message, Text.ofString_append]

namespace Catalogue

variable {c : Catalogue} {id : String}

theorem get?_eq_none_iff : c.get? id = none ↔ id ∉ c.ids := by
  rw [Option.eq_none_iff_forall_not_mem]
  constructor
  · intro h hid
    obtain ⟨q, hq⟩ := exists_get?_of_mem_ids hid
    exact h q hq
  · intro hid q hq
    obtain ⟨hmem, rfl⟩ := get?_eq_some_iff.1 hq
    exact hid (List.mem_map_of_mem hmem)

/-- The map holds each query under its own id and nothing else. -/
theorem mem_entries_toMap_iff {q : CredentialQuery} : (id, q) ∈ c.toMap.entries ↔ q ∈ c.entries ∧ q.id = id := by
  rw [entries_toMap, List.mem_map]
  constructor
  · rintro ⟨p, hp, heq⟩
    obtain ⟨rfl, rfl⟩ := Prod.mk.inj heq
    exact ⟨hp, rfl⟩
  · rintro ⟨hq, rfl⟩
    exact ⟨q, hq, rfl⟩

/-- The first query with an id is the last one put under it. -/
theorem get?_toMap (c : Catalogue) (id : String) : c.toMap.get? id = c.get? id := by
  ext q
  rw [← OrderedMap.mem_entries_iff, mem_entries_toMap_iff, get?_eq_some_iff]

theorem keys_toMap (c : Catalogue) : c.toMap.keys = c.ids := by
  rw [OrderedMap.keys, entries_toMap, List.map_map]
  rfl

/-- A list of queries is a catalogue exactly when its ids are distinct. -/
theorem exists_ofList_iff {queries : List CredentialQuery} :
    (∃ c, ofList queries = .ok c) ↔ (queries.map CredentialQuery.id).Nodup := by
  simp only [ofList_eq_ok_iff]
  constructor
  · rintro ⟨c, rfl⟩
    exact c.nodup_ids
  · intro h
    exact ⟨⟨queries, h⟩, rfl⟩

end Catalogue

/-- **The two look-ups of a catalogue agree and lose nothing.**  A list of queries is a catalogue exactly when its ids are
distinct; else it is refused for the id at the first place that repeats an earlier one.  In a catalogue the scan and the
map find the same: the one query of the list that carries the id, or nothing when none does.  The map has the ids of the
list as its keys, in order. -/
theorem lookups_agree (queries : List CredentialQuery) :
    ((∃ c, Catalogue.ofList queries = .ok c) ↔ (queries.map CredentialQuery.id).Nodup) ∧
    (∀ e, Catalogue.ofList queries = .error e ↔
      ∃ i id, Grammar.FirstRepeat (queries.map CredentialQuery.id) i id ∧ e = .repeatedId id) ∧
    (∀ id, (RequestError.repeatedId id).message = Text.ofString ("Duplicate credential query id: '" ++ id ++ "'")) ∧
    ∀ c, Catalogue.ofList queries = .ok c →
      (∀ id, c.toMap.get? id = c.get? id ∧ (∀ q, c.get? id = some q ↔ q ∈ queries ∧ q.id = id) ∧
        (c.get? id = none ↔ ∀ q ∈ queries, q.id ≠ id)) ∧
      c.toMap.keys = c.ids ∧ c.ids = queries.map CredentialQuery.id ∧
      c.size = queries.length ∧ c.toMap.size = queries.length := by
  refine ⟨Catalogue.exists_ofList_iff, fun _ => Catalogue.ofList_eq_error_iff,
    RequestError.message_repeatedId, ?_⟩
  intro c hc
  obtain rfl := Catalogue.ofList_eq_ok_iff.1 hc
  refine ⟨fun id => ⟨c.get?_toMap id, fun q => Catalogue.get?_eq_some_iff, ?_⟩, c.keys_toMap, rfl, rfl, ?_⟩
  · rw [Catalogue.get?_eq_none_iff, Catalogue.ids, List.mem_map]
    push Not
    rfl
  · rw [OrderedMap.size_eq_length_keys, c.keys_toMap, Catalogue.ids, List.length_map]

/-- Of two queries the second one is found both ways, and a third id is found neither way; a third query that repeats the
second id is named. -/
theorem lookups_agree_two :
    let b : CredentialQuery := { id := "b", format := "f" }
    let a : CredentialQuery := { id := "a", format := "g" }
    (∃ c, Catalogue.ofList [b, a] = .ok c ∧ c.toMap.get? "a" = some a ∧ c.get? "a" = some a ∧ c.toMap.get? "d" = none ∧
      c.toMap.keys = ["b", "a"] ∧ c.size = 2) ∧
    Catalogue.ofList [b, a, a, b] = .error (.repeatedId "a") := by
  intro b a
  obtain ⟨-, hrefused, -⟩ := lookups_agree [b, a, a, b]
  have hc : Catalogue.ofList [b, a] = .ok ⟨[b, a], by decide⟩ := rfl
  obtain ⟨-, -, -, hfound⟩ := lookups_agree [b, a]
  obtain ⟨hget, hkeys, hids, hsize, -⟩ := hfound _ hc
  have ha := ((hget "a").2.1 a).2 ⟨by simp, rfl⟩
  have hd := (hget "d").2.2.2 (by decide)
  refine ⟨⟨_, hc, (hget "a").1.trans ha, ha, (hget "d").1.trans hd, hkeys, hsize⟩, ?_⟩
  exact (hrefused _).2 ⟨2, "a", ⟨rfl, by decide, by decide⟩, rfl⟩

end Disclosure
