import Disclosure.Proofs.Referenced

/-!
# Disclosure.Proofs.Ignored — the queries that a grouping ignores

The ids that no set names have no part in a decision.  They are exactly the ids that can be taken out of the catalogue: when
a query is gone that some option names, there is no request any more.  Taking all of them out at once leaves a request that
is resolved as before.  Without grouping it is the other way round, as every query is needed.

* `CredentialSet.referencedIds_eq_firstSeen`, `Request.mem_unreferencedIds_iff`: what is named, and what is not.
* `Request.without`: a request put together again from fewer queries.
* `Request.exists_without_iff`: when that is possible.
* `Request.resolve_of_without`: and what it changes.
* `unreferencedIds_removable`: the ids that no set names.
-/

namespace Disclosure

/-! ### What is named -/

theorem noteAll_flatMap {α : Type} (f : α → List String) (as : List α) (seen : List String) :
    noteAll seen (as.flatMap f) = as.foldl (fun seen a => noteAll seen (f a)) seen := by
  induction as generalizing seen with
  | nil => rfl
  | cons a rest ih => rw [List.flatMap_cons, noteAll_append, ih, List.foldl_cons]

/-- A set names the ids of its options, each at its first occurrence. -/
theorem CredentialSet.referencedIds_eq_firstSeen (s : CredentialSet) :
    s.referencedIds = firstSeen (s.options.flatMap Combination.ids) :=
  (noteAll_flatMap Combination.ids s.options []).symm

theorem CredentialSet.mem_referencedIds_iff {s : CredentialSet} {id : String} :
    id ∈ s.referencedIds ↔ ∃ o ∈ s.options, id ∈ o.ids := by
  rw [referencedIds_eq_firstSeen, mem_firstSeen, List.mem_flatMap]

theorem Request.mem_unreferencedIds_iff {r : Request} {sets : List CredentialSet} (hg : r.grouping = some sets)
    {id : String} : id ∈ r.unreferencedIds ↔ id ∈ r.catalogue.ids ∧ ¬ Referenced sets id := by
  have hnamed : id ∈ sets.flatMap CredentialSet.referencedIds ↔ Referenced sets id := by
    simp only [List.mem_flatMap, CredentialSet.mem_referencedIds_iff, Referenced]
  simp only [unreferencedIds, hg, List.mem_filter, Bool.not_eq_true', Bool.eq_false_iff, ne_eq, List.contains_iff_mem,
    hnamed]

theorem Request.unreferencedIds_sublist (r : Request) : r.unreferencedIds.Sublist r.catalogue.ids := by
  unfold unreferencedIds
  split
  · exact List.nil_sublist _
  · exact List.filter_sublist

/-! ### Fewer queries -/

namespace Catalogue

/-- The queries whose ids are not in `ids`. -/
def without (c : Catalogue) (ids : List String) : Catalogue :=
  ⟨c.entries.filter (fun q => !ids.contains q.id), c.nodup_ids.sublist (List.filter_sublist.map CredentialQuery.id)⟩

variable {c : Catalogue} {ids : List String} {id : String} {sets : List CredentialSet}

theorem mem_entries_without_iff {q : CredentialQuery} :
    q ∈ (c.without ids).entries ↔ q ∈ c.entries ∧ q.id ∉ ids := by
  simp [without]

theorem mem_ids_without_iff : id ∈ (c.without ids).ids ↔ id ∈ c.ids ∧ id ∉ ids := by
  simp only [Catalogue.ids, List.mem_map, mem_entries_without_iff]
  constructor
  · rintro ⟨q, ⟨hq, hid⟩, rfl⟩
    exact ⟨⟨q, hq, rfl⟩, hid⟩
  · rintro ⟨⟨q, hq, rfl⟩, hid⟩
    exact ⟨q, ⟨hq, hid⟩, rfl⟩

/-- What is left is found as before. -/
theorem get?_without (h : id ∉ ids) : (c.without ids).get? id = c.get? id := by
  ext q
  simp only [get?_eq_some_iff, mem_entries_without_iff]
  constructor
  · rintro ⟨⟨hq, -⟩, hid⟩
    exact ⟨hq, hid⟩
  · rintro ⟨hq, rfl⟩
    exact ⟨⟨hq, h⟩, rfl⟩

/-- The queries that are left are enough when none of the others is named. -/
theorem covers_without_iff (hc : c.Covers sets) : (c.without ids).Covers sets ↔ ∀ id ∈ ids, ¬ Referenced sets id := by
  constructor
  · rintro h id hid ⟨s, hs, o, ho, hnamed⟩
    exact (mem_ids_without_iff.1 (h s hs o ho id hnamed)).2 hid
  · intro h s hs o ho id hid
    exact mem_ids_without_iff.2 ⟨hc s hs o ho id hid, fun hmem => h id hmem ⟨s, hs, o, ho, hid⟩⟩

end Catalogue

namespace Request

/-- The request put together again without the queries whose ids are in `ids`. -/
def without (r : Request) (ids : List String) : Except RequestError Request := do
  let catalogue ← Catalogue.ofList (r.catalogue.entries.filter (fun q => !ids.contains q.id))
  ofParts catalogue r.grouping

variable {r r' : Request} {ids : List String} {sets : List CredentialSet}

theorem without_eq_ok_iff :
    r.without ids = .ok r' ↔ r'.catalogue = r.catalogue.without ids ∧ r'.grouping = r.grouping := by
  have hleft : ∀ c, Catalogue.ofList (r.catalogue.entries.filter (fun q => !ids.contains q.id)) = .ok c ↔
      c = r.catalogue.without ids := by
    intro c
    rw [Catalogue.ofList_eq_ok_iff, Catalogue.ext_iff, eq_comm]
    rfl
  simp only [without, bind_eq_ok_iff, hleft, exists_eq_left, ofParts_eq_ok_iff]
  exact and_congr eq_comm eq_comm

/-- It can be put together again exactly when no set names an id that is gone. -/
theorem exists_without_iff (hg : r.grouping = some sets) :
    (∃ r', r.without ids = .ok r') ↔ ∀ id ∈ ids, ¬ Referenced sets id := by
  rw [← Catalogue.covers_without_iff (covers_of_grouping hg)]
  simp only [without_eq_ok_iff]
  constructor
  · rintro ⟨r', hcatalogue, hgrouping⟩
    rw [← hcatalogue]
    exact covers_of_grouping (hgrouping.trans hg)
  · intro hc
    exact ⟨⟨r.catalogue.without ids, some sets, firstUnknown?_eq_none_iff.2 hc⟩, rfl, hg.symm⟩

/-- And then it is resolved as before. -/
theorem resolve_of_without (hg : r.grouping = some sets) (h : r.without ids = .ok r') (available : String → Bool) :
    r'.resolve available = r.resolve available := by
  have hunnamed : ∀ id ∈ ids, ¬ Referenced sets id := (exists_without_iff hg).1 ⟨r', h⟩
  obtain ⟨hcatalogue, hgrouping⟩ := without_eq_ok_iff.1 h
  have hagree : AgreeOn (· = ·) sets r.catalogue r'.catalogue available available := by
    refine ⟨fun id hid => ?_, fun _ _ => rfl⟩
    obtain ⟨q, hq⟩ := (covers_of_grouping hg).exists_get? hid
    refine ⟨q, q, hq, ?_, rfl⟩
    rw [hcatalogue, Catalogue.get?_without (fun hmem => hunnamed id hmem hid), hq]
  simp only [resolve, hgrouping.trans hg, hg, resolveKnown]
  exact hagree.resolveSets_eq

/-- What is gone is not selected. -/
theorem not_mem_keys_of_without (hg : r.grouping = some sets) (h : r.without ids = .ok r') (available : String → Bool) :
    ∀ id ∈ ids, id ∉ (r.resolve available).selection.keys := by
  intro id hid hkey
  rw [← resolve_of_without hg h] at hkey
  obtain ⟨-, q, -, hq, rfl⟩ := exists_get?_of_mem_selection hkey
  rw [(without_eq_ok_iff.1 h).1, Catalogue.mem_entries_without_iff] at hq
  exact hq.2 hid

end Request

/-- **The ids that no set names are the removable part of the catalogue.**  With a grouping they are the ids, in the order of
the catalogue and without repetition, whose query can be taken out one at a time; taken out all at once they leave a request
that is resolved as before, and none of them is ever selected.  Without grouping there are none, and what is selected, if
anything, is the whole catalogue. -/
theorem unreferencedIds_removable (r : Request) :
    (∀ sets, r.grouping = some sets →
      r.unreferencedIds.Sublist r.catalogue.ids ∧ r.unreferencedIds.Nodup ∧
      (∀ id ∈ r.catalogue.ids, id ∈ r.unreferencedIds ↔ ∃ r', r.without [id] = .ok r') ∧
      (∃ r', r.without r.unreferencedIds = .ok r' ∧ ∀ available, r'.resolve available = r.resolve available) ∧
      ∀ available, ∀ id ∈ r.unreferencedIds, id ∉ (r.resolve available).selection.keys) ∧
    (r.grouping = none →
      r.unreferencedIds = [] ∧
      ∀ available, (r.resolve available).selection ≠ ∅ →
        (r.resolve available).selection.entries = r.catalogue.entries.map (fun q => (q.id, q))) := by
  constructor
  · intro sets hg
    have hunnamed : ∀ id ∈ r.unreferencedIds, ¬ Referenced sets id :=
      fun id hid => ((Request.mem_unreferencedIds_iff hg).1 hid).2
    obtain ⟨r', hr'⟩ := (Request.exists_without_iff hg).2 hunnamed
    refine ⟨r.unreferencedIds_sublist, r.catalogue.nodup_ids.sublist r.unreferencedIds_sublist, fun id hid => ?_,
      ⟨r', hr', Request.resolve_of_without hg hr'⟩, Request.not_mem_keys_of_without hg hr'⟩
    simp only [Request.mem_unreferencedIds_iff hg, hid, true_and, Request.exists_without_iff hg, List.mem_singleton,
      forall_eq]
  · intro hg
    refine ⟨by simp only [Request.unreferencedIds, hg], fun available hne => ?_⟩
    simp only [Request.resolve, hg, resolveKnown] at hne ⊢
    by_cases hall : ∀ id ∈ r.catalogue.ids, available id = true
    · rw [resolveAll_eq_toMap hall, Catalogue.entries_toMap]
    · exact absurd (resolveAll_of_missing hall) hne

/-- A request that names two of three queries. -/
def sparseRequest : Request := ⟨threeQueries, some [⟨[⟨["c", "a"], by decide⟩], by simp, false, .null⟩], by decide⟩

/-- The query that is not named can be taken out, and the others cannot; without grouping all three are selected. -/
theorem unreferencedIds_removable_sparse :
    sparseRequest.unreferencedIds = ["b"] ∧
      (∃ r', sparseRequest.without ["b"] = .ok r' ∧ ∀ available, r'.resolve available = sparseRequest.resolve available) ∧
      (¬ ∃ r', sparseRequest.without ["c"] = .ok r') ∧
      ∃ r : Request, r.grouping = none ∧ (r.resolve (fun _ => true)).selection ≠ ∅ ∧
        (r.resolve (fun _ => true)).selection.entries = threeQueries.entries.map (fun q => (q.id, q)) := by
  have hb : sparseRequest.unreferencedIds = ["b"] := by decide
  obtain ⟨-, -, hone, hall, -⟩ := (unreferencedIds_removable sparseRequest).1 _ rfl
  obtain ⟨-, hwhole⟩ := (unreferencedIds_removable ⟨threeQueries, none, rfl⟩).2 rfl
  have hne : (Request.resolve ⟨threeQueries, none, rfl⟩ (fun _ => true)).selection ≠ ∅ := by
    rw [ne_eq, OrderedMap.eq_empty_iff]
    decide
  rw [hb] at hall
  refine ⟨hb, hall, ?_, ⟨threeQueries, none, rfl⟩, rfl, hne, hwhole _ hne⟩
  rw [← hone "c" (by decide)]
  decide

end Disclosure
