import Disclosure.Proofs.Resolved
import Mathlib.Data.Nat.Find

/-!
# Disclosure.Proofs.Account — the log of a resolution tells the whole decision

A run through the sets of a grouping tells one thing of each set that lets it go on: which option the set chose, or that
it was skipped.  A required set that is not fulfilled is told of too, and is the last one.  The ids of the options that are
told of are all that is needed to find the selection again.

* `Told`, `FirstRefused`: what is to be told of a set, and the set that ends a run.
* `events_of_open`, `events_of_refused`: a whole list of sets.
* `Rebuilds`: the map of the queries with given ids; `rebuilds_events` says that what was told rebuilds the selection.
* `log_faithful`: the records of a resolution, with grouping and without.
-/

namespace Disclosure

/-! ### What is to be told -/

namespace CredentialSet

variable {s : CredentialSet} {available : String → Bool} {i : Nat}

/-- What is told of set number `i` when the run goes on behind it, and the record that says so. -/
inductive Told (s : CredentialSet) (available : String → Bool) (i : Nat) : Event → LogRecord → Prop
  | chosen {o : Combination} (h : s.FirstFull available o) :
      Told s available i (.chosen i o)
        ⟨.debug, "dcqlmatch.core.matching",
          "credential set " ++ Nat.repr i ++ " satisfied by option [" ++ ", ".intercalate o.ids ++ "]"⟩
  | skipped (hr : s.required = false) (hf : ¬ s.Fulfilled available) :
      Told s available i (.skipped i)
        ⟨.debug, "dcqlmatch.core.matching",
          "skipping optional credential set " ++ Nat.repr i ++ ": no satisfied option"⟩

theorem told_account (h : s.required = true → s.Fulfilled available) :
    s.Told available i (s.account available i) (s.account available i).record := by
  unfold account
  cases hc : s.choice? available with
  | some o => exact .chosen (choice?_eq_some_iff.1 hc)
  | none =>
    have hf : ¬ s.Fulfilled available := choice?_eq_none_iff.1 hc
    refine .skipped ?_ hf
    cases hr : s.required with
    | false => rfl
    | true => exact absurd (h hr) hf

end CredentialSet

/-- Set number `k` is required and has no option that is available in full. -/
def RefusedAt (sets : List CredentialSet) (available : String → Bool) (k : Nat) : Prop :=
  ∃ s, sets[k]? = some s ∧ s.required = true ∧ ¬ s.Fulfilled available

/-- Set number `k` is the first such set. -/
def FirstRefused (sets : List CredentialSet) (available : String → Bool) (k : Nat) : Prop :=
  RefusedAt sets available k ∧ ∀ j < k, ¬ RefusedAt sets available j

/-- The ids of the option that an event names. -/
def Event.named : Event → List String
  | .chosen _ o => o.ids
  | .skipped _ | .refused _ | .missing _ => []

/-- The map holds the queries of the catalogue with these ids and nothing else, each at the place of the first occurrence
of its id, and it is what comes of putting these queries into an empty map one after another. -/
structure Rebuilds (c : Catalogue) (ids : List String) (m : Selection) : Prop where
  keys_eq : m.keys = ids.eraseDups
  found : ∀ id ∈ ids, ∃ q ∈ c.entries, q.id = id ∧ m.get? id = some q
  put_in : ∃ queries : List CredentialQuery, queries.map CredentialQuery.id = ids ∧ (∀ q ∈ queries, q ∈ c.entries) ∧
    queries.foldl (fun m q => m.put q.id q) ∅ = m

/-! ### The set that ends a run -/

section Refused

variable {sets : List CredentialSet} {available : String → Bool} {k : Nat}

theorem exists_firstRefused (h : ¬ RequiredFulfilled sets available) : ∃ k, FirstRefused sets available k := by
  classical
  simp only [RequiredFulfilled, not_forall] at h
  obtain ⟨s, hs, hr, hf⟩ := h
  obtain ⟨j, hj⟩ := List.getElem?_of_mem hs
  have hrefused : ∃ k, RefusedAt sets available k := ⟨j, s, hj, hr, hf⟩
  exact ⟨Nat.find hrefused, Nat.find_spec hrefused, fun _ hlt => Nat.find_min hrefused hlt⟩

/-- All required sets before the first refused one are fulfilled. -/
theorem FirstRefused.exists_append (h : FirstRefused sets available k) :
    ∃ before s later, sets = before ++ s :: later ∧ before.length = k ∧ RequiredFulfilled before available ∧
      s.required = true ∧ ¬ s.Fulfilled available := by
  obtain ⟨⟨s, hs, hr, hf⟩, hfirst⟩ := h
  obtain ⟨hlt, rfl⟩ := List.getElem?_eq_some_iff.1 hs
  refine ⟨sets.take k, sets[k], sets.drop (k + 1), ?_, List.length_take_of_le (Nat.le_of_lt hlt), ?_, hr, hf⟩
  · rw [← List.drop_eq_getElem_cons hlt, List.take_append_drop]
  · intro t ht htr
    by_contra htf
    obtain ⟨j, hj, rfl⟩ := List.mem_take_iff_getElem.1 ht
    exact hfirst j (by omega) ⟨_, List.getElem?_eq_getElem (by omega), htr, htf⟩

end Refused

/-! ### What a run tells -/

section Run

variable {c : Catalogue} {available : String → Bool} {i : Nat} {m : Selection} {s : CredentialSet}
  {sets before later : List CredentialSet}

/-- The events of sets behind which the run goes on; the first set has number `i`. -/
def accounts (available : String → Bool) (i : Nat) (sets : List CredentialSet) : List Event :=
  (sets.zipIdx i).map (fun (s, j) => s.account available j)

@[simp]
theorem length_accounts : (accounts available i sets).length = sets.length := by
  simp [accounts]

theorem accounts_cons :
    accounts available i (s :: sets) = s.account available i :: accounts available (i + 1) sets := by
  simp [accounts]

theorem getElem?_accounts {j : Nat} (h : sets[j]? = some s) :
    (accounts available i sets)[j]? = some (s.account available (i + j)) := by
  simp [accounts, h]

theorem events_of_open (h : RequiredFulfilled sets available) :
    (resolveSets c available i m sets).events = accounts available i sets := by
  induction sets generalizing i m with
  | nil => rfl
  | cons s rest ih =>
    have hs : s.required = true → s.Fulfilled available := h s (by simp)
    have hrest : RequiredFulfilled rest available := fun t ht => h t (by simp [ht])
    rw [resolveSets_cons_of_open hs, accounts_cons, ← ih hrest]
    rfl

/-- Up to the set that ends it, a run tells what it would tell of these sets alone. -/
theorem events_of_refused (h : RequiredFulfilled before available) (hr : s.required = true)
    (hf : ¬ s.Fulfilled available) :
    (resolveSets c available i m (before ++ s :: later)).events =
      accounts available i before ++ [.refused (i + before.length)] := by
  induction before generalizing i m with
  | nil =>
    rw [List.nil_append, resolveSets_cons_of_refused hr hf]
    rfl
  | cons t rest ih =>
    have ht : t.required = true → t.Fulfilled available := h t (by simp)
    have hrest : RequiredFulfilled rest available := fun u hu => h u (by simp [hu])
    have hlength : i + (t :: rest).length = i + 1 + rest.length := by
      rw [List.length_cons]
      omega
    rw [accounts_cons, hlength, List.cons_append, List.cons_append, ← ih hrest, resolveSets_cons_of_open ht]
    rfl

/-- The account of a set names what the set contributes. -/
theorem named_account : (s.account available i).named = s.contribution available := by
  unfold CredentialSet.account
  cases hc : s.choice? available with
  | some o =>
    rw [CredentialSet.contribution_of_choice? hc]
    rfl
  | none =>
    rw [CredentialSet.contribution_of_choice?_eq_none hc]
    rfl

theorem flatMap_named_accounts : (accounts available i sets).flatMap Event.named = contributions sets available := by
  induction sets generalizing i with
  | nil => rfl
  | cons s rest ih =>
    rw [accounts_cons, List.flatMap_cons, named_account, ih]
    rfl

theorem exists_queries_of_ids {ids : List String} (h : ∀ id ∈ ids, id ∈ c.ids) :
    ∃ queries : List CredentialQuery, queries.map CredentialQuery.id = ids ∧ ∀ q ∈ queries, q ∈ c.entries := by
  induction ids with
  | nil => exact ⟨[], rfl, by simp⟩
  | cons id rest ih =>
    obtain ⟨hid, hrest⟩ := List.forall_mem_cons.1 h
    obtain ⟨q, hq, rfl⟩ := List.mem_map.1 hid
    obtain ⟨queries, hqueries, hmem⟩ := ih hrest
    exact ⟨q :: queries, by rw [List.map_cons, hqueries], List.forall_mem_cons.2 ⟨hq, hmem⟩⟩

/-- Adding ids of the catalogue to an empty selection gives the map of their queries. -/
theorem rebuilds_addAll {ids : List String} (h : ∀ id ∈ ids, id ∈ c.ids) :
    Rebuilds c ids (Selection.addAll c ∅ ids) where
  keys_eq := by
    rw [Selection.keys_addAll h, ← firstSeen_eq_eraseDups]
    rfl
  found id hid := by
    obtain ⟨q, hq⟩ := Catalogue.exists_get?_of_mem_ids (h id hid)
    obtain ⟨hmem, hqid⟩ := Catalogue.get?_eq_some_iff.1 hq
    exact ⟨q, hmem, hqid, by rw [Selection.get?_addAll h, if_pos hid, hq]⟩
  put_in := by
    obtain ⟨queries, rfl, hmem⟩ := exists_queries_of_ids h
    exact ⟨queries, rfl, hmem, Catalogue.foldl_put_eq_addAll hmem ∅⟩

/-- The ids that a run told of rebuild what the run selected. -/
theorem rebuilds_events (hc : c.Covers sets) (h : RequiredFulfilled sets available) :
    Rebuilds c ((resolveSets c available i ∅ sets).events.flatMap Event.named)
      (resolveSets c available i ∅ sets).selection := by
  rw [events_of_open h, flatMap_named_accounts, selection_of_open h]
  exact rebuilds_addAll (mem_ids_of_mem_contributions hc)

/-- Where a list of events agrees with the accounts of the sets, it tells what is to be told. -/
theorem told_of_accounts (h : RequiredFulfilled sets available) {j : Nat} (hj : sets[j]? = some s)
    {events : List Event} (hevents : (accounts available 0 sets)[j]? = events[j]?) :
    ∃ e record, events[j]? = some e ∧ (events.map Event.record)[j]? = some record ∧ s.Told available j e record := by
  rw [getElem?_accounts hj, Nat.zero_add] at hevents
  refine ⟨_, _, hevents.symm, ?_, CredentialSet.told_account (h s (List.mem_of_getElem? hj))⟩
  rw [List.getElem?_map, ← hevents, Option.map_some]

end Run

/-! ### The log -/

/-- **The log tells the whole decision.**  When no set is refused, there is one debug record for each set, in order: it
names the first option that is available in full, or says that the set is optional and skipped; the queries with the ids
of the named options, put in one after another, are the selection, and each of them stands at the first occurrence of its
id.  When set number `k` is the first that is refused, the sets before it are told of in the same way, one info record
after them names `k`, and nothing is selected.  Without grouping nothing is told, except that one info record lists the ids
that are not available, in order, if there are any. -/
theorem log_faithful (c : Catalogue) (sets : List CredentialSet) (available : String → Bool) (hc : c.Covers sets) :
    (∃ r, resolve c (some sets) available = .ok r ∧
      ((∀ k, ¬ FirstRefused sets available k) →
        r.log.length = sets.length ∧
        (∀ (i : Nat) (s : CredentialSet), sets[i]? = some s →
          ∃ e record, r.events[i]? = some e ∧ r.log[i]? = some record ∧ s.Told available i e record) ∧
        Rebuilds c (r.events.flatMap Event.named) r.selection) ∧
      (∀ k, FirstRefused sets available k →
        r.log.length = k + 1 ∧
        (∀ (i : Nat) (s : CredentialSet), i < k → sets[i]? = some s →
          ∃ e record, r.events[i]? = some e ∧ r.log[i]? = some record ∧ s.Told available i e record) ∧
        r.log[k]? = some ⟨.info, "dcqlmatch.core.matching",
          "request cannot be satisfied: required credential set " ++ Nat.repr k ++ " has no satisfied option"⟩ ∧
        r.selection = ∅)) ∧
    ∃ r, resolve c none available = .ok r ∧
      ((∀ id ∈ c.ids, available id = true) → r.log = []) ∧
      (¬ (∀ id ∈ c.ids, available id = true) →
        r.log = [⟨.info, "dcqlmatch.core.matching", "request cannot be satisfied: missing credentials " ++
          ", ".intercalate (c.ids.filter (fun id => !available id))⟩]) := by
  refine ⟨⟨_, resolve_of_covers hc available, ?_, ?_⟩, resolveAll c available, rfl, ?_, ?_⟩
  · intro hnone
    have hopen : RequiredFulfilled sets available := by
      by_contra h
      obtain ⟨k, hk⟩ := exists_firstRefused h
      exact hnone k hk
    refine ⟨?_, fun i s hi => ?_, rebuilds_events hc hopen⟩
    · simp [Resolution.log, events_of_open hopen]
    · exact told_of_accounts hopen hi (by rw [events_of_open hopen])
  · intro k hk
    obtain ⟨before, s, later, rfl, rfl, hopen, hr, hf⟩ := hk.exists_append
    have hevents : (resolveSets c available 0 ∅ (before ++ s :: later)).events =
        accounts available 0 before ++ [.refused before.length] := by
      rw [events_of_refused hopen hr hf, Nat.zero_add]
    refine ⟨?_, fun i t hi ht => ?_, ?_, selection_of_refused (fun h => hf (h s (by simp) hr))⟩
    · simp [Resolution.log, hevents]
    · rw [List.getElem?_append_left hi] at ht
      refine told_of_accounts hopen ht ?_
      rw [hevents, List.getElem?_append_left (by simpa using hi)]
    · simp only [Resolution.log, hevents, List.map_append, List.map_cons, List.map_nil]
      rw [List.getElem?_append_right (by simp)]
      simp only [List.length_map, length_accounts, Nat.sub_self]
      rfl
  · intro hall
    rw [resolveAll_eq_toMap hall]
    rfl
  · intro hmissing
    rw [resolveAll_eq_refusal hmissing]
    rfl

/-- With `a` and `b` both sets are told of; with nothing the optional one is, and the required one ends the run. -/
theorem log_faithful_overlapping :
    threeQueries.Covers overlappingSets ∧
      (∃ r, resolve threeQueries (some overlappingSets) (fun id => id != "c") = .ok r ∧
        r.log.map LogRecord.message = ["credential set 0 satisfied by option [b]",
          "credential set 1 satisfied by option [a, b, a]"] ∧
        r.events.flatMap Event.named = ["b", "a", "b", "a"] ∧ r.selection.keys = ["b", "a"] ∧
        Rebuilds threeQueries (r.events.flatMap Event.named) r.selection) ∧
      FirstRefused overlappingSets (fun _ => false) 1 ∧
      ∃ r, resolve threeQueries (some overlappingSets) (fun _ => false) = .ok r ∧ r.log.length = 2 ∧
        r.log[1]? = some ⟨.info, "dcqlmatch.core.matching",
          "request cannot be satisfied: required credential set 1 has no satisfied option"⟩ ∧ r.selection = ∅ := by
  have hc : threeQueries.Covers overlappingSets := by
    simp [Catalogue.Covers, Catalogue.ids, threeQueries, overlappingSets]
  have hopen : ∀ k, ¬ FirstRefused overlappingSets (fun id => id != "c") k := by
    rintro k ⟨⟨s, hs, -, hf⟩, -⟩
    have hfull : ∀ t ∈ overlappingSets, t.Fulfilled (fun id => id != "c") := by
      simp [CredentialSet.Fulfilled, overlappingSets]
    exact hf (hfull s (List.mem_of_getElem? hs))
  have hrefused : FirstRefused overlappingSets (fun _ => false) 1 := by
    refine ⟨⟨_, rfl, rfl, ?_⟩, fun j hj => ?_⟩
    · rintro ⟨o, -, hids⟩
      obtain ⟨id, hid⟩ := List.exists_mem_of_ne_nil _ o.ids_ne
      exact absurd (hids id hid) (by simp)
    · obtain rfl : j = 0 := by omega
      rintro ⟨s, hs, hr, -⟩
      cases hs
      simp at hr
  obtain ⟨⟨r, hr, hall, -⟩, -⟩ := log_faithful threeQueries overlappingSets (fun id => id != "c") hc
  obtain ⟨⟨t, ht, -, hsome⟩, -⟩ := log_faithful threeQueries overlappingSets (fun _ => false) hc
  obtain ⟨hlength, -, hlast, hnothing⟩ := hsome 1 hrefused
  have hrebuilt := (hall hopen).2.2
  have hnamed : r.events.flatMap Event.named = ["b", "a", "b", "a"] := by
    cases hr
    decide
  have hkeys : r.selection.keys = ["b", "a"] := by
    rw [hrebuilt.keys_eq, hnamed]
    decide
  refine ⟨hc, ⟨r, hr, ?_, hnamed, hkeys, hrebuilt⟩, hrefused, t, ht, hlength, hlast, hnothing⟩
  cases hr
  decide

end Disclosure
