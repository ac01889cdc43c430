import Disclosure.Proofs.Acceptance
import Disclosure.Proofs.Resolved
import Mathlib.Logic.Equiv.Basic

/-!
# Disclosure.Proofs.Renaming — ids are only names, and queries only what stands under them

A resolution compares ids with each other and hands queries on.  When every id gets a new name, no two the same, and every
query new contents under its new name, then the same happens under the new names: the same sets choose the same options, the
same queries are selected in the same order, and the same reference is refused.

* `Renaming`: the new names and contents, and what they make of each part of a request and of a resolution.
* `get?_catalogue`, `choice?_set`, `firstUnknown?_grouping`: look-ups, choices and references under the new names.
* `selection_addAll`, `resolveSets_eq`, `resolveAll_eq`: selections and runs under the new names.
* `resolution_renamed`: the resolution of the renamed request is the renamed resolution.
-/

namespace Disclosure

/-- New names for ids, no two of them the same, and new contents for queries, each under the new name of its id. -/
structure Renaming where
  id : String → String
  query : CredentialQuery → CredentialQuery
  id_injective : Function.Injective id
  id_query : ∀ q, (query q).id = id q.id

namespace Renaming

variable (ρ : Renaming)

/-! ### The parts of a request and of a resolution -/

theorem map_id_query (queries : List CredentialQuery) :
    (queries.map ρ.query).map CredentialQuery.id = (queries.map CredentialQuery.id).map ρ.id := by
  simp [ρ.id_query]

/-- Every query with its new contents. -/
def catalogue (c : Catalogue) : Catalogue :=
  ⟨c.entries.map ρ.query, by
    rw [map_id_query]
    exact c.nodup_ids.map ρ.id_injective⟩

/-- The new names of the ids. -/
def combination (o : Combination) : Combination := ⟨o.ids.map ρ.id, by simp [o.ids_ne]⟩

/-- The options under the new names, with the same flag and purpose. -/
def set (s : CredentialSet) : CredentialSet :=
  { s with
    options := s.options.map ρ.combination
    options_ne := by simp [s.options_ne] }

/-- The sets under the new names, if there is a grouping. -/
def grouping (g : Grouping) : Grouping := g.map (List.map ρ.set)

/-- The same set and option, with the new name. -/
def reference (r : Reference) : Reference := { r with id := ρ.id r.id }

/-- The keys under their new names, with the new contents of the queries. -/
def selection (m : Selection) : Selection :=
  ⟨m.entries.map (fun e => (ρ.id e.1, ρ.query e.2)), by
    have hkeys : (m.entries.map (fun e => (ρ.id e.1, ρ.query e.2))).map Prod.fst = m.keys.map ρ.id := by
      simp [OrderedMap.keys]
    rw [hkeys]
    exact m.keys_nodup.map ρ.id_injective⟩

/-- The same event under the new names. -/
def event : Event → Event
  | .chosen i o => .chosen i (ρ.combination o)
  | .skipped i => .skipped i
  | .refused i => .refused i
  | .missing ids => .missing (ids.map ρ.id)

/-- Selection and events under the new names. -/
def resolution (r : Resolution) : Resolution := ⟨ρ.selection r.selection, r.events.map ρ.event⟩

variable {ρ} {c : Catalogue} {m : Selection} {s : CredentialSet} {sets : List CredentialSet}
  {available available' : String → Bool}

/-! ### Look-ups, choices and references -/

theorem ids_catalogue (c : Catalogue) : (ρ.catalogue c).ids = c.ids.map ρ.id := ρ.map_id_query c.entries

theorem mem_map_id_iff {id : String} {ids : List String} : ρ.id id ∈ ids.map ρ.id ↔ id ∈ ids :=
  List.mem_map_of_injective ρ.id_injective

/-- Under the new name of an id stands the query with its new contents. -/
theorem get?_catalogue (c : Catalogue) (id : String) : (ρ.catalogue c).get? (ρ.id id) = (c.get? id).map ρ.query := by
  have hsame : (fun q => q.id == ρ.id id) ∘ ρ.query = fun q : CredentialQuery => q.id == id := by
    funext q
    rw [Function.comp_apply, ρ.id_query, Bool.eq_iff_iff, beq_iff_eq, beq_iff_eq, ρ.id_injective.eq_iff]
  rw [Catalogue.get?, catalogue, List.find?_map, hsame]
  rfl

theorem isSatisfied_combination (h : ∀ id, available' (ρ.id id) = available id) (o : Combination) :
    (ρ.combination o).isSatisfied available' = o.isSatisfied available := by
  rw [Bool.eq_iff_iff, Combination.isSatisfied_iff, Combination.isSatisfied_iff, combination, List.forall_mem_map]
  simp only [h]

/-- A set chooses the same option. -/
theorem choice?_set (h : ∀ id, available' (ρ.id id) = available id) (s : CredentialSet) :
    (ρ.set s).choice? available' = (s.choice? available).map ρ.combination := by
  have hsame : (fun o => o.isSatisfied available') ∘ ρ.combination = fun o : Combination => o.isSatisfied available := by
    funext o
    exact isSatisfied_combination h o
  rw [CredentialSet.choice?, set, List.find?_map, hsame]
  rfl

theorem references_map (sets : List CredentialSet) : references (sets.map ρ.set) = (references sets).map ρ.reference := by
  simp only [references, set, combination, reference, List.zipIdx_map, List.flatMap_map, List.map_flatMap, List.map_map,
    Function.comp_def, Prod.map_fst, Prod.map_snd, id_eq]

/-- The first reference to an id outside the catalogue stands at the same place. -/
theorem firstUnknown?_grouping (c : Catalogue) (g : Grouping) :
    firstUnknown? (ρ.catalogue c) (ρ.grouping g) = (firstUnknown? c g).map ρ.reference := by
  cases g with
  | none => rfl
  | some sets =>
    have hsame : (fun r : Reference => !(c.ids.map ρ.id).contains r.id) ∘ ρ.reference =
        fun r => !c.ids.contains r.id := by
      funext r
      rw [Function.comp_apply, reference, Bool.eq_iff_iff]
      simp only [Bool.not_eq_true', Bool.eq_false_iff, ne_eq, List.contains_iff_mem, mem_map_id_iff]
    simp only [firstUnknown?, grouping, Option.map_some, ids_catalogue, references_map, List.find?_map, hsame]

/-! ### Selections -/

theorem putEntry_map (key : String) (q : CredentialQuery) (entries : List (String × CredentialQuery)) :
    (OrderedMap.putEntry key q entries).map (fun e => (ρ.id e.1, ρ.query e.2)) =
      OrderedMap.putEntry (ρ.id key) (ρ.query q) (entries.map (fun e => (ρ.id e.1, ρ.query e.2))) := by
  induction entries with
  | nil => rfl
  | cons e rest ih =>
    by_cases hkey : e.1 = key
    · simp [OrderedMap.putEntry, hkey]
    · have hnew : ρ.id e.1 ≠ ρ.id key := fun heq => hkey (ρ.id_injective heq)
      simp [OrderedMap.putEntry, hkey, hnew, ih]

theorem selection_put (m : Selection) (key : String) (q : CredentialQuery) :
    ρ.selection (m.put key q) = (ρ.selection m).put (ρ.id key) (ρ.query q) :=
  OrderedMap.ext (putEntry_map key q m.entries)

theorem selection_empty : ρ.selection ∅ = ∅ := rfl

theorem selection_addAll (c : Catalogue) (m : Selection) (ids : List String) :
    ρ.selection (Selection.addAll c m ids) = Selection.addAll (ρ.catalogue c) (ρ.selection m) (ids.map ρ.id) := by
  induction ids generalizing m with
  | nil => rfl
  | cons id rest ih =>
    have hone : ρ.selection (Selection.addAll c m [id]) =
        Selection.addAll (ρ.catalogue c) (ρ.selection m) [ρ.id id] := by
      simp only [Selection.addAll, List.foldl_cons, List.foldl_nil, get?_catalogue]
      cases c.get? id with
      | none => rfl
      | some q => exact selection_put m id q
    rw [← List.singleton_append, Selection.addAll_append, ih, hone, List.map_append, List.map_singleton,
      Selection.addAll_append]

theorem selection_toMap (c : Catalogue) : ρ.selection c.toMap = (ρ.catalogue c).toMap := by
  rw [Catalogue.toMap_eq_addAll, Catalogue.toMap_eq_addAll, selection_addAll, ids_catalogue, selection_empty]

/-! ### Runs -/

/-- A run through the sets does the same under the new names, set by set. -/
theorem resolveSets_eq (h : ∀ id, available' (ρ.id id) = available id) (i : Nat) (m : Selection) :
    resolveSets (ρ.catalogue c) available' i (ρ.selection m) (sets.map ρ.set) =
      ρ.resolution (resolveSets c available i m sets) := by
  induction sets generalizing i m with
  | nil => rfl
  | cons s rest ih =>
    rw [List.map_cons, resolveSets, resolveSets, choice?_set h]
    cases s.choice? available with
    | some o =>
      have hids : Selection.addAll (ρ.catalogue c) (ρ.selection m) (ρ.combination o).ids =
          ρ.selection (Selection.addAll c m o.ids) := (selection_addAll c m o.ids).symm
      simp only [Option.map_some, hids, ih]
      rfl
    | none =>
      have hrequired : (ρ.set s).required = s.required := rfl
      simp only [Option.map_none, hrequired, ih]
      split <;> rfl

/-- Without grouping, the ids that are not available are the same under the new names. -/
theorem resolveAll_eq (h : ∀ id, available' (ρ.id id) = available id) (c : Catalogue) :
    resolveAll (ρ.catalogue c) available' = ρ.resolution (resolveAll c available) := by
  have hmissing : (ρ.catalogue c).ids.filter (fun id => !available' id) =
      (c.ids.filter (fun id => !available id)).map ρ.id := by
    simp only [ids_catalogue, List.filter_map, Function.comp_def, h]
  rw [resolveAll, resolveAll, hmissing]
  cases c.ids.filter (fun id => !available id) with
  | nil =>
    dsimp only [List.map_nil]
    rw [resolution, selection_toMap]
    rfl
  | cons id rest => rfl

theorem resolveKnown_eq (h : ∀ id, available' (ρ.id id) = available id) (c : Catalogue) (g : Grouping) :
    resolveKnown (ρ.catalogue c) (ρ.grouping g) available' = ρ.resolution (resolveKnown c g available) := by
  cases g with
  | none => exact resolveAll_eq h c
  | some sets => exact resolveSets_eq h 0 ∅

end Renaming

/-- **Renaming ids and changing queries renames and changes the resolution, and nothing else.**  Let a wallet have the new
names of the ids that another one has.  Then the renamed request is refused exactly when the request is, for the reference
at the same place, and otherwise its resolution has the same entries in the same order and the same events, all under the
new names. -/
theorem resolution_renamed (ρ : Renaming) (c : Catalogue) (g : Grouping) (available available' : String → Bool)
    (h : ∀ name, available' name = true ↔ ∃ id, available id = true ∧ ρ.id id = name) :
    Catalogue.ofList (c.entries.map ρ.query) = .ok (ρ.catalogue c) ∧
    (∀ r, resolve c g available = .ok r →
      ∃ r', resolve (ρ.catalogue c) (ρ.grouping g) available' = .ok r' ∧
        r'.selection.entries = r.selection.entries.map (fun e => (ρ.id e.1, ρ.query e.2)) ∧
        r'.events = r.events.map ρ.event) ∧
    ((∃ e, resolve (ρ.catalogue c) (ρ.grouping g) available' = .error e) ↔ ∃ e, resolve c g available = .error e) ∧
    ∀ i j id, resolve c g available = .error (.unknownReference ⟨i, j, id⟩) →
      resolve (ρ.catalogue c) (ρ.grouping g) available' = .error (.unknownReference ⟨i, j, ρ.id id⟩) := by
  have havailable : ∀ id, available' (ρ.id id) = available id := by
    intro id
    rw [Bool.eq_iff_iff, h]
    constructor
    · rintro ⟨other, hother, hname⟩
      rwa [← ρ.id_injective hname]
    · exact fun hid => ⟨id, hid, rfl⟩
  refine ⟨Catalogue.ofList_eq_ok_iff.2 rfl, ?_⟩
  simp only [resolve, Renaming.firstUnknown?_grouping, Renaming.resolveKnown_eq havailable]
  cases firstUnknown? c g with
  | none =>
    refine ⟨?_, by simp, ?_⟩
    · rintro r ⟨⟩
      exact ⟨_, rfl, rfl, rfl⟩
    · rintro i j id ⟨⟩
  | some u =>
    refine ⟨?_, by simp, ?_⟩
    · rintro r ⟨⟩
    · rintro i j id ⟨⟩
      rfl

/-- The names `a` and `c` are exchanged, and every query gets other contents. -/
def exchange : Renaming where
  id := Equiv.swap "a" "c"
  query q := { id := Equiv.swap "a" "c" q.id, format := "jwt_vc", multiple := .bool true }
  id_injective := (Equiv.swap "a" "c").injective
  id_query _ := rfl

/-- A wallet without `c` becomes one without `a`, and `c` is selected where `a` was; a reference to `c` that is refused
becomes one to `a`. -/
theorem resolution_renamed_exchange :
    (∀ name, (name != "a") = true ↔ ∃ id, (id != "c") = true ∧ exchange.id id = name) ∧
      (∃ r r', resolve threeQueries (some overlappingSets) (fun id => id != "c") = .ok r ∧
        resolve (exchange.catalogue threeQueries) (exchange.grouping (some overlappingSets)) (fun id => id != "a") = .ok r' ∧
        r.selection.keys = ["b", "a"] ∧ r'.selection.keys = ["b", "c"] ∧ r'.events = r.events.map exchange.event) ∧
      resolve (exchange.catalogue .empty) (exchange.grouping (some overlappingSets)) (fun id => id != "a") =
        .error (.unknownReference ⟨0, 0, "a"⟩) := by
  have h : ∀ name, (name != "a") = true ↔ ∃ id, (id != "c") = true ∧ exchange.id id = name := by
    intro name
    simp only [bne_iff_ne, ne_eq]
    constructor
    · intro hname
      refine ⟨Equiv.swap "a" "c" name, ?_, Equiv.swap_apply_self "a" "c" name⟩
      rwa [Equiv.swap_apply_eq_iff, Equiv.swap_apply_right]
    · rintro ⟨id, hid, rfl⟩ heq
      exact hid ((Equiv.swap_apply_eq_iff.1 heq).trans (Equiv.swap_apply_left "a" "c"))
  obtain ⟨-, hselected, -, -⟩ := resolution_renamed exchange threeQueries (some overlappingSets) _ _ h
  obtain ⟨-, -, -, hrefused⟩ := resolution_renamed exchange .empty (some overlappingSets) _ _ h
  obtain ⟨r', hr', hentries, hevents⟩ := hselected _ rfl
  refine ⟨h, ⟨_, r', rfl, hr', by decide, ?_, hevents⟩, hrefused 0 0 "c" rfl⟩
  rw [OrderedMap.keys, hentries]
  decide

end Disclosure
