import Disclosure.Proofs.Denotation
import Disclosure.Proofs.Grouped

/-!
# Disclosure.Proofs.Acceptance — which data are accepted as a request

The catalogue and the grouping are read from what their entries denote; then the ids have to be distinct and the
references known.  Both are conditions on the data alone, since the ids of the entries and of the options stand in the
data as they stand in the request.

* `Request.ofValue_eq_ok_iff`: a value is read as a request exactly when it denotes that request.
* `Request.exists_denotes_iff`: some request is denoted exactly by the values of the grammar.
* `Request.reading_exact`: both together.
-/

namespace Disclosure

open Grammar

/-! ### Catalogue -/

namespace Catalogue

/-- The value is a list of entries, one for each query, in order. -/
def Denotes (v : Value) (c : Catalogue) : Prop :=
  ∃ entries, v.untie = .list entries ∧ entries ≠ [] ∧
    List.Forall₂ (fun e q => e.ObjectWith (fun fields => CredentialQuery.Denotes fields q)) entries c.entries

variable {c : Catalogue}

theorem ofList_eq_ok_iff {queries : List CredentialQuery} : ofList queries = .ok c ↔ queries = c.entries := by
  unfold ofList
  split
  · rename_i id h
    simp only [reduceCtorEq, false_iff]
    rintro rfl
    have hnone := firstRepeat?_eq_none_iff.2 ⟨c.nodup_ids, fun id _ => List.not_mem_nil⟩
    rw [hnone] at h
    exact absurd h (by simp)
  · constructor
    · rintro ⟨⟩
      rfl
    · rintro rfl
      rfl

theorem ofValue_eq_ok_iff {v : Value} : ofValue v = .ok c ↔ Denotes v c := by
  unfold ofValue Denotes
  split
  · rename_i item rest h
    have hread : ∀ i w q, CredentialQuery.ofValue w ((Place.top "credentials").item i) = .ok q ↔
        w.ObjectWith (fun fields => CredentialQuery.Denotes fields q) :=
      fun _ _ _ => CredentialQuery.ofValue_eq_ok_iff
    simp only [h, bind_eq_ok_iff, ofList_eq_ok_iff, exists_eq_right, Value.list.injEq, exists_eq_left',
      readEach_eq_ok_iff hread, ne_eq, reduceCtorEq, not_false_eq_true, true_and]
  · rename_i h
    simp only [reduceCtorEq, false_iff, not_exists, not_and]
    intro entries hentries hne
    obtain ⟨item, rest, rfl⟩ := List.exists_cons_of_ne_nil hne
    exact absurd hentries (h item rest)

/-- The ids of the entries are the ids of the catalogue. -/
theorem ids_of_forall₂ {entries : List Value} {queries : List CredentialQuery}
    (h : List.Forall₂ (fun e q => e.ObjectWith (fun fields => CredentialQuery.Denotes fields q)) entries queries) :
    entries.map (fun e => e.member "id") = queries.map (fun q => .text q.id) :=
  map_eq_map_of_forall₂ h (fun _ _ hq => CredentialQuery.member_id_of_denotes hq)

end Catalogue

theorem text_injective : Function.Injective (fun (id : String) => Value.text id) := by
  intro a b h
  simp only [Value.scalar.injEq, Scalar.text.injEq] at h
  exact Text.ofString_injective h

theorem nodup_ids_iff {queries : List CredentialQuery} :
    (queries.map (fun q => Value.text q.id)).Nodup ↔ (queries.map CredentialQuery.id).Nodup := by
  have hmap : queries.map (fun q => Value.text q.id) =
      (queries.map CredentialQuery.id).map (fun (id : String) => Value.text id) := by
    rw [List.map_map]
    rfl
  rw [hmap, List.nodup_map_iff text_injective]

/-- The entries of a catalogue carry distinct ids. -/
theorem Catalogue.nodup_members_of_forall₂ {c : Catalogue} {entries : List Value}
    (h : List.Forall₂ (fun e q => e.ObjectWith (fun fields => CredentialQuery.Denotes fields q)) entries c.entries) :
    (entries.map (fun e => e.member "id")).Nodup := by
  rw [ids_of_forall₂ h, nodup_ids_iff]
  exact c.nodup_ids

/-- Entries make up a catalogue exactly when each of them is a query and no id stands in two of them. -/
theorem Catalogue.exists_forall₂_denotes_iff {entries : List Value} :
    (∃ c : Catalogue, List.Forall₂ (fun e q => e.ObjectWith (fun fields => CredentialQuery.Denotes fields q)) entries
      c.entries) ↔
      (∀ e ∈ entries, e.ObjectWith IsQuery) ∧ (entries.map (fun e => e.member "id")).Nodup := by
  constructor
  · rintro ⟨c, hf⟩
    exact ⟨CredentialQuery.exists_forall₂_denotes_iff.1 ⟨c.entries, hf⟩, nodup_members_of_forall₂ hf⟩
  · rintro ⟨hqueries, hnodup⟩
    obtain ⟨queries, hf⟩ := CredentialQuery.exists_forall₂_denotes_iff.2 hqueries
    rw [ids_of_forall₂ hf, nodup_ids_iff] at hnodup
    exact ⟨⟨queries, hnodup⟩, hf⟩

/-! ### Grouping -/

namespace Grouping

/-- Null when there is no grouping; else a list with the sets in order. -/
def Denotes (v : Value) : Grouping → Prop
  | none => v.untie = .null
  | some sets => ∃ items, v.untie = .list items ∧
      List.Forall₂ (fun i s => i.ObjectWith (fun fields => CredentialSet.Denotes fields s)) items sets

theorem ofValue_eq_ok_iff {v : Value} {g : Grouping} : ofValue v = .ok g ↔ Denotes v g := by
  unfold ofValue
  split
  · rename_i h
    cases g <;> simp [Denotes, h]
  · rename_i items h
    have hread : ∀ i w s, CredentialSet.ofValue w ((Place.top "credential_sets").item i) = .ok s ↔
        w.ObjectWith (fun fields => CredentialSet.Denotes fields s) :=
      fun _ _ _ => CredentialSet.ofValue_eq_ok_iff
    cases g with
    | none => simp [Denotes, h, bind_eq_ok_iff, pure, Except.pure]
    | some sets => simp [Denotes, h, bind_eq_ok_iff, pure, Except.pure, readEach_eq_ok_iff hread]
  · rename_i hnull hlist
    cases g with
    | none => simpa [Denotes] using hnull
    | some sets =>
      simp only [Denotes, reduceCtorEq, false_iff, not_exists, not_and]
      exact fun items hitems => absurd hitems (hlist items)

end Grouping

/-! ### Request -/

namespace Request

/-- The body of the value denotes the catalogue and the grouping of the request. -/
def Denotes (v : Value) (r : Request) : Prop :=
  ∃ fields, HasBody v fields ∧ Catalogue.Denotes (fields.get "credentials") r.catalogue ∧
    Grouping.Denotes (fields.get "credential_sets") r.grouping

variable {v : Value} {r : Request}

theorem body_eq_ok_iff {fields : Fields} : body v = .ok fields ↔ HasBody v fields := by
  unfold body
  split
  · rename_i own h
    cases hw : Fields.field? own "dcql_query" with
    | none => simp [hasBody_bare_iff h hw]
    | some w =>
      rw [hasBody_carried_iff h hw, ← Value.fields?_eq_some_iff]
      cases hf : w.fields? <;> simp [hf]
  · rename_i h
    simp only [reduceCtorEq, false_iff]
    rintro (⟨hobject, -⟩ | ⟨hobject, -, -⟩)
    · exact h _ hobject
    · exact h _ hobject

theorem hasBody_unique {fields fields' : Fields} (h : HasBody v fields) (h' : HasBody v fields') : fields = fields' :=
  Except.ok.inj ((body_eq_ok_iff.2 h).symm.trans (body_eq_ok_iff.2 h'))

theorem ofParts_eq_ok_iff {c : Catalogue} {g : Grouping} :
    ofParts c g = .ok r ↔ c = r.catalogue ∧ g = r.grouping := by
  unfold ofParts
  split
  · rename_i u h
    simp only [reduceCtorEq, false_iff, not_and]
    rintro rfl rfl
    rw [r.references_known] at h
    exact absurd h (by simp)
  · constructor
    · rintro ⟨⟩
      exact ⟨rfl, rfl⟩
    · rintro ⟨rfl, rfl⟩
      rfl

theorem ofValue_eq_ok_iff : ofValue v = .ok r ↔ Denotes v r := by
  simp only [ofValue, ofFields, bind_eq_ok_iff, body_eq_ok_iff, Catalogue.ofValue_eq_ok_iff,
    Grouping.ofValue_eq_ok_iff, ofParts_eq_ok_iff]
  constructor
  · rintro ⟨fields, hbody, _, hcatalogue, _, hgrouping, rfl, rfl⟩
    exact ⟨fields, hbody, hcatalogue, hgrouping⟩
  · rintro ⟨fields, hbody, hcatalogue, hgrouping⟩
    exact ⟨fields, hbody, r.catalogue, hcatalogue, r.grouping, hgrouping, rfl, rfl⟩

/-- An id is in the catalogue exactly when an entry carries it. -/
theorem exists_member_id_iff {c : Catalogue} {entries : List Value} {id : String}
    (hc : entries.map (fun e => e.member "id") = c.entries.map (fun q => .text q.id)) :
    (∃ e ∈ entries, e.member "id" = .text id) ↔ id ∈ c.ids := by
  rw [← List.mem_map, hc, List.mem_map]
  simp only [text_injective.eq_iff, Catalogue.ids, List.mem_map]

/-- The ids that the options name are in the catalogue exactly when each of them is the id of an entry. -/
theorem covers_iff {c : Catalogue} {sets : List CredentialSet} {entries items : List Value}
    (hc : entries.map (fun e => e.member "id") = c.entries.map (fun q => .text q.id))
    (hs : List.Forall₂ (fun i s => i.ObjectWith (fun fields => CredentialSet.Denotes fields s)) items sets) :
    c.Covers sets ↔ ∀ i ∈ items, ∀ id ∈ namedIds i, ∃ e ∈ entries, e.member "id" = id := by
  have hentry : ∀ id : String, (∃ e ∈ entries, e.member "id" = .text id) ↔ id ∈ c.ids :=
    fun _ => exists_member_id_iff hc
  have hnamed := map_eq_map_of_forall₂ hs (fun _ _ h => CredentialSet.namedIds_of_denotes h)
  have hall : (∀ i ∈ items, ∀ id ∈ namedIds i, ∃ e ∈ entries, e.member "id" = id) ↔
      ∀ ids ∈ items.map namedIds, ∀ id ∈ ids, ∃ e ∈ entries, e.member "id" = id := by
    rw [List.forall_mem_map]
  rw [hall, hnamed]
  simp only [List.forall_mem_map, hentry, List.mem_flatMap, Catalogue.Covers]
  constructor
  · rintro h s hs id ⟨o, ho, hid⟩
    exact h s hs o ho id hid
  · intro h s hs o ho id hid
    exact h s hs id ⟨o, ho, hid⟩

/-- The sets denote a grouping that the catalogue covers exactly when they have the form of one. -/
theorem isGrouping_iff {c : Catalogue} {entries : List Value} {w : Value}
    (hc : entries.map (fun e => e.member "id") = c.entries.map (fun q => .text q.id)) :
    (∃ g, Grouping.Denotes w g ∧ ∀ sets ∈ g, c.Covers sets) ↔ IsGrouping entries w := by
  constructor
  · rintro ⟨_ | sets, hdenotes, hcovers⟩
    · exact Or.inl hdenotes
    · obtain ⟨items, hitems, hf⟩ := hdenotes
      exact Or.inr ⟨items, hitems, CredentialSet.exists_forall₂_denotes_iff.1 ⟨sets, hf⟩,
        (covers_iff hc hf).1 (hcovers sets rfl)⟩
  · rintro (hnull | ⟨items, hitems, hsets, hnamed⟩)
    · exact ⟨none, hnull, fun sets hs => absurd hs (by simp)⟩
    · obtain ⟨sets, hf⟩ := CredentialSet.exists_forall₂_denotes_iff.2 hsets
      refine ⟨some sets, ⟨items, hitems, hf⟩, ?_⟩
      rintro _ ⟨⟩
      exact (covers_iff hc hf).2 hnamed

/-- Some request is denoted exactly by the values that have the form of a request. -/
theorem exists_denotes_iff : (∃ r, Denotes v r) ↔ IsRequest v := by
  constructor
  · rintro ⟨r, fields, hbody, ⟨entries, hentries, hne, hf⟩, hgrouping⟩
    obtain ⟨hqueries, hnodup⟩ := Catalogue.exists_forall₂_denotes_iff.1 ⟨r.catalogue, hf⟩
    exact ⟨fields, hbody, entries, hentries, hne, hqueries, hnodup, (isGrouping_iff (Catalogue.ids_of_forall₂ hf)).1
      ⟨r.grouping, hgrouping, firstUnknown?_eq_none_iff_forall.1 r.references_known⟩⟩
  · rintro ⟨fields, hbody, entries, hentries, hne, hqueries, hnodup, hgrouping⟩
    obtain ⟨c, hf⟩ := Catalogue.exists_forall₂_denotes_iff.2 ⟨hqueries, hnodup⟩
    obtain ⟨g, hdenotes, hcovers⟩ := (isGrouping_iff (Catalogue.ids_of_forall₂ hf)).2 hgrouping
    exact ⟨⟨c, g, firstUnknown?_eq_none_iff_forall.2 hcovers⟩, fields, hbody, ⟨entries, hentries, hne, hf⟩, hdenotes⟩

/-- **Reading a request is exact.**  It succeeds on the values of the grammar and on no others, and the request that
it gives is the one that the value denotes: the same parts in the same order, and a default for each part that may be
left out. -/
theorem reading_exact (v : Value) :
    ((∃ r, ofValue v = .ok r) ↔ IsRequest v) ∧ ∀ r, ofValue v = .ok r ↔ Denotes v r := by
  refine ⟨?_, fun r => ofValue_eq_ok_iff⟩
  rw [← exists_denotes_iff]
  exact exists_congr (fun r => ofValue_eq_ok_iff)

/-- A request under `dcql_query`, with defaults spelled out, foreign fields and nested metadata. -/
def carriedData : Value :=
  .object [(.text "state", .int 7), (.text "dcql_query", .object
    [(.text "credential_sets", .list [.object
        [(.text "options", .list [.list [.text "pid\n", .text "mdl"], .list [.text "mdl"]]), (.text "purpose", .int 3)]]),
     (.text "credentials", .list
        [.object [(.text "format", .text "mso_mdoc"), (.text "id", .text "mdl"), (.text "meta", .null),
           (.text "claims", .list [.object [(.text "path", .list [.null])]]), (.text "multiple", .bool true)],
         .object [(.text "id", .text "pid\n"), (.text "format", .text "dc+sd-jwt"),
           (.text "meta", .object [(.text "vct_values", .list [.text "urn:eudi:pid:1"])]),
           (.text "multiple", .bool false)]])])]

/-- The request in it. -/
def carriedRequest : Request :=
  ⟨⟨[{ id := "mdl", format := "mso_mdoc", claims := some [[(.text "path", .list [.null])]], multiple := .bool true },
      { id := "pid\n", format := "dc+sd-jwt",
        metadata := [(.text "vct_values", .list [.text "urn:eudi:pid:1"])] }], by decide⟩,
    some [⟨[⟨["pid\n", "mdl"], by decide⟩, ⟨["mdl"], by decide⟩], by simp, true, .int 3⟩], by decide⟩

example : ofValue carriedData = .ok carriedRequest := rfl

end Request

end Disclosure
