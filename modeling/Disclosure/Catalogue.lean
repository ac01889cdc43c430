import Disclosure.CredentialQuery
import Disclosure.OrderedMap
import Disclosure.RequestError

/-!
# Disclosure.Catalogue — the credentials of a request

A catalogue lists credential queries under pairwise distinct ids.  `ofList` accepts a list exactly when its ids are
distinct, and otherwise names the first id that repeats an earlier one.

* `firstRepeat?_eq_none_iff`: no id is named exactly when the ids are distinct.
-/

namespace Disclosure

/-- The first id that stands in `seen` or earlier in the list. -/
def firstRepeat? (seen : List String) : List String → Option String
  | [] => none
  | id :: rest => if id ∈ seen then some id else firstRepeat? (id :: seen) rest

theorem firstRepeat?_eq_none_iff {seen ids : List String} :
    firstRepeat? seen ids = none ↔ ids.Nodup ∧ ∀ id ∈ ids, id ∉ seen := by
  induction ids generalizing seen with
  | nil => simp [firstRepeat?]
  | cons id rest ih =>
    unfold firstRepeat?
    split
    · rename_i h
      simp [h]
    · rename_i h
      rw [ih]
      simp only [List.mem_cons, not_or, List.nodup_cons]
      constructor
      · rintro ⟨hn, hr⟩
        refine ⟨⟨fun hm => (hr id hm).1 rfl, hn⟩, ?_⟩
        rintro x (rfl | hx)
        · exact h
        · exact (hr x hx).2
      · rintro ⟨⟨hi, hn⟩, hr⟩
        exact ⟨hn, fun x hx => ⟨fun e => hi (e ▸ hx), hr x (Or.inr hx)⟩⟩

/-- Credential queries under pairwise distinct ids. -/
structure Catalogue where
  entries : List CredentialQuery
  nodup_ids : (entries.map CredentialQuery.id).Nodup

namespace Catalogue

/-- A catalogue of the given queries, unless an id repeats. -/
def ofList (queries : List CredentialQuery) : Except RequestError Catalogue :=
  match h : firstRepeat? [] (queries.map CredentialQuery.id) with
  | some id => .error (.repeatedId id)
  | none => .ok ⟨queries, (firstRepeat?_eq_none_iff.1 h).1⟩

/-- The catalogue without queries. -/
def empty : Catalogue := ⟨[], List.nodup_nil⟩

instance : Inhabited Catalogue := ⟨empty⟩

/-- The ids, in order. -/
def ids (c : Catalogue) : List String := c.entries.map CredentialQuery.id

/-- The number of queries. -/
def size (c : Catalogue) : Nat := c.entries.length

/-- The query with the given id, found by going through the list. -/
def get? (c : Catalogue) (id : String) : Option CredentialQuery := c.entries.find? (fun q => q.id == id)

/-- The queries by id, put in one after another. -/
def toMap (c : Catalogue) : OrderedMap CredentialQuery :=
  c.entries.foldl (fun m q => m.put q.id q) ∅

@[ext]
theorem ext {a b : Catalogue} (h : a.entries = b.entries) : a = b := by
  cases a; cases b; cases h; rfl

end Catalogue

end Disclosure
