import Disclosure.Proofs.FirstPlaces
import Disclosure.Proofs.Wording

/-!
# Disclosure.Proofs.Rejection — the first fault of data that are no request

Data that are refused are refused for one fault, and the fault is determined by the data: entries come before repeated
ids, these before the sets, and the sets before the references; among faults of one kind the first place counts.

* `Grammar.RequestFault`: what is wrong with a request whose catalogue is a list with entries.
* `Request.rejection_exact`: the reader of requests reports it, in the words of `Grammar.Worded`.
-/

namespace Disclosure

namespace Grammar

/-- What is wrong with a request with the given entries: the first entry that is no query, whatever else there is; else
the first id that repeats an earlier one; else the grouping, which is neither null nor a list, or its first bad set;
else the first reference to an id that no entry carries. -/
inductive RequestFault (entries : List Value) (grouping : Value) : RequestError → Prop
  | entry {i : Nat} {v : Value} {e : RequestError} (first : FirstWithout (·.ObjectWith IsQuery) entries i v)
    (fault : CredentialQuery.ofValue v ((Place.top "credentials").item i) = .error e) :
    RequestFault entries grouping e
  | repeatedId {i : Nat} {id : String} (queries : ∀ v ∈ entries, v.ObjectWith IsQuery)
    (first : FirstRepeat (entries.map (·.member "id")) i (.text id)) :
    RequestFault entries grouping (.repeatedId id)
  | notAList (queries : ∀ v ∈ entries, v.ObjectWith IsQuery) (distinct : (entries.map (·.member "id")).Nodup)
    (given : grouping.untie ≠ .null) (other : ∀ sets, grouping.untie ≠ .list sets) :
    RequestFault entries grouping (.notAList (.top "credential_sets"))
  | set {sets : List Value} {i : Nat} {v : Value} {e : RequestError} (queries : ∀ v ∈ entries, v.ObjectWith IsQuery)
    (distinct : (entries.map (·.member "id")).Nodup) (list : grouping.untie = .list sets)
    (first : FirstWithout (·.ObjectWith IsSet) sets i v)
    (fault : CredentialSet.ofValue v ((Place.top "credential_sets").item i) = .error e) :
    RequestFault entries grouping e
  | unknownReference {sets : List Value} {r : Reference} (queries : ∀ v ∈ entries, v.ObjectWith IsQuery)
    (distinct : (entries.map (·.member "id")).Nodup) (list : grouping.untie = .list sets)
    (good : ∀ s ∈ sets, s.ObjectWith IsSet) (first : FirstUnknown entries sets r) :
    RequestFault entries grouping (.unknownReference r)

theorem RequestFault.worded {entries : List Value} {grouping : Value} {e : RequestError}
    (h : RequestFault entries grouping e) : Worded e e.message := by
  cases h with
  | entry first fault => exact (CredentialQuery.ofValue_eq_error_iff.1 fault).worded
  | repeatedId queries first => exact .repeatedId _
  | notAList queries distinct given other => exact .notAList (path_text _)
  | set queries distinct list first fault => exact (CredentialSet.ofValue_eq_error_iff.1 fault).worded
  | @unknownReference _ r queries distinct list good first =>
    rw [message_unknownReference]
    exact .unknownReference r.set r.option r.id

end Grammar

open Grammar

/-! ### Grouping -/

/-- Null or a list of good sets is a grouping; else the first bad set is reported, or that there is no list. -/
theorem Grouping.ofValue_eq_error_iff {v : Value} {e : RequestError} :
    Grouping.ofValue v = .error e ↔
      (v.untie ≠ .null ∧ ∀ sets, v.untie ≠ .list sets) ∧ e = .notAList (.top "credential_sets") ∨
      ∃ sets i w, v.untie = .list sets ∧ FirstWithout (·.ObjectWith IsSet) sets i w ∧
        CredentialSet.ofValue w ((Place.top "credential_sets").item i) = .error e := by
  unfold Grouping.ofValue
  split
  · rename_i h
    simp [h]
  · rename_i items hlist
    have hread : ∀ i w, (∃ s, CredentialSet.ofValue w ((Place.top "credential_sets").item i) = .ok s) ↔
        w.ObjectWith IsSet :=
      fun _ _ => CredentialSet.exists_ofValue_iff
    have hmade : ∀ sets, (pure (some sets) : Except RequestError Grouping) ≠ .error e := by
      simp [pure, Except.pure]
    simp only [bind_eq_error_iff, readEach_eq_error_iff hread, Nat.zero_add, hmade, and_false, exists_false, or_false,
      hlist, ne_eq, Value.list.injEq, forall_eq', false_and, false_or, exists_and_left, exists_eq_left']
  · rename_i hnull hother
    have hright : ¬ ∃ sets i w, v.untie = .list sets ∧ FirstWithout (·.ObjectWith IsSet) sets i w ∧
        CredentialSet.ofValue w ((Place.top "credential_sets").item i) = .error e :=
      fun ⟨sets, _, _, hlist, _⟩ => hother sets hlist
    simp only [hright, or_false, Except.error.injEq, eq_comm (a := e)]
    exact ⟨fun he => ⟨⟨hnull, hother⟩, he⟩, And.right⟩

/-! ### Requests -/

namespace Request

variable {v : Value} {fields : Fields} {entries : List Value} {e : RequestError}

theorem ofParts_eq_error_iff {c : Catalogue} {g : Grouping} :
    ofParts c g = .error e ↔ ∃ r, firstUnknown? c g = some r ∧ e = .unknownReference r := by
  unfold ofParts
  split
  · rename_i r h
    simp [h, eq_comm]
  · rename_i h
    simp [h]

/-- A value with a body is refused when its catalogue is, or its grouping, or a reference. -/
theorem ofValue_eq_error_iff (hbody : HasBody v fields) :
    ofValue v = .error e ↔
      Catalogue.ofValue (fields.get "credentials") = .error e ∨
        ∃ c, Catalogue.ofValue (fields.get "credentials") = .ok c ∧
          (Grouping.ofValue (fields.get "credential_sets") = .error e ∨
            ∃ g, Grouping.ofValue (fields.get "credential_sets") = .ok g ∧
              ∃ r, firstUnknown? c g = some r ∧ e = .unknownReference r) := by
  have hread : body v = .ok fields := body_eq_ok_iff.2 hbody
  simp only [ofValue, ofFields, hread, bind_eq_error_iff, Except.ok.injEq, exists_eq_left', reduceCtorEq, false_or,
    ofParts_eq_error_iff]

/-- **A request is refused for its first fault.**  When the data hold a catalogue with entries, they are refused for
exactly what is wrong with them: the first entry that is no query, as that entry alone is refused at its place; else the
first repeated id; else the grouping or its first bad set, as that set alone is refused; else the first unknown reference.
An entry is refused for the first of its fields that is bad, a set for its first bad option, and for its flag only when
the options are good.  The text that reports the fault names its path and says what is wrong there. -/
theorem rejection_exact (v : Value) (fields : Fields) (entries : List Value) (hbody : HasBody v fields)
    (hlist : (fields.get "credentials").untie = .list entries) (hne : entries ≠ []) :
    (∀ e, ofValue v = .error e ↔ RequestFault entries (fields.get "credential_sets") e) ∧
      (∀ s place e, CredentialSet.ofValue s place = .error e ↔ SetFault place s e) ∧
      (∀ q place e, CredentialQuery.ofValue q place = .error e ↔ QueryFault place q e) ∧
      ∀ e, ofValue v = .error e → Worded e e.message := by
  suffices hexact : ∀ e, ofValue v = .error e ↔ RequestFault entries (fields.get "credential_sets") e from
    ⟨hexact, fun _ _ _ => CredentialSet.ofValue_eq_error_iff, fun _ _ _ => CredentialQuery.ofValue_eq_error_iff,
      fun e he => ((hexact e).1 he).worded⟩
  intro e
  have hcatalogue : ∀ c, Catalogue.ofValue (fields.get "credentials") = .ok c ↔
      List.Forall₂ (fun e q => e.ObjectWith (fun fields => CredentialQuery.Denotes fields q)) entries c.entries := by
    intro c
    rw [Catalogue.ofValue_eq_ok_iff]
    simp only [Catalogue.Denotes, hlist, Value.list.injEq, exists_eq_left', hne, ne_eq, not_false_eq_true, true_and]
  have hmade : (∀ w ∈ entries, w.ObjectWith IsQuery) → (entries.map (·.member "id")).Nodup →
      ∃ c, Catalogue.ofValue (fields.get "credentials") = .ok c ∧
        entries.map (fun e => e.member "id") = c.entries.map (fun q => .text q.id) := by
    intro hqueries hnodup
    obtain ⟨c, hf⟩ := Catalogue.exists_forall₂_denotes_iff.2 ⟨hqueries, hnodup⟩
    exact ⟨c, (hcatalogue c).2 hf, Catalogue.ids_of_forall₂ hf⟩
  rw [ofValue_eq_error_iff hbody, Catalogue.ofValue_eq_error_iff hlist hne, Grouping.ofValue_eq_error_iff]
  constructor
  · rintro ((⟨i, w, hfirst, he⟩ | ⟨hqueries, i, id, hrepeat, rfl⟩) | ⟨c, hc, hgrouping⟩)
    · exact .entry hfirst he
    · exact .repeatedId hqueries hrepeat
    · have hf := (hcatalogue c).1 hc
      obtain ⟨hqueries, hnodup⟩ := Catalogue.exists_forall₂_denotes_iff.1 ⟨c, hf⟩
      rcases hgrouping with (⟨⟨hgiven, hother⟩, rfl⟩ | ⟨sets, i, w, hsets, hfirst, he⟩) | ⟨g, hg, r, hr, rfl⟩
      · exact .notAList hqueries hnodup hgiven hother
      · exact .set hqueries hnodup hsets hfirst he
      · cases g with
        | none => cases hr
        | some sets =>
          obtain ⟨items, hitems, hsets⟩ := Grouping.ofValue_eq_ok_iff.1 hg
          exact .unknownReference hqueries hnodup hitems (CredentialSet.exists_forall₂_denotes_iff.1 ⟨sets, hsets⟩)
            ((firstUnknown?_eq_some_iff_of_denotes (Catalogue.ids_of_forall₂ hf) hsets).1 hr)
  · rintro (⟨hfirst, he⟩ | ⟨hqueries, hrepeat⟩ | ⟨hqueries, hnodup, hgiven, hother⟩ |
      ⟨hqueries, hnodup, hsets, hfirst, he⟩ | ⟨hqueries, hnodup, hitems, hgood, hfirst⟩)
    · exact Or.inl (Or.inl ⟨_, _, hfirst, he⟩)
    · exact Or.inl (Or.inr ⟨hqueries, _, _, hrepeat, rfl⟩)
    · obtain ⟨c, hc, -⟩ := hmade hqueries hnodup
      exact Or.inr ⟨c, hc, Or.inl (Or.inl ⟨⟨hgiven, hother⟩, rfl⟩)⟩
    · obtain ⟨c, hc, -⟩ := hmade hqueries hnodup
      exact Or.inr ⟨c, hc, Or.inl (Or.inr ⟨_, _, _, hsets, hfirst, he⟩)⟩
    · obtain ⟨c, hc, hids⟩ := hmade hqueries hnodup
      obtain ⟨sets, hsets⟩ := CredentialSet.exists_forall₂_denotes_iff.2 hgood
      have hg : Grouping.ofValue (fields.get "credential_sets") = .ok (some sets) :=
        Grouping.ofValue_eq_ok_iff.2 ⟨_, hitems, hsets⟩
      exact Or.inr ⟨c, hc, Or.inr ⟨_, hg, _, (firstUnknown?_eq_some_iff_of_denotes hids hsets).2 hfirst, rfl⟩⟩

/-- The body of a request whose second set names two ids that no entry carries. -/
def strayFields : Fields :=
  [(.text "credentials", .list [.object [(.text "id", .text "a"), (.text "format", .text "mso_mdoc")]]),
   (.text "credential_sets", .list
     [.object [(.text "options", .list [.list [.text "a"]])],
      .object [(.text "options", .list [.list [.text "a"], .list [.text "a", .text "c", .text "b"]])]])]

/-- The first of them is reported, at its set and option. -/
theorem rejection_stray :
    HasBody (.object strayFields) strayFields ∧
      ofValue (.object strayFields) = .error (.unknownReference ⟨1, 1, "c"⟩) ∧
      RequestFault [.object [(.text "id", .text "a"), (.text "format", .text "mso_mdoc")]]
        (strayFields.get "credential_sets") (.unknownReference ⟨1, 1, "c"⟩) ∧
      Worded (.unknownReference ⟨1, 1, "c"⟩)
        (Text.ofString "credential_sets[1].options[1] references unknown credential query id 'c'") := by
  have hbody : HasBody (.object strayFields) strayFields := .bare rfl rfl
  have he : ofValue (.object strayFields) = .error (.unknownReference ⟨1, 1, "c"⟩) := rfl
  have hmessage : (RequestError.unknownReference ⟨1, 1, "c"⟩).message
      = Text.ofString "credential_sets[1].options[1] references unknown credential query id 'c'" :=
    message_unknownReference 1 1 "c"
  obtain ⟨hexact, -, -, hworded⟩ := rejection_exact _ strayFields _ hbody rfl (by simp)
  exact ⟨hbody, he, (hexact _).1 he, hmessage ▸ hworded _ he⟩

end Request

end Disclosure
