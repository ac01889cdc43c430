import Disclosure.Proofs.RoundTrip

/-!
# Disclosure.Proofs.IdAlphabet — the ids that a request can name

The ids of the catalogue and of the options consist of letters, digits, `_` and `-`.  The pattern that they are held
against looks at the end of a line and not at the end of the text, so one line end may follow.

* `Grammar.isIdText_iff`, `Grammar.isPlainId_iff_of_isIdText`: such a text is plain, or plain with a line end after it.
* `Request.named_ids_exact`: the ids of all requests that can be read.
* `Request.id_with_lineEnd`: an id with a line end is read.
-/

namespace Disclosure

namespace Grammar

/-- Letters, digits, `_` and `-`, at least one of them, and nothing else. -/
def IsPlainId (id : String) : Prop := id ≠ "" ∧ ∀ c ∈ id.toList, IsIdChar c

theorem isIdText_iff {id : String} :
    IsIdText id.toList ↔ IsPlainId id ∨ ∃ plain, IsPlainId plain ∧ id = plain ++ "\n" := by
  constructor
  · rintro ⟨letters, hne, hall, heq | heq⟩
    · left
      rw [← heq] at hne hall
      exact ⟨by simpa using hne, hall⟩
    · right
      refine ⟨String.ofList letters, ⟨by simpa using hne, by simpa using hall⟩, ?_⟩
      rw [← String.toList_inj, String.toList_append, String.toList_ofList, heq]
      rfl
  · rintro (⟨hne, hall⟩ | ⟨plain, ⟨hne, hall⟩, rfl⟩)
    · exact ⟨id.toList, by simpa using hne, hall, Or.inl rfl⟩
    · exact ⟨plain.toList, by simpa using hne, hall, Or.inr (by simp)⟩

/-- Of the texts that are accepted as ids, those without a line end are plain. -/
theorem isPlainId_iff_of_isIdText {id : String} (h : IsIdText id.toList) : IsPlainId id ↔ '\n' ∉ id.toList := by
  constructor
  · rintro ⟨-, hall⟩ hmem
    exact not_isIdChar_lineEnd (hall _ hmem)
  · intro hno
    rcases isIdText_iff.1 h with hplain | ⟨plain, -, rfl⟩
    · exact hplain
    · exact absurd (by simp) hno

end Grammar

open Grammar

namespace Request

variable {r : Request} {id : String}

/-- The id is one of the catalogue, or some option of some set names it. -/
def Names (r : Request) (id : String) : Prop :=
  id ∈ r.catalogue.ids ∨ ∃ sets, r.grouping = some sets ∧ ∃ s ∈ sets, ∃ o ∈ s.options, id ∈ o.ids

theorem Regular.isIdText_of_names (h : r.Regular) (hid : r.Names id) : IsIdText id.toList := by
  rcases hid with hid | ⟨sets, hsets, s, hs, o, ho, hid⟩
  · obtain ⟨q, hq, rfl⟩ := List.mem_map.1 hid
    exact (h.queries q hq).id
  · exact isIdText_of_mem_option h hsets s hs o ho id hid

/-- A request for one query, with one set that names it. -/
def single (id : String) : Request where
  catalogue := ⟨[{ id, format := "f" }], by simp⟩
  grouping := some [⟨[⟨[id], by simp⟩], by simp, true, .null⟩]
  references_known := by
    rw [firstUnknown?_eq_none_iff_forall]
    simp [Catalogue.Covers, Catalogue.ids]

theorem regular_single (h : IsIdText id.toList) : (single id).Regular where
  entries_ne := by simp [single]
  queries := by
    intro q hq
    obtain rfl : q = { id, format := "f" } := by simpa [single] using hq
    exact ⟨h, List.cons_ne_nil _ _, by simp, ⟨false, rfl⟩⟩

/-- **The ids of a request that was read are plain, but for one line end that may follow.**  So those without a line end
are plain.  Nothing else is excluded: each such text is the id of some catalogue and stands in some option. -/
theorem named_ids_exact (v : Value) (r : Request) (h : ofValue v = .ok r) :
    (∀ id, r.Names id →
      (IsPlainId id ∨ ∃ plain, IsPlainId plain ∧ id = plain ++ "\n") ∧ (IsPlainId id ↔ '\n' ∉ id.toList)) ∧
    ((∀ id, r.Names id → IsPlainId id) ↔ ∀ id, r.Names id → '\n' ∉ id.toList) ∧
    ∀ id, (IsPlainId id ∨ ∃ plain, IsPlainId plain ∧ id = plain ++ "\n") →
      ∃ (w : Value) (s : Request), ofValue w = .ok s ∧ id ∈ s.catalogue.ids ∧
        ∃ sets, s.grouping = some sets ∧ ∃ t ∈ sets, ∃ o ∈ t.options, id ∈ o.ids := by
  have hregular : r.Regular := regular_of_denotes (ofValue_eq_ok_iff.1 h)
  have hplain : ∀ id, r.Names id → (IsPlainId id ↔ '\n' ∉ id.toList) := by
    intro id hid
    exact isPlainId_iff_of_isIdText (hregular.isIdText_of_names hid)
  refine ⟨fun id hid => ⟨isIdText_iff.1 (hregular.isIdText_of_names hid), hplain id hid⟩, ?_, ?_⟩
  · exact forall_congr' fun id => forall_congr' fun hid => hplain id hid
  · intro id hid
    have hsingle : (single id).Regular := regular_single (isIdText_iff.2 hid)
    refine ⟨(single id).toValue, single id, ofValue_eq_ok_iff.2 (denotes_toValue hsingle), ?_, _, rfl, _,
      List.mem_singleton_self _, _, List.mem_singleton_self _, List.mem_singleton_self _⟩
    simp [single, Catalogue.ids]

/-- The data name `mdl`, and `pid` with a line end after it. -/
theorem named_ids_exact_carried :
    ofValue carriedData = .ok carriedRequest ∧ carriedRequest.Names "mdl" ∧ IsPlainId "mdl" ∧
      carriedRequest.Names "pid\n" ∧ ¬ IsPlainId "pid\n" := by
  have h : ofValue carriedData = .ok carriedRequest := rfl
  obtain ⟨hnamed, -, -⟩ := named_ids_exact carriedData carriedRequest h
  have hmdl : carriedRequest.Names "mdl" := Or.inl (by simp [carriedRequest, Catalogue.ids])
  have hpid : carriedRequest.Names "pid\n" := Or.inl (by simp [carriedRequest, Catalogue.ids])
  refine ⟨h, hmdl, ?_, hpid, ?_⟩
  · rw [(hnamed "mdl" hmdl).2]
    simp
  · rw [(hnamed "pid\n" hpid).2]
    simp

/-- An id that ends with a line end. -/
def lineEndData : Value :=
  .object [(.text "credentials", .list [.object [(.text "id", .text "a\n"), (.text "format", .text "f")]])]

theorem id_with_lineEnd :
    ∃ r : Request, ofValue lineEndData = .ok r ∧ r.catalogue.ids = ["a\n"] ∧
      ¬ (∀ c ∈ "a\n".toList, IsIdChar c) := by
  refine ⟨⟨⟨[{ id := "a\n", format := "f" }], by decide⟩, none, rfl⟩, rfl, rfl, ?_⟩
  intro hall
  exact not_isIdChar_lineEnd (hall '\n' (by simp))

end Request

end Disclosure
