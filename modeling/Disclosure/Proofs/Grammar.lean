import Disclosure.Request.Reader

/-!
# Disclosure.Proofs.Grammar — the data that are requests

The forms of decoded data that make up a request, said without the functions that read them.  A list or an object may
stand inside itself, so each form looks at a value through `Value.untie`; an absent field counts as null, except for
`multiple` and `dcql_query`, where the field itself is asked for.

* `IsId`: id characters, at least one, perhaps with one line end after them.
* `IsQuery`, `IsOption`, `IsSet`: an entry of the catalogue, an option of a set, a set.
* `IsBody`, `IsRequest`: the lists of both, ids distinct and references known; bare or under `dcql_query`.
* `QueryId.isValid_iff`: the ids of a request are the texts of this form.
-/

namespace Disclosure

namespace Value

/-- The items of a list; none when the value is no list. -/
def items (v : Value) : List Value :=
  match v.untie with
  | .list items => items
  | _ => []

/-- What an object holds under a name; null when there is nothing, or no object. -/
def member (v : Value) (name : String) : Value :=
  match v.untie with
  | .object fields => Fields.get fields name
  | _ => .null

/-- An object whose fields satisfy a condition. -/
def ObjectWith (P : Fields → Prop) (v : Value) : Prop := ∃ fields, v.untie = .object fields ∧ P fields

@[simp]
theorem untie_scalar (s : Scalar) : (scalar s).untie = scalar s := rfl

@[simp]
theorem untie_list (l : List Value) : (list l).untie = list l := rfl

@[simp]
theorem untie_object (fields : Fields) : (object fields).untie = object fields := rfl

theorem items_of_untie {v : Value} {l : List Value} (h : v.untie = .list l) : v.items = l := by
  simp [items, h]

theorem member_of_untie {v : Value} {fields : Fields} (h : v.untie = .object fields) (name : String) :
    v.member name = fields.get name := by
  simp [member, h]

theorem items_eq_nil {v : Value} (h : ∀ l, v.untie ≠ .list l) : v.items = [] := by
  unfold items
  split
  · rename_i l hl
    exact absurd hl (h l)
  · rfl

theorem member_eq_null {v : Value} (h : ∀ fields, v.untie ≠ .object fields) (name : String) : v.member name = .null := by
  unfold member
  split
  · rename_i fields hobject
    exact absurd hobject (h fields)
  · rfl

end Value

namespace Grammar

/-- A character that ids may hold. -/
def IsIdChar (c : Char) : Prop :=
  ('A' ≤ c ∧ c ≤ 'Z') ∨ ('a' ≤ c ∧ c ≤ 'z') ∨ ('0' ≤ c ∧ c ≤ '9') ∨ c = '_' ∨ c = '-'

/-- Some id characters, at least one, perhaps with one line end after them. -/
def IsIdText (chars : List Char) : Prop :=
  ∃ letters, letters ≠ [] ∧ (∀ c ∈ letters, IsIdChar c) ∧ (chars = letters ∨ chars = letters ++ ['\n'])

/-- The text of an id. -/
def IsId (v : Value) : Prop := ∃ chars, IsIdText chars ∧ v = .text (chars.map .char)

/-- A list of objects, at least one. -/
def IsClaims (v : Value) : Prop :=
  ∃ claims, v.untie = .list claims ∧ claims ≠ [] ∧ ∀ c ∈ claims, c.ObjectWith (fun _ => True)

/-- The fields of an entry of the catalogue. -/
structure IsQuery (fields : Fields) : Prop where
  id : IsId (fields.get "id")
  format : ∃ t, t ≠ [] ∧ fields.get "format" = .text t
  metadata : (fields.get "meta").untie = .null ∨ ∃ metadata, (fields.get "meta").untie = .object metadata
  claims : (fields.get "claims").untie = .null ∨ IsClaims (fields.get "claims")
  multiple : fields.field? "multiple" = none ∨ ∃ b, fields.field? "multiple" = some (.bool b)

/-- A list of ids, at least one. -/
def IsOption (v : Value) : Prop := ∃ ids, v.untie = .list ids ∧ ids ≠ [] ∧ ∀ id ∈ ids, IsId id

/-- The fields of a credential set. -/
structure IsSet (fields : Fields) : Prop where
  options : ∃ options, (fields.get "options").untie = .list options ∧ options ≠ [] ∧ ∀ o ∈ options, IsOption o
  required : fields.get "required" = .null ∨ ∃ b, fields.get "required" = .bool b

/-- The ids that the options of a set name. -/
def namedIds (s : Value) : List Value := (s.member "options").items.flatMap Value.items

/-- The sets of a request with the given catalogue: null, or a list of sets that name only ids of the catalogue. -/
def IsGrouping (queries : List Value) (v : Value) : Prop :=
  v.untie = .null ∨ ∃ sets, v.untie = .list sets ∧ (∀ s ∈ sets, s.ObjectWith IsSet) ∧
    ∀ s ∈ sets, ∀ id ∈ namedIds s, ∃ q ∈ queries, q.member "id" = id

/-- The fields of a request: a catalogue with distinct ids, and its grouping. -/
def IsBody (fields : Fields) : Prop :=
  ∃ queries, (fields.get "credentials").untie = .list queries ∧ queries ≠ [] ∧
    (∀ q ∈ queries, q.ObjectWith IsQuery) ∧ (queries.map (fun q => q.member "id")).Nodup ∧
    IsGrouping queries (fields.get "credential_sets")

/-- The fields that make up the request in a value: its own, or those of the object that it holds under
`dcql_query`. -/
inductive HasBody (v : Value) : Fields → Prop
  | bare {fields : Fields} (object : v.untie = .object fields) (absent : fields.field? "dcql_query" = none) :
    HasBody v fields
  | carried {fields inner : Fields} {w : Value} (object : v.untie = .object fields)
    (present : fields.field? "dcql_query" = some w) (nested : w.untie = .object inner) : HasBody v inner

theorem hasBody_bare_iff {v : Value} {own fields : Fields} (h : v.untie = .object own)
    (hnone : own.field? "dcql_query" = none) : HasBody v fields ↔ own = fields := by
  constructor
  · rintro (⟨hobject, -⟩ | ⟨hobject, hpresent, -⟩)
    · exact Value.object.inj (h.symm.trans hobject)
    · obtain rfl := Value.object.inj (h.symm.trans hobject)
      exact absurd (hnone.symm.trans hpresent) (by simp)
  · rintro rfl
    exact .bare h hnone

theorem hasBody_carried_iff {v w : Value} {own fields : Fields} (h : v.untie = .object own)
    (hw : own.field? "dcql_query" = some w) : HasBody v fields ↔ w.untie = .object fields := by
  constructor
  · rintro (⟨hobject, habsent⟩ | ⟨hobject, hpresent, hnested⟩)
    · obtain rfl := Value.object.inj (h.symm.trans hobject)
      exact absurd (habsent.symm.trans hw) (by simp)
    · obtain rfl := Value.object.inj (h.symm.trans hobject)
      obtain rfl := Option.some.inj (hw.symm.trans hpresent)
      exact hnested
  · exact .carried h hw

/-- A request. -/
def IsRequest (v : Value) : Prop := ∃ fields, HasBody v fields ∧ IsBody fields

end Grammar

/-! ### Ids -/

open Grammar

theorem QueryId.isIdChar_iff {c : Char} : isIdChar c = true ↔ IsIdChar c := by
  have hupper : c.isUpper = decide ('A' ≤ c ∧ c ≤ 'Z') := rfl
  have hlower : c.isLower = (decide ('a' ≤ c) && decide (c ≤ 'z')) := rfl
  have hdigit : c.isDigit = (decide ('0' ≤ c) && decide (c ≤ '9')) := rfl
  have hchar : isIdChar c = (c.isUpper || c.isLower || c.isDigit || c == '_' || c == '-') := rfl
  rw [hchar, hupper, hlower, hdigit]
  simp only [IsIdChar, Bool.or_eq_true, Bool.and_eq_true, decide_eq_true_eq, beq_iff_eq, or_assoc]

theorem Grammar.not_isIdChar_lineEnd : ¬ IsIdChar '\n' := by
  unfold IsIdChar
  decide

theorem QueryId.isWritten_iff {chars : List Char} : isWritten chars = true ↔ IsIdText chars := by
  simp only [isWritten, Bool.and_eq_true, Bool.not_eq_true', List.isEmpty_eq_false_iff, List.all_eq_true, isIdChar_iff]
  by_cases hlast : chars.getLast? = some '\n'
  · obtain ⟨letters, rfl⟩ := List.getLast?_eq_some_iff.1 hlast
    rw [if_pos hlast, List.dropLast_concat]
    constructor
    · rintro ⟨hne, hall⟩
      exact ⟨letters, hne, hall, Or.inr rfl⟩
    · rintro ⟨letters', hne, hall, rfl | heq⟩
      · exact absurd (hall '\n' (by simp)) not_isIdChar_lineEnd
      · rw [List.append_cancel_right heq]
        exact ⟨hne, hall⟩
  · rw [if_neg hlast]
    constructor
    · rintro ⟨hne, hall⟩
      exact ⟨chars, hne, hall, Or.inl rfl⟩
    · rintro ⟨letters, hne, hall, rfl | rfl⟩
      · exact ⟨hne, hall⟩
      · exact absurd (by simp) hlast

theorem QueryId.isValid_iff {s : String} : isValid s = true ↔ IsIdText s.toList := isWritten_iff

end Disclosure
