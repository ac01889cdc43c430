import Disclosure.Proofs.Rejection
import Disclosure.Proofs.RoundTrip
import Mathlib.Logic.Relation

/-!
# Disclosure.Proofs.Spelling — the spellings of a request

A request can be spelled in many ways.  Of an object only some names count: the order of its fields does not matter, nor
do fields with other names, nor fields that hold what their absence means.  The names that count in the body of a request,
in an entry of the catalogue and in a set are listed in a form each, with the values that say as little as an absent field.

* `Form`, `Form.Edit`: what counts in an object, and one change of its spelling.
* `Form.Edit.field?_eq`, `Form.Edit.get_eq`: what such a change does to a field that counts.
* `CredentialQuery.ofFields_of_edit`, `CredentialSet.ofFields_of_edit`: entries and sets, good or bad, are read as before.
* `BodyEdit`, `Request.Edit`: one change anywhere in a request.
* `Request.spelling_harmless`: a request is read, or refused, as before after any number of changes.
-/

namespace Disclosure

/-! ### Fields in another order -/

/-- No two fields have the same name. -/
def Fields.Distinct (fields : Fields) : Prop := fields.Pairwise (fun a b => a.1.equiv b.1 = false)

theorem Fields.Distinct.of_perm {a b : Fields} (h : a.Distinct) (hp : a.Perm b) : b.Distinct := by
  refine (hp.pairwise_iff ?_).1 h
  intro x y hxy
  rw [← Bool.not_eq_true] at hxy ⊢
  exact mt Scalar.equiv_symm hxy

/-- Where names are distinct, what stands under a name is found there. -/
theorem Fields.Distinct.field?_eq_some_iff {a : Fields} (h : a.Distinct) {name : String} {v : Value} :
    a.field? name = some v ↔ (Scalar.text name, v) ∈ a := by
  rw [field?, List.lookup_eq_some_iff]
  constructor
  · rintro ⟨before, later, rfl, -⟩
    simp
  · intro hmem
    obtain ⟨before, later, rfl⟩ := List.append_of_mem hmem
    refine ⟨before, later, rfl, fun e he => ?_⟩
    have hdiff : e.1.equiv (.text name) = false := (List.pairwise_append.1 h).2.2 e he _ List.mem_cons_self
    rw [bne_iff_ne]
    intro heq
    rw [← heq, Scalar.equiv_text.2 rfl] at hdiff
    cases hdiff

theorem Fields.Distinct.field?_eq_of_perm {a b : Fields} (h : a.Distinct) (hp : a.Perm b) (name : String) :
    b.field? name = a.field? name := by
  ext v
  rw [h.field?_eq_some_iff, (h.of_perm hp).field?_eq_some_iff, hp.mem_iff]

/-! ### One object -/

/-- The names that count in an object, each with the values that say as much as an absent field. -/
structure Form where
  names : List (String × List Value)

/-- The values that say as much as an absent field under this name, if the name counts. -/
def Form.silent? (form : Form) (name : String) : Option (List Value) := form.names.lookup name

/-- One change of the spelling of an object: its fields in another order, one more field under a name that does not count,
or one under a name that does, with a value that says as much as its absence. -/
inductive Form.Edit (form : Form) : Fields → Fields → Prop
  | reordered {a b : Fields} (h : a.Perm b) (distinct : a.Distinct) : form.Edit a b
  | foreign {before later : Fields} {name : Scalar} {v : Value}
    (h : ∀ n : String, name = .text n → form.silent? n = none) :
    form.Edit (before ++ later) (before ++ (name, v) :: later)
  | spelledOut {before later : Fields} {name : String} {silent : List Value} {v : Value}
    (h : form.silent? name = some silent) (hv : v ∈ silent) (absent : Fields.field? (before ++ later) name = none) :
    form.Edit (before ++ later) (before ++ (.text name, v) :: later)

/-- A field is found behind the first fields, unless one of them has its name. -/
theorem Fields.field?_insert_self (before later : Fields) (name : String) (v : Value) :
    field? (before ++ (.text name, v) :: later) name = (field? before name).or (some v) := by
  simp [field?_append]

theorem Fields.field?_insert_of_ne (before later : Fields) (v : Value) {other : Scalar} {name : String}
    (h : other ≠ .text name) : field? (before ++ (other, v) :: later) name = field? (before ++ later) name := by
  have hne : (Scalar.text name == other) = false := beq_eq_false_iff_ne.2 (fun heq => h heq.symm)
  rw [field?_append, field?_append]
  simp only [field?, List.lookup_cons, hne]

section Edit

variable {form : Form} {a b : Fields} {name : String} {silent : List Value}

/-- A field that counts stays as it is, or it was absent and gets a value that says as much. -/
theorem Form.Edit.field?_eq (h : form.Edit a b) (hname : form.silent? name = some silent) :
    b.field? name = a.field? name ∨ a.field? name = none ∧ ∃ v ∈ silent, b.field? name = some v := by
  cases h with
  | reordered hp hd => exact Or.inl (hd.field?_eq_of_perm hp name)
  | @foreign before later other v hforeign =>
    left
    have hne : other ≠ .text name := by
      intro heq
      rw [hforeign name heq] at hname
      cases hname
    exact Fields.field?_insert_of_ne before later v hne
  | @spelledOut before later own silent' v hown hv habsent =>
    by_cases heq : own = name
    · subst heq
      obtain rfl : silent = silent' := Option.some.inj (hname.symm.trans hown)
      have hbefore : before.field? own = none := by
        rw [Fields.field?_append, Option.or_eq_none_iff] at habsent
        exact habsent.1
      refine Or.inr ⟨habsent, v, hv, ?_⟩
      rw [Fields.field?_insert_self, hbefore, Option.none_or]
    · left
      have hne : Scalar.text own ≠ .text name := fun h => heq (Text.ofString_injective (Scalar.text.inj h))
      exact Fields.field?_insert_of_ne before later v hne

/-- Where only null says as much as absence, the value of the field stays the same. -/
theorem Form.Edit.get_eq (h : form.Edit a b) (hname : form.silent? name = some silent)
    (hnull : ∀ v ∈ silent, v = .null) : b.get name = a.get name := by
  unfold Fields.get
  rcases h.field?_eq hname with heq | ⟨ha, v, hv, hb⟩
  · rw [heq]
  · rw [ha, hb, hnull v hv]
    rfl

end Edit

/-! ### Entries of the catalogue, and sets -/

/-- What counts in an entry of the catalogue. -/
def queryForm : Form :=
  ⟨[("id", []), ("format", []), ("meta", [.null, .object []]), ("claims", [.null]), ("multiple", [.bool false])]⟩

/-- What counts in a set. -/
def setForm : Form := ⟨[("options", []), ("required", [.null, .bool true]), ("purpose", [.null])]⟩

/-- What counts in the body of a request. -/
def bodyForm : Form := ⟨[("credentials", []), ("credential_sets", [.null])]⟩

/-- What counts in an object that carries a body. -/
def carrierForm : Form := ⟨[("dcql_query", [])]⟩

namespace CredentialQuery

variable {a b : Fields}

theorem readMetadata_of_edit (h : queryForm.Edit a b) (place : Place) : readMetadata b place = readMetadata a place := by
  have hname : queryForm.silent? "meta" = some [.null, .object []] := rfl
  unfold readMetadata Fields.get
  rcases h.field?_eq hname with heq | ⟨ha, v, hv, hb⟩
  · rw [heq]
  · simp only [List.mem_cons, List.not_mem_nil, or_false] at hv
    rcases hv with rfl | rfl <;> simp [ha, hb]

theorem readMultiple_of_edit (h : queryForm.Edit a b) (place : Place) : readMultiple b place = readMultiple a place := by
  have hname : queryForm.silent? "multiple" = some [.bool false] := rfl
  unfold readMultiple
  rcases h.field?_eq hname with heq | ⟨ha, v, hv, hb⟩
  · rw [heq]
  · obtain rfl := List.mem_singleton.1 hv
    simp [ha, hb]

/-- An entry is read, or refused, as before. -/
theorem ofFields_of_edit (h : queryForm.Edit a b) (place : Place) : ofFields b place = ofFields a place := by
  have hid : b.get "id" = a.get "id" := h.get_eq rfl (by simp)
  have hformat : b.get "format" = a.get "format" := h.get_eq rfl (by simp)
  have hclaims : b.get "claims" = a.get "claims" := h.get_eq rfl (by simp)
  simp only [ofFields, readFormat, readClaims, hid, hformat, hclaims, readMetadata_of_edit h, readMultiple_of_edit h]

end CredentialQuery

namespace CredentialSet

variable {a b : Fields}

theorem readRequired_of_edit (h : setForm.Edit a b) (place : Place) : readRequired b place = readRequired a place := by
  have hname : setForm.silent? "required" = some [.null, .bool true] := rfl
  unfold readRequired Fields.get
  rcases h.field?_eq hname with heq | ⟨ha, v, hv, hb⟩
  · rw [heq]
  · simp only [List.mem_cons, List.not_mem_nil, or_false] at hv
    rcases hv with rfl | rfl <;> simp [ha, hb]

/-- A set is read, or refused, as before. -/
theorem ofFields_of_edit (h : setForm.Edit a b) (place : Place) : ofFields b place = ofFields a place := by
  have hoptions : b.get "options" = a.get "options" := h.get_eq rfl (by simp)
  have hpurpose : b.get "purpose" = a.get "purpose" := h.get_eq rfl (by simp)
  simp only [ofFields, readOptions, hoptions, hpurpose, readRequired_of_edit h]

end CredentialSet

/-! ### Requests -/

/-- Two objects whose fields are related. -/
def ObjectEdit (R : Fields → Fields → Prop) (v w : Value) : Prop :=
  ∃ a b, v.untie = .object a ∧ w.untie = .object b ∧ R a b

/-- Two lists of which one item differs, and these items are related. -/
def ItemEdit (R : Value → Value → Prop) (v w : Value) : Prop :=
  ∃ before x y later, v.untie = .list (before ++ x :: later) ∧ w.untie = .list (before ++ y :: later) ∧ R x y

/-- One change of the spelling of a body: of its own fields, of an entry of its catalogue, or of one of its sets. -/
inductive BodyEdit : Fields → Fields → Prop
  | own {a b : Fields} (h : bodyForm.Edit a b) : BodyEdit a b
  | entry {before later : Fields} {v w : Value} (h : ItemEdit (ObjectEdit queryForm.Edit) v w) :
    BodyEdit (before ++ (.text "credentials", v) :: later) (before ++ (.text "credentials", w) :: later)
  | set {before later : Fields} {v w : Value} (h : ItemEdit (ObjectEdit setForm.Edit) v w) :
    BodyEdit (before ++ (.text "credential_sets", v) :: later) (before ++ (.text "credential_sets", w) :: later)

section Parts

variable {v w : Value}

theorem CredentialQuery.ofValue_of_edit (h : ObjectEdit queryForm.Edit v w) (place : Place) :
    ofValue w place = ofValue v place := by
  obtain ⟨a, b, hv, hw, hab⟩ := h
  simp only [ofValue, hv, hw, ofFields_of_edit hab]

theorem CredentialSet.ofValue_of_edit (h : ObjectEdit setForm.Edit v w) (place : Place) :
    ofValue w place = ofValue v place := by
  obtain ⟨a, b, hv, hw, hab⟩ := h
  simp only [ofValue, hv, hw, ofFields_of_edit hab]

theorem Catalogue.ofValue_of_edit (h : ItemEdit (ObjectEdit queryForm.Edit) v w) : ofValue w = ofValue v := by
  obtain ⟨before, x, y, later, hv, hw, hxy⟩ := h
  have hread := readEach_append_cons_congr (fun i v => CredentialQuery.ofValue v ((Place.top "credentials").item i))
    (fun i => CredentialQuery.ofValue_of_edit hxy ((Place.top "credentials").item i)) before later 0
  -- a catalogue is read when its list has a first item
  cases before with
  | nil =>
    simp only [List.nil_append] at hv hw hread
    simp only [ofValue, hv, hw, hread]
  | cons first rest =>
    simp only [List.cons_append] at hv hw hread
    simp only [ofValue, hv, hw, hread]

theorem Grouping.ofValue_of_edit (h : ItemEdit (ObjectEdit setForm.Edit) v w) : ofValue w = ofValue v := by
  obtain ⟨before, x, y, later, hv, hw, hxy⟩ := h
  have hread := readEach_append_cons_congr (fun i v => CredentialSet.ofValue v ((Place.top "credential_sets").item i))
    (fun i => CredentialSet.ofValue_of_edit hxy ((Place.top "credential_sets").item i)) before later 0
  simp only [ofValue, hv, hw, hread]

/-- Where one field gets another value, the others stay as they are. -/
theorem Fields.get_replaced_of_ne (before later : Fields) (v w : Value) {own name : String} (h : own ≠ name) :
    get (before ++ (.text own, w) :: later) name = get (before ++ (.text own, v) :: later) name := by
  have hne : Scalar.text own ≠ .text name := fun heq => h (Text.ofString_injective (Scalar.text.inj heq))
  simp only [get, field?_insert_of_ne before later _ hne]

/-- And the field itself has the new value, or its name stands before it and nothing changes. -/
theorem Fields.read_get_replaced {α : Type} {read : Value → α} (h : read w = read v) (before later : Fields) (name : String) :
    read (get (before ++ (.text name, w) :: later) name) = read (get (before ++ (.text name, v) :: later) name) := by
  simp only [get, field?_insert_self]
  cases field? before name with
  | none => exact h
  | some first => rfl

end Parts

namespace Request

theorem ofFields_of_edit {a b : Fields} (h : BodyEdit a b) : ofFields b = ofFields a := by
  cases h with
  | own h =>
    have hcredentials : b.get "credentials" = a.get "credentials" := h.get_eq rfl (by simp)
    have hsets : b.get "credential_sets" = a.get "credential_sets" := h.get_eq rfl (by simp)
    simp only [ofFields, hcredentials, hsets]
  | @entry before later v w h =>
    have hcredentials := Fields.read_get_replaced (Catalogue.ofValue_of_edit h) before later "credentials"
    have hsets := Fields.get_replaced_of_ne before later v w (show "credentials" ≠ "credential_sets" by decide)
    simp only [ofFields, hcredentials, hsets]
  | @set before later v w h =>
    have hsets := Fields.read_get_replaced (Grouping.ofValue_of_edit h) before later "credential_sets"
    have hcredentials := Fields.get_replaced_of_ne before later v w (show "credential_sets" ≠ "credentials" by decide)
    simp only [ofFields, hcredentials, hsets]

/-- One change of the spelling of a request: of a body that stands bare, of a body that is carried, or of an object that
carries one. -/
inductive Edit (v w : Value) : Prop
  | bare {a b : Fields} (hv : v.untie = .object a) (hw : w.untie = .object b) (ha : a.field? "dcql_query" = none)
    (hb : b.field? "dcql_query" = none) (h : BodyEdit a b)
  | carried {x y : Value} {before later : Fields} (hv : v.untie = .object (before ++ (.text "dcql_query", x) :: later))
    (hw : w.untie = .object (before ++ (.text "dcql_query", y) :: later)) (h : ObjectEdit BodyEdit x y)
  | carrier {a b : Fields} {x : Value} (hv : v.untie = .object a) (hw : w.untie = .object b)
    (ha : a.field? "dcql_query" = some x) (h : carrierForm.Edit a b)

variable {v w : Value}

theorem body_of_bare {a : Fields} (hv : v.untie = .object a) (ha : a.field? "dcql_query" = none) : body v = .ok a :=
  body_eq_ok_iff.2 (.bare hv ha)

/-- Objects that carry the same, good or bad, have the same body. -/
theorem body_eq_of_carried {a b : Fields} {x : Value} (hv : v.untie = .object a) (hw : w.untie = .object b)
    (ha : a.field? "dcql_query" = some x) (hb : b.field? "dcql_query" = some x) : body w = body v := by
  simp only [body, hv, hw, ha, hb]

/-- A request is read, or refused, as before. -/
theorem ofValue_of_edit (h : Edit v w) : ofValue w = ofValue v := by
  cases h with
  | @bare a b hv hw ha hb hab =>
    simp only [ofValue, body_of_bare hv ha, body_of_bare hw hb, bind, Except.bind]
    exact ofFields_of_edit hab
  | @carried x y before later hv hw hxy =>
    obtain ⟨a, b, hx, hy, hab⟩ := hxy
    have hget := Fields.field?_insert_self before later "dcql_query"
    cases hbefore : before.field? "dcql_query" with
    | none =>
      rw [hbefore] at hget
      have hbody : body v = .ok a := body_eq_ok_iff.2 (.carried hv (hget x) hx)
      have hbody' : body w = .ok b := body_eq_ok_iff.2 (.carried hw (hget y) hy)
      simp only [ofValue, hbody, hbody', bind, Except.bind]
      exact ofFields_of_edit hab
    | some first =>
      -- an earlier field of that name is the one that counts
      rw [hbefore] at hget
      simp only [ofValue, body_eq_of_carried hv hw (hget x) (hget y)]
  | @carrier a b x hv hw ha hab =>
    have hname : carrierForm.silent? "dcql_query" = some [] := rfl
    have hb : b.field? "dcql_query" = some x := by
      rcases hab.field?_eq hname with heq | ⟨habsent, -⟩
      · rw [heq, ha]
      · cases ha.symm.trans habsent
    simp only [ofValue, body_eq_of_carried hv hw ha hb]

/-- **The spelling of a request does not matter:** after any number of changes, at any places, it is read as the same
request or refused with the same message.  And an object that carries a bare body is read as the body, whatever stands
next to it. -/
theorem spelling_harmless :
    (∀ v w : Value, Relation.ReflTransGen Edit v w → ofValue w = ofValue v) ∧
      ∀ (v d : Value) (outer own : Fields), v.untie = .object outer → outer.field? "dcql_query" = some d →
        d.untie = .object own → own.field? "dcql_query" = none → ofValue v = ofValue d := by
  constructor
  · intro v w h
    induction h with
    | refl => rfl
    | tail _ hedit ih => rw [ofValue_of_edit hedit, ih]
  · intro v d outer own hv houter hd hown
    have hcarried : body v = .ok own := body_eq_ok_iff.2 (.carried hv houter hd)
    have hbare : body d = .ok own := body_of_bare hd hown
    simp only [ofValue, hcarried, hbare]

/-- An entry of a catalogue. -/
def plainEntry : Fields := [(.text "id", .text "a"), (.text "format", .text "mso_mdoc")]

/-- The same entry with its flag spelled out. -/
def flaggedEntry : Fields := (.text "multiple", .bool false) :: plainEntry

/-- The same entry with a note. -/
def notedEntry : Fields := (.text "note", .int 1) :: flaggedEntry

/-- A body whose catalogue has one entry. -/
def bodyWith (entry : Fields) : Fields := [(.text "credentials", .list [.object entry])]

/-- A flag, a note, and null for the absent sets, then both fields of the body exchanged; and a body that is refused is
refused as well when it is carried next to other fields. -/
theorem spelling_harmless_noted :
    (∃ r, ofValue (.object (bodyWith plainEntry)) = .ok r ∧
      ofValue (.object (bodyWith notedEntry ++ [(.text "credential_sets", .null)])) = .ok r) ∧
      ofValue (.object [(.text "credentials", .null), (.text "dcql_query", .object strayFields)]) =
        .error (.unknownReference ⟨1, 1, "c"⟩) := by
  obtain ⟨hspellings, hcarried⟩ := spelling_harmless
  have hentry : ∀ a b, queryForm.Edit a b → Edit (.object (bodyWith a)) (.object (bodyWith b)) := by
    intro a b h
    exact .bare rfl rfl rfl rfl (@BodyEdit.entry [] [] _ _ ⟨[], _, _, [], rfl, rfl, a, b, rfl, rfl, h⟩)
  have hflag : queryForm.Edit plainEntry flaggedEntry := @Form.Edit.spelledOut _ [] _ "multiple" _ _ rfl (by simp) rfl
  have hnote : queryForm.Edit flaggedEntry notedEntry := by
    refine @Form.Edit.foreign _ [] _ (.text "note") _ ?_
    intro n hn
    obtain rfl := Text.ofString_injective (Scalar.text.inj hn)
    rfl
  have hnull : Edit (.object (bodyWith notedEntry)) (.object ((.text "credential_sets", .null) :: bodyWith notedEntry)) :=
    .bare rfl rfl rfl rfl (.own (@Form.Edit.spelledOut _ [] _ "credential_sets" _ _ rfl (by simp) rfl))
  have hexchange : Edit (.object ((.text "credential_sets", .null) :: bodyWith notedEntry))
      (.object (bodyWith notedEntry ++ [(.text "credential_sets", .null)])) :=
    .bare rfl rfl rfl rfl (.own (.reordered (.swap ..) (List.pairwise_pair.2 rfl)))
  have hedits := (((Relation.ReflTransGen.single (hentry _ _ hflag)).tail (hentry _ _ hnote)).tail hnull).tail hexchange
  obtain ⟨r, hr⟩ : ∃ r, ofValue (.object (bodyWith plainEntry)) = .ok r := ⟨_, rfl⟩
  have hstray : ofValue (.object strayFields) = .error (.unknownReference ⟨1, 1, "c"⟩) := rfl
  refine ⟨⟨r, hr, ?_⟩, ?_⟩
  · rw [hspellings _ _ hedits, hr]
  · rw [hcarried _ (.object strayFields) _ strayFields rfl rfl rfl rfl, hstray]

end Request

end Disclosure
