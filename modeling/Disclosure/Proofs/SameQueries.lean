import Disclosure.Proofs.SameData
import Disclosure.Proofs.TypedAnswers

/-!
# Disclosure.Proofs.SameQueries — queries that say the same

Two queries say the same exactly when they are written as objects that say the same: a part that is left out says as much
as one that is not there.  So saying the same is an equivalence of queries as it is of trees.  The hash of a query covers
its id, its format and its flag, in which queries that say the same do not differ; so a set of queries holds one of them
only.

* `Value.equiv_object_iff_field?`: objects whose names are texts, name by name.
* `CredentialQuery.IsTree.equiv_iff_toValue`: queries and what is written for them.
* `TreeQuery`: queries as members of sets.
* `queries_equal_consistently`: equality, written queries, hashes and sets.
-/

namespace Disclosure

/-! ### Objects name by name -/

/-- Every field is named by a text of characters. -/
def Fields.Named (fields : Fields) : Prop := ∀ f ∈ fields, ∃ name : String, f.1 = .text name

theorem Fields.Named.definite {fields : Fields} (h : fields.Named) : fields.Definite := by
  intro f hf
  obtain ⟨name, hname⟩ := h f hf
  rw [hname]
  exact Scalar.equiv_text.2 rfl

/-- Names are found in other fields when all texts among them are. -/
theorem Fields.Named.mem_names_of_mem {a b : Fields} (ha : a.Named)
    (h : ∀ name : String, Scalar.text name ∈ a.map Prod.fst → Scalar.text name ∈ b.map Prod.fst) {s : Scalar}
    (hs : s ∈ a.map Prod.fst) : s ∈ b.map Prod.fst := by
  obtain ⟨f, hf, rfl⟩ := List.mem_map.1 hs
  obtain ⟨name, hname⟩ := ha f hf
  rw [hname] at hs ⊢
  exact h name hs

theorem Fields.Distinct.nodup_names {a : Fields} (h : a.Distinct) (hdefinite : a.Definite) : (a.map Prod.fst).Nodup := by
  have hsenses : ((a.map Prod.fst).map Scalar.sense?).Nodup := by
    rw [List.map_map]
    exact h.nodup_senses hdefinite
  exact hsenses.of_map _

theorem Fields.Distinct.mem_names_iff {a : Fields} (h : a.Distinct) {name : String} :
    Scalar.text name ∈ a.map Prod.fst ↔ ∃ v, a.field? name = some v := by
  simp only [h.field?_eq_some_iff, List.mem_map, Prod.exists, exists_and_right, exists_eq_right]

namespace Value

/-- Both are there and say the same, or neither is there. -/
abbrev SameIfAny : Option Value → Option Value → Prop := Option.Rel (fun v w => v.equiv w = true)

theorem sameIfAny_some_iff {v : Value} {y : Option Value} :
    SameIfAny (some v) y ↔ ∃ w, y = some w ∧ v.equiv w = true := by
  cases y <;> simp

theorem SameIfAny.exists_iff {x y : Option Value} (h : SameIfAny x y) : (∃ v, x = some v) ↔ ∃ w, y = some w := by
  cases h <;> simp

/-- Objects whose fields are named by texts say the same when they do so name by name. -/
theorem equiv_object_iff_field? {a b : Fields} (ha : a.Distinct) (hb : b.Distinct) (hna : a.Named) (hnb : b.Named) :
    (object a).equiv (object b) = true ↔ ∀ name : String, SameIfAny (a.field? name) (b.field? name) := by
  rw [equiv_object_iff hb]
  constructor
  · rintro ⟨hlength, hsame⟩ name
    cases hv : a.field? name with
    | some v =>
      obtain ⟨⟨other, w⟩, hg, hname, hvalue⟩ := hsame _ (ha.field?_eq_some_iff.1 hv)
      obtain rfl : other = .text name := (Scalar.text_iff_of_equiv hname _).1 rfl
      exact sameIfAny_some_iff.2 ⟨w, hb.field?_eq_some_iff.2 hg, hvalue⟩
    | none =>
      cases hw : b.field? name with
      | none => exact .none
      | some w =>
        -- a field of the second object has a partner in the first, which has none of this name
        obtain ⟨⟨other, v⟩, hf, hname⟩ := ha.exists_partner hna.definite hlength (exists_equiv_of_sameField hsame) _
          (hb.field?_eq_some_iff.1 hw)
        obtain rfl : other = .text name := (Scalar.text_iff_of_equiv hname _).2 rfl
        rw [ha.field?_eq_some_iff.2 hf] at hv
        cases hv
  · intro hsame
    have hnames : ∀ name : String, Scalar.text name ∈ a.map Prod.fst ↔ Scalar.text name ∈ b.map Prod.fst := by
      intro name
      rw [ha.mem_names_iff, hb.mem_names_iff]
      exact (hsame name).exists_iff
    have hperm : (a.map Prod.fst).Perm (b.map Prod.fst) := by
      rw [List.perm_ext_iff_of_nodup (ha.nodup_names hna.definite) (hb.nodup_names hnb.definite)]
      exact fun s => ⟨fun hs => hna.mem_names_of_mem (fun name => (hnames name).1) hs,
        fun hs => hnb.mem_names_of_mem (fun name => (hnames name).2) hs⟩
    refine ⟨by simpa using hperm.length_eq, ?_⟩
    rintro ⟨own, v⟩ hf
    obtain ⟨name, rfl : own = .text name⟩ := hna _ hf
    have hname := hsame name
    rw [ha.field?_eq_some_iff.2 hf] at hname
    obtain ⟨w, hw, hvalue⟩ := sameIfAny_some_iff.1 hname
    exact ⟨(.text name, w), hb.field?_eq_some_iff.1 hw, Scalar.equiv_text.2 rfl, hvalue⟩

end Value

/-! ### Queries and what is written for them -/

namespace CredentialQuery

/-- Metadata and claims are trees, and the flag is a boolean. -/
structure IsTree (q : CredentialQuery) : Prop where
  metadata : (Value.object q.metadata).IsTree
  claims : ∀ claims, q.claims = some claims → ∀ c ∈ claims, (Value.object c).IsTree
  multiple : ∃ b, q.multiple = .bool b

variable {a b q : CredentialQuery}

/-- What holds of the fields that are written for a query. -/
theorem forall_mem_toFields {P : Scalar × Value → Prop} (hid : P (.text "id", .text q.id))
    (hformat : P (.text "format", .text q.format)) (hmeta : P (.text "meta", .object q.metadata))
    (hclaims : ∀ claims, q.claims = some claims → P (.text "claims", .list (claims.map .object)))
    (hmultiple : P (.text "multiple", .bool true)) : ∀ f ∈ q.toFields, P f := by
  intro f hf
  simp only [toFields, List.mem_append, List.mem_cons, List.not_mem_nil, or_false] at hf
  rcases hf with (((rfl | rfl) | hf) | hf) | hf
  · exact hid
  · exact hformat
  · split at hf
    · cases hf
    · exact List.mem_singleton.1 hf ▸ hmeta
  · split at hf
    · cases hf
    · rename_i claims hq
      exact List.mem_singleton.1 hf ▸ hclaims claims hq
  · split at hf
    · cases hf
    · exact List.mem_singleton.1 hf ▸ hmultiple

theorem named_toFields (q : CredentialQuery) : q.toFields.Named :=
  forall_mem_toFields ⟨_, rfl⟩ ⟨_, rfl⟩ ⟨_, rfl⟩ (fun _ _ => ⟨_, rfl⟩) ⟨_, rfl⟩

theorem distinct_toFields (q : CredentialQuery) : q.toFields.Distinct := by
  have hnames : (q.toFields.map Prod.fst).Sublist
      ([.text "id", .text "format"] ++ [.text "meta"] ++ [.text "claims"] ++ [.text "multiple"]) := by
    simp only [toFields, List.map_append]
    refine List.Sublist.append (List.Sublist.append (List.Sublist.append (List.Sublist.refl _) ?_) ?_) ?_
    all_goals split <;> simp
  have hdistinct : [Scalar.text "id", .text "format", .text "meta", .text "claims", .text "multiple"].Pairwise
      (fun s t => s.equiv t = false) := by decide
  exact List.pairwise_map.1 (hdistinct.sublist hnames)

/-- What is written for a query of trees is a tree. -/
theorem isTree_toValue (h : q.IsTree) : q.toValue.IsTree := by
  refine .object (distinct_toFields q) (named_toFields q).definite (forall_mem_toFields ?_ ?_ ?_ ?_ ?_)
  · exact .scalar (Scalar.equiv_text.2 rfl)
  · exact .scalar (Scalar.equiv_text.2 rfl)
  · exact h.metadata
  · intro claims hq
    exact .list (List.forall_mem_map.2 (h.claims claims hq))
  · exact .scalar rfl

theorem equiv_iff : a.equiv b = true ↔ a.id = b.id ∧ a.format = b.format ∧
    (Value.object a.metadata).equiv (.object b.metadata) = true ∧ equivClaims a.claims b.claims = true ∧
      a.multiple.equiv b.multiple = true := by
  simp [equiv, and_assoc]

section Parts

open Value

theorem sameIfAny_metadata_iff {m n : Fields} :
    SameIfAny (if m = [] then none else some (.object m)) (if n = [] then none else some (.object n)) ↔
      (Value.object m).equiv (.object n) = true := by
  cases m <;> cases n <;> simp [Value.equiv, Value.equivFields]

theorem sameIfAny_claims_iff {x y : Option (List Fields)} :
    SameIfAny (x.map (fun claims => .list (claims.map .object))) (y.map (fun claims => .list (claims.map .object))) ↔
      equivClaims x y = true := by
  cases x <;> cases y <;> simp [equivClaims, Value.equiv]

theorem equiv_bool_iff {x y : Bool} : (Value.bool x).equiv (.bool y) = true ↔ x = y := by
  cases x <;> cases y <;> decide

theorem sameIfAny_multiple_iff {x y : Bool} :
    SameIfAny (if (Value.bool x).isBlank then none else some (.bool true))
        (if (Value.bool y).isBlank then none else some (.bool true)) ↔ x = y := by
  cases x <;> cases y <;> simp [Value.isBlank, Scalar.isBlank, equiv_bool_iff]

end Parts

/-- Queries say the same when they are written as objects that do. -/
theorem IsTree.equiv_iff_toValue (ha : a.IsTree) (hb : b.IsTree) : a.equiv b = true ↔ a.toValue.equiv b.toValue = true := by
  obtain ⟨x, hx⟩ := ha.multiple
  obtain ⟨y, hy⟩ := hb.multiple
  rw [toValue, toValue, Value.equiv_object_iff_field? (distinct_toFields a) (distinct_toFields b) (named_toFields a)
    (named_toFields b), equiv_iff]
  rw [hx, hy, equiv_bool_iff]
  constructor
  · rintro ⟨hid, hformat, hmeta, hclaims, hmultiple⟩ name
    rw [field?_toFields, field?_toFields, hx, hy]
    split
    · simp [hid, Value.equiv]
    · split
      · simp [hformat, Value.equiv]
      · split
        · exact sameIfAny_metadata_iff.2 hmeta
        · split
          · exact sameIfAny_claims_iff.2 hclaims
          · split
            · exact sameIfAny_multiple_iff.2 hmultiple
            · exact .none
  · intro h
    have hid := h "id"
    have hformat := h "format"
    have hmeta := h "meta"
    have hclaims := h "claims"
    have hmultiple := h "multiple"
    simp only [field?_toFields, String.reduceEq, if_true, if_false] at hid hformat hmeta hclaims hmultiple
    rw [hx, hy] at hmultiple
    refine ⟨?_, ?_, sameIfAny_metadata_iff.1 hmeta, sameIfAny_claims_iff.1 hclaims, sameIfAny_multiple_iff.1 hmultiple⟩
    · exact Text.ofString_injective (by simpa [Value.equiv] using hid)
    · simpa [Value.equiv] using hformat

namespace IsTree

theorem equiv_refl (h : a.IsTree) : a.equiv a = true :=
  (h.equiv_iff_toValue h).2 (isTree_toValue h).equiv_refl

theorem equiv_symm (ha : a.IsTree) (hb : b.IsTree) (h : a.equiv b = true) : b.equiv a = true :=
  (hb.equiv_iff_toValue ha).2 ((isTree_toValue ha).equiv_symm (isTree_toValue hb) ((ha.equiv_iff_toValue hb).1 h))

theorem equiv_trans {c : CredentialQuery} (ha : a.IsTree) (hb : b.IsTree) (hc : c.IsTree) (hab : a.equiv b = true)
    (hbc : b.equiv c = true) : a.equiv c = true :=
  (ha.equiv_iff_toValue hc).2 ((isTree_toValue ha).equiv_trans (isTree_toValue hb) (isTree_toValue hc)
    ((ha.equiv_iff_toValue hb).1 hab) ((hb.equiv_iff_toValue hc).1 hbc))

/-- Queries that say the same do not differ in what the hash covers. -/
theorem parts_eq (ha : a.IsTree) (hb : b.IsTree) (h : a.equiv b = true) :
    a.id = b.id ∧ a.format = b.format ∧ a.multiple = b.multiple := by
  obtain ⟨x, hx⟩ := ha.multiple
  obtain ⟨y, hy⟩ := hb.multiple
  obtain ⟨hid, hformat, -, -, hmultiple⟩ := equiv_iff.1 h
  rw [hx, hy, equiv_bool_iff] at hmultiple
  exact ⟨hid, hformat, by rw [hx, hy, hmultiple]⟩

end IsTree

end CredentialQuery

/-! ### Sets of queries -/

theorem size_insert_insert_eq_one_iff {α : Type} [BEq α] [Hashable α] [EquivBEq α] [LawfulHashable α] {a b : α} :
    (((∅ : Std.HashSet α).insert a).insert b).size = 1 ↔ (a == b) = true := by
  rw [Std.HashSet.size_insert, Std.HashSet.size_insert]
  by_cases hab : (a == b) = true <;> simp [hab]

/-- A query of trees: what a set of queries is made of. -/
structure TreeQuery where
  query : CredentialQuery
  isTree : query.IsTree

namespace TreeQuery

/-- Members of a set are equal when they say the same. -/
instance : BEq TreeQuery := ⟨fun a b => a.query.equiv b.query⟩

instance : EquivBEq TreeQuery where
  rfl {a} := a.isTree.equiv_refl
  symm {a b} h := a.isTree.equiv_symm b.isTree h
  trans {a b c} hab hbc := a.isTree.equiv_trans b.isTree c.isTree hab hbc

/-- The hash of a query: one of its id, its format and its flag. -/
@[reducible]
def hashable (hash : String → Text → Value → UInt64) : Hashable TreeQuery :=
  ⟨fun q => hash q.query.id q.query.format q.query.multiple⟩

theorem lawfulHashable (hash : String → Text → Value → UInt64) : @LawfulHashable TreeQuery _ (hashable hash) := by
  let _ := hashable hash
  refine ⟨fun a b h => ?_⟩
  obtain ⟨hid, hformat, hmultiple⟩ := a.isTree.parts_eq b.isTree h
  show hash a.query.id a.query.format a.query.multiple = hash b.query.id b.query.format b.query.multiple
  rw [hid, hformat, hmultiple]

/-- The set of two queries, by a hash of their parts. -/
def pair (hash : String → Text → Value → UInt64) (a b : TreeQuery) : @Std.HashSet TreeQuery _ (hashable hash) :=
  let _ := hashable hash
  ((∅ : Std.HashSet TreeQuery).insert a).insert b

theorem size_pair_eq_one_iff (hash : String → Text → Value → UInt64) (a b : TreeQuery) :
    (pair hash a b).size = 1 ↔ a.query.equiv b.query = true := by
  let _ := hashable hash
  have _ := lawfulHashable hash
  exact size_insert_insert_eq_one_iff

end TreeQuery

/-! ### Consistency -/

theorem Value.equiv_bool_int (x : Bool) : (Value.bool x).equiv (.int (if x then 1 else 0)) = true := by
  cases x <;> decide

theorem Value.equiv_int_float (n : Int) : (Value.int n).equiv (.scalar (.float (.finite (.ofInt n)))) = true := by
  simp [Value.equiv, Scalar.equiv, Scalar.sense?]

/-- **Equality, hashes and the written form of queries are consistent.**  Among queries whose metadata and claims are trees
and whose flag is a boolean, saying the same is reflexive, symmetric and transitive.  A boolean says the same as zero or
one, and an integer as the number with a point; the order in which the fields of the metadata stand does not count; no
claims are not the same as a list of claims, not even as an empty one.  Queries that say the same have one hash, whatever
hash of id, format and flag is taken, so a set of two queries has one member exactly when they say the same; and this is
exactly when the objects that are written for them do. -/
theorem queries_equal_consistently (a b c : CredentialQuery) (ha : a.IsTree) (hb : b.IsTree) (hc : c.IsTree) :
    a.equiv a = true ∧ (a.equiv b = true → b.equiv a = true) ∧
      (a.equiv b = true → b.equiv c = true → a.equiv c = true) ∧
      (∀ x : Bool, (Value.bool x).equiv (.int (if x then 1 else 0)) = true) ∧
      (∀ n : Int, (Value.int n).equiv (.scalar (.float (.finite (.ofInt n)))) = true) ∧
      (∀ metadata, a.metadata.Perm metadata → a.equiv { a with metadata := metadata } = true) ∧
      (∀ claims, a.claims = none → b.claims = some claims → a.equiv b = false) ∧
      (a.equiv b = true → a.sharesBucket b = true) ∧
      (∀ hash : String → Text → Value → UInt64,
        (a.equiv b = true → hash a.id a.format a.multiple = hash b.id b.format b.multiple) ∧
          ((TreeQuery.pair hash ⟨a, ha⟩ ⟨b, hb⟩).size = 1 ↔ a.equiv b = true)) ∧
      (a.equiv b = true ↔ a.toValue.equiv b.toValue = true) := by
  refine ⟨ha.equiv_refl, ha.equiv_symm hb, ha.equiv_trans hb hc, Value.equiv_bool_int, Value.equiv_int_float, ?_, ?_, ?_,
    ?_, ha.equiv_iff_toValue hb⟩
  · intro metadata hperm
    obtain ⟨hid, hformat, -, hclaims, hmultiple⟩ := CredentialQuery.equiv_iff.1 ha.equiv_refl
    exact CredentialQuery.equiv_iff.2 ⟨hid, hformat, ha.metadata.equiv_of_perm hperm, hclaims, hmultiple⟩
  · intro claims hnone hsome
    simp [CredentialQuery.equiv, CredentialQuery.equivClaims, hnone, hsome]
  · intro h
    obtain ⟨hid, hformat, -, -, hmultiple⟩ := CredentialQuery.equiv_iff.1 h
    simp [CredentialQuery.sharesBucket, hid, hformat, hmultiple]
  · intro hash
    refine ⟨fun h => ?_, TreeQuery.size_pair_eq_one_iff hash ⟨a, ha⟩ ⟨b, hb⟩⟩
    obtain ⟨hid, hformat, hmultiple⟩ := ha.parts_eq hb h
    rw [hid, hformat, hmultiple]

/-- A query with one claim and some metadata. -/
def spelled (metadata : Fields) : CredentialQuery :=
  { id := "a", format := "f", metadata, claims := some [[(.text "path", .list [.text "p"])]] }

/-- The number one with a point. -/
def pointOne : Value := .scalar (.float (.finite 1))

theorem distinct_two {s t : Scalar} {v w : Value} (h : s.equiv t = false) : Fields.Distinct [(s, v), (t, w)] := by
  simpa [Fields.Distinct] using h

theorem isTree_spelled {metadata : Fields} (hjson : Value.FieldsJson metadata) (hdistinct : metadata.Distinct)
    (hwell : Value.FieldsWellFormed metadata) : (spelled metadata).IsTree where
  metadata := Value.IsJson.isTree hjson ⟨hdistinct, hwell⟩
  claims := by
    rintro claims hclaims c hc
    obtain rfl := Option.some.inj hclaims
    obtain rfl := List.mem_singleton.1 hc
    refine Value.IsJson.isTree ⟨⟨_, rfl⟩, ⟨trivial, trivial⟩, trivial⟩ ?_
    simp [Value.WellFormed, Value.FieldsWellFormed, Value.ItemsWellFormed]
  multiple := ⟨false, rfl⟩

/-- Metadata with `true`, with `1` and with `1.0`, in two orders: all three queries say the same. -/
theorem queries_equal_consistently_spelled :
    let a := spelled [(.text "x", .bool true), (.text "y", .list [pointOne])]
    let b := spelled [(.text "y", .list [.int 1]), (.text "x", .int 1)]
    let c := spelled [(.text "x", pointOne), (.text "y", .list [.bool true])]
    ∃ (ha : a.IsTree) (hb : b.IsTree), c.IsTree ∧ a.equiv b = true ∧ b.equiv c = true ∧ a.equiv c = true ∧
      a.toValue.equiv b.toValue = true ∧
      ∀ hash : String → Text → Value → UInt64, (TreeQuery.pair hash ⟨a, ha⟩ ⟨b, hb⟩).size = 1 := by
  intro a b c
  have hone : (Value.int 1).IsJson := by
    show (Scalar.int 1).isShowable = true
    decide +kernel
  have ha : a.IsTree := isTree_spelled ⟨⟨_, rfl⟩, trivial, ⟨_, rfl⟩, ⟨trivial, trivial⟩, trivial⟩ (distinct_two rfl)
    ⟨trivial, ⟨trivial, trivial⟩, trivial⟩
  have hb : b.IsTree := isTree_spelled ⟨⟨_, rfl⟩, ⟨hone, trivial⟩, ⟨_, rfl⟩, hone, trivial⟩ (distinct_two rfl)
    ⟨⟨trivial, trivial⟩, trivial, trivial⟩
  have hc : c.IsTree := isTree_spelled ⟨⟨_, rfl⟩, trivial, ⟨_, rfl⟩, ⟨trivial, trivial⟩, trivial⟩ (distinct_two rfl)
    ⟨trivial, ⟨trivial, trivial⟩, trivial⟩
  obtain ⟨-, -, htrans, -, -, -, -, -, hset, hwritten⟩ := queries_equal_consistently a b c ha hb hc
  have hab : a.equiv b = true := by decide
  have hbc : b.equiv c = true := by decide
  exact ⟨ha, hb, hc, hab, hbc, htrans hab hbc, hwritten.1 hab, fun hash => (hset hash).2.2 hab⟩

end Disclosure
