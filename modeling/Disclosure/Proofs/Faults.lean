import Disclosure.Proofs.Acceptance

/-!
# Disclosure.Proofs.Faults — what is wrong with an entry, an option or a set

Entries of the catalogue, options and sets that are refused are refused for one fault, which is determined by the data:
the fields of an entry are looked at one after the other, among faults of one kind the first place counts, and options
come before the flag.  The relations below say which fault that is without the readers that look for it.

* `Grammar.QueryFault`, `Grammar.OptionFault`, `Grammar.SetFault`: what is wrong with an entry, an option, and a set.
* `CredentialQuery.ofValue_eq_error_iff`, `Combination.ofValue_eq_error_iff`, `CredentialSet.ofValue_eq_error_iff`: the
  readers report exactly that.
-/

namespace Disclosure

namespace Grammar

/-- What is wrong with the fields of an entry: its id, else its format, else its metadata, else its claims, else its
flag. -/
inductive QueryFieldFault (place : Place) (fields : Fields) : RequestError → Prop
  | notAnId (empty : ∀ t, fields.get "id" = .text t → t = []) : QueryFieldFault place fields (.notAnId (place.field "id"))
  | outsideAlphabet {t : Text} (text : fields.get "id" = .text t) (nonempty : t ≠ []) (other : ¬ IsId (.text t)) :
    QueryFieldFault place fields (.outsideAlphabet (place.field "id") t)
  | noFormat (id : IsId (fields.get "id")) (empty : ∀ t, fields.get "format" = .text t → t = []) :
    QueryFieldFault place fields (.noText (place.field "format"))
  | metadata (id : IsId (fields.get "id")) (format : ∃ t, t ≠ [] ∧ fields.get "format" = .text t)
    (given : (fields.get "meta").untie ≠ .null) (other : ∀ metadata, (fields.get "meta").untie ≠ .object metadata) :
    QueryFieldFault place fields (.notAnObject (place.field "meta"))
  | noClaims (id : IsId (fields.get "id")) (format : ∃ t, t ≠ [] ∧ fields.get "format" = .text t)
    (metadata : (fields.get "meta").untie = .null ∨ ∃ metadata, (fields.get "meta").untie = .object metadata)
    (given : (fields.get "claims").untie ≠ .null)
    (empty : ∀ claims, (fields.get "claims").untie = .list claims → claims = []) :
    QueryFieldFault place fields (.noItems (place.field "claims"))
  | claim {claims : List Value} (id : IsId (fields.get "id")) (format : ∃ t, t ≠ [] ∧ fields.get "format" = .text t)
    (metadata : (fields.get "meta").untie = .null ∨ ∃ metadata, (fields.get "meta").untie = .object metadata)
    (list : (fields.get "claims").untie = .list claims) (bad : ∃ c ∈ claims, ¬ c.ObjectWith (fun _ => True)) :
    QueryFieldFault place fields (.claimNotAnObject (place.field "claims"))
  | flag {w : Value} (id : IsId (fields.get "id")) (format : ∃ t, t ≠ [] ∧ fields.get "format" = .text t)
    (metadata : (fields.get "meta").untie = .null ∨ ∃ metadata, (fields.get "meta").untie = .object metadata)
    (claims : (fields.get "claims").untie = .null ∨ IsClaims (fields.get "claims"))
    (given : fields.field? "multiple" = some w) (other : ∀ b, w ≠ .bool b) :
    QueryFieldFault place fields (.notABoolean (place.field "multiple"))

/-- What is wrong with an entry: it is no object, or something is wrong with its fields. -/
inductive QueryFault (place : Place) (v : Value) : RequestError → Prop
  | notAnObject (other : ∀ fields, v.untie ≠ .object fields) : QueryFault place v (.notAnObject place)
  | field {fields : Fields} {e : RequestError} (object : v.untie = .object fields)
    (fault : QueryFieldFault place fields e) : QueryFault place v e

/-- What is wrong with an option: it is no list with items, or it has a first item that is no id. -/
inductive OptionFault (place : Place) (v : Value) : RequestError → Prop
  | noIds (empty : ∀ ids, v.untie = .list ids → ids = []) : OptionFault place v (.noIds place)
  | notAnId {ids : List Value} {i : Nat} {w : Value} (list : v.untie = .list ids) (first : FirstWithout IsId ids i w)
    (empty : ∀ t, w = .text t → t = []) : OptionFault place v (.notAnId place)
  | outsideAlphabet {ids : List Value} {i : Nat} {t : Text} (list : v.untie = .list ids)
    (first : FirstWithout IsId ids i (.text t)) (nonempty : t ≠ []) : OptionFault place v (.outsideAlphabet place t)

/-- What is wrong with a set: it is no object, its options are no list with items, its first bad option, or, when all
options are good, its flag. -/
inductive SetFault (place : Place) (v : Value) : RequestError → Prop
  | notAnObject (other : ∀ fields, v.untie ≠ .object fields) : SetFault place v (.notAnObject place)
  | noOptions {fields : Fields} (object : v.untie = .object fields)
    (empty : ∀ options, (fields.get "options").untie = .list options → options = []) :
    SetFault place v (.noItems (place.field "options"))
  | option {fields : Fields} {options : List Value} {i : Nat} {o : Value} {e : RequestError}
    (object : v.untie = .object fields) (list : (fields.get "options").untie = .list options)
    (first : FirstWithout IsOption options i o) (fault : OptionFault ((place.field "options").item i) o e) :
    SetFault place v e
  | flag {fields : Fields} {options : List Value} (object : v.untie = .object fields)
    (list : (fields.get "options").untie = .list options) (nonempty : options ≠ []) (good : ∀ o ∈ options, IsOption o)
    (given : fields.get "required" ≠ .null) (other : ∀ b, fields.get "required" ≠ .bool b) :
    SetFault place v (.notABoolean (place.field "required"))

end Grammar

open Grammar

/-! ### Ids -/

theorem QueryId.exists_ofValue_iff {v : Value} {place : Place} : (∃ id, ofValue v place = .ok id) ↔ IsId v := by
  rw [← exists_denotes_iff]
  exact exists_congr (fun id => ofValue_eq_ok_iff)

/-- What is no id is refused as no text, or for a character of it. -/
theorem QueryId.ofValue_eq_error_iff {v : Value} {place : Place} {e : RequestError} (h : ¬ IsId v) :
    ofValue v place = .error e ↔
      ((∀ t, v = .text t → t = []) ∧ e = .notAnId place) ∨ ∃ t, v = .text t ∧ t ≠ [] ∧ e = .outsideAlphabet place t := by
  have hno : ∀ id, ofValue v place ≠ .ok id := fun id hid => h (exists_ofValue_iff.1 ⟨id, hid⟩)
  unfold ofValue at hno ⊢
  cases hv : v.nonemptyText? with
  | none =>
    have hempty : ∀ t, v = .text t → t = [] := by
      intro t ht
      by_contra hne
      rw [Value.nonemptyText?_eq_some_iff.2 ⟨ht, hne⟩] at hv
      cases hv
    have hright : ¬ ∃ t, v = .text t ∧ t ≠ [] ∧ e = .outsideAlphabet place t :=
      fun ⟨t, ht, hne, _⟩ => hne (hempty t ht)
    simp only [Except.error.injEq, hright, or_false, eq_comm (a := RequestError.notAnId place)]
    exact ⟨fun he => ⟨hempty, he⟩, And.right⟩
  | some t =>
    obtain ⟨rfl, hne⟩ := Value.nonemptyText?_eq_some_iff.1 hv
    simp only [hv] at hno ⊢
    cases hid : ofText? t with
    | some id => exact absurd rfl (hid ▸ hno id)
    | none =>
      simp only [Except.error.injEq, Value.scalar.injEq, Scalar.text.injEq, forall_eq', hne, false_and, false_or,
        exists_eq_left', ne_eq, not_false_eq_true, true_and, eq_comm (a := RequestError.outsideAlphabet place t)]

/-! ### Entries of the catalogue -/

namespace CredentialQuery

variable {v : Value} {fields : Fields} {place : Place} {e : RequestError}

theorem readFormat_eq_error_iff :
    readFormat fields place = .error e ↔
      (∀ t, fields.get "format" = .text t → t = []) ∧ e = .noText (place.field "format") := by
  have hsome : ∀ t, (fields.get "format").nonemptyText? = some t ↔ fields.get "format" = .text t ∧ t ≠ [] :=
    fun _ => Value.nonemptyText?_eq_some_iff
  unfold readFormat
  cases hv : (fields.get "format").nonemptyText? with
  | none =>
    have hempty : ∀ t, fields.get "format" = .text t → t = [] := by
      intro t ht
      by_contra hne
      exact absurd (hv.symm.trans ((hsome t).2 ⟨ht, hne⟩)) (by simp)
    simp only [Except.error.injEq, eq_comm (a := e)]
    exact ⟨fun he => ⟨hempty, he⟩, And.right⟩
  | some t =>
    obtain ⟨ht, hne⟩ := (hsome t).1 hv
    simp only [reduceCtorEq, false_iff, not_and]
    exact fun hempty => absurd (hempty t ht) hne

theorem readMetadata_eq_error_iff :
    readMetadata fields place = .error e ↔
      ((fields.get "meta").untie ≠ .null ∧ ∀ metadata, (fields.get "meta").untie ≠ .object metadata) ∧
        e = .notAnObject (place.field "meta") := by
  unfold readMetadata
  split
  · rename_i h
    simp [h]
  · rename_i metadata h
    simp [h]
  · rename_i hnull hobject
    simp only [Except.error.injEq, eq_comm (a := e)]
    exact ⟨fun he => ⟨⟨hnull, hobject⟩, he⟩, And.right⟩

theorem readClaims_eq_error_iff :
    readClaims fields place = .error e ↔
      ((fields.get "claims").untie ≠ .null ∧ ∀ claims, (fields.get "claims").untie = .list claims → claims = []) ∧
          e = .noItems (place.field "claims") ∨
        ∃ claims, (fields.get "claims").untie = .list claims ∧ (∃ c ∈ claims, ¬ c.ObjectWith (fun _ => True)) ∧
          e = .claimNotAnObject (place.field "claims") := by
  unfold readClaims
  split
  · rename_i h
    simp [h]
  · rename_i c rest h
    have hobjects : (∃ claims, (c :: rest).mapM Value.fields? = some claims) ↔
        ∀ d ∈ c :: rest, d.ObjectWith (fun _ => True) := by
      simp only [mapM_eq_some_iff, exists_forall₂_iff, Value.fields?_eq_some_iff, Value.ObjectWith, and_true]
    cases hread : (c :: rest).mapM Value.fields? with
    | none =>
      rw [hread] at hobjects
      have hbad : ∃ d ∈ c :: rest, ¬ d.ObjectWith (fun _ => True) := by
        by_contra hall
        push Not at hall
        exact absurd (hobjects.2 hall) (by simp)
      simp only [h, Except.error.injEq, eq_comm (a := e), Value.list.injEq, forall_eq', reduceCtorEq, and_false, false_and,
        false_or, exists_eq_left', hbad, true_and]
    | some claims =>
      have hgood := hobjects.1 ⟨claims, hread⟩
      simp only [h, reduceCtorEq, Value.list.injEq, forall_eq', and_false, false_and, exists_eq_left', false_or, false_iff,
        not_and]
      exact fun ⟨d, hd, hbad⟩ => absurd (hgood d hd) hbad
  · rename_i hnull hlist
    have hempty : ∀ claims, (fields.get "claims").untie = .list claims → claims = [] := by
      intro claims hclaims
      cases claims with
      | nil => rfl
      | cons c rest => exact absurd hclaims (hlist c rest)
    have hright : ¬ ∃ claims, (fields.get "claims").untie = .list claims ∧
        (∃ c ∈ claims, ¬ c.ObjectWith (fun _ => True)) ∧ e = .claimNotAnObject (place.field "claims") := by
      rintro ⟨claims, hclaims, ⟨c, hc, -⟩, -⟩
      rw [hempty claims hclaims] at hc
      simp at hc
    rw [or_iff_left hright, Except.error.injEq, eq_comm (a := e)]
    exact ⟨fun he => ⟨⟨hnull, hempty⟩, he⟩, And.right⟩

theorem readMultiple_eq_error_iff :
    readMultiple fields place = .error e ↔
      (∃ w, fields.field? "multiple" = some w ∧ ∀ b, w ≠ .bool b) ∧ e = .notABoolean (place.field "multiple") := by
  unfold readMultiple
  split
  · rename_i h
    simp [h]
  · rename_i b h
    simp [h]
  · rename_i w hbool h
    simp only [h, Option.some.injEq, exists_eq_left', Except.error.injEq, eq_comm (a := e)]
    exact ⟨fun he => ⟨hbool, he⟩, And.right⟩

theorem exists_readFormat_iff : (∃ t, readFormat fields place = .ok t) ↔ ∃ t, t ≠ [] ∧ fields.get "format" = .text t :=
  exists_congr (fun _ => readFormat_eq_ok_iff)

theorem exists_readMetadata_iff :
    (∃ metadata, readMetadata fields place = .ok metadata) ↔
      (fields.get "meta").untie = .null ∨ ∃ metadata, (fields.get "meta").untie = .object metadata := by
  simp only [readMetadata_eq_ok_iff, exists_or, exists_and_left, exists_eq, and_true]

theorem exists_readClaims_iff :
    (∃ claims, readClaims fields place = .ok claims) ↔
      (fields.get "claims").untie = .null ∨ IsClaims (fields.get "claims") := by
  simp only [readClaims_eq_ok_iff, exists_denotesClaims_iff]

/-- The fields are read one after the other, up to the first that is refused. -/
theorem ofFields_eq_error_iff : ofFields fields place = .error e ↔ QueryFieldFault place fields e := by
  have hfirst : ofFields fields place = .error e ↔
      QueryId.ofValue (fields.get "id") (place.field "id") = .error e ∨
        (∃ id, QueryId.ofValue (fields.get "id") (place.field "id") = .ok id) ∧
          (readFormat fields place = .error e ∨ (∃ t, readFormat fields place = .ok t) ∧
            (readMetadata fields place = .error e ∨ (∃ metadata, readMetadata fields place = .ok metadata) ∧
              (readClaims fields place = .error e ∨ (∃ claims, readClaims fields place = .ok claims) ∧
                readMultiple fields place = .error e))) := by
    simp only [ofFields, bind_eq_error_iff, pure, Except.pure, reduceCtorEq, and_false, exists_false, or_false,
      exists_and_right]
  rw [hfirst, QueryId.exists_ofValue_iff, exists_readFormat_iff, exists_readMetadata_iff, exists_readClaims_iff,
    readFormat_eq_error_iff, readMetadata_eq_error_iff, readClaims_eq_error_iff, readMultiple_eq_error_iff]
  constructor
  · rintro (hid | ⟨hid, ⟨hempty, rfl⟩ | ⟨hformat, ⟨⟨hgiven, hother⟩, rfl⟩ | ⟨hmetadata,
      (⟨⟨hgiven, hempty⟩, rfl⟩ | ⟨claims, hlist, hbad, rfl⟩) | ⟨hclaims, ⟨w, hgiven, hother⟩, rfl⟩⟩⟩⟩)
    · by_cases hgood : IsId (fields.get "id")
      · obtain ⟨id, hok⟩ : ∃ id, QueryId.ofValue (fields.get "id") (place.field "id") = .ok id :=
          QueryId.exists_ofValue_iff.2 hgood
        exact absurd (hok.symm.trans hid) (by simp)
      · rcases (QueryId.ofValue_eq_error_iff hgood).1 hid with ⟨hempty, rfl⟩ | ⟨t, ht, hne, rfl⟩
        · exact .notAnId hempty
        · exact .outsideAlphabet ht hne (ht ▸ hgood)
    · exact .noFormat hid hempty
    · exact .metadata hid hformat hgiven hother
    · exact .noClaims hid hformat hmetadata hgiven hempty
    · exact .claim hid hformat hmetadata hlist hbad
    · exact .flag hid hformat hmetadata hclaims hgiven hother
  · rintro (hempty | ⟨ht, hne, hother⟩ | ⟨hid, hempty⟩ | ⟨hid, hformat, hgiven, hother⟩ |
      ⟨hid, hformat, hmetadata, hgiven, hempty⟩ | ⟨hid, hformat, hmetadata, hlist, hbad⟩ |
      ⟨hid, hformat, hmetadata, hclaims, hgiven, hother⟩)
    · have hgood : ¬ IsId (fields.get "id") := by
        intro h
        obtain ⟨id, hid, htext⟩ := QueryId.exists_denotes_iff.2 h
        exact QueryId.ofString_ne_nil hid (hempty _ htext)
      exact Or.inl ((QueryId.ofValue_eq_error_iff hgood).2 (Or.inl ⟨hempty, rfl⟩))
    · exact Or.inl ((QueryId.ofValue_eq_error_iff (ht ▸ hother)).2 (Or.inr ⟨_, ht, hne, rfl⟩))
    · exact Or.inr ⟨hid, Or.inl ⟨hempty, rfl⟩⟩
    · exact Or.inr ⟨hid, Or.inr ⟨hformat, Or.inl ⟨⟨hgiven, hother⟩, rfl⟩⟩⟩
    · exact Or.inr ⟨hid, Or.inr ⟨hformat, Or.inr ⟨hmetadata, Or.inl (Or.inl ⟨⟨hgiven, hempty⟩, rfl⟩)⟩⟩⟩
    · exact Or.inr ⟨hid, Or.inr ⟨hformat, Or.inr ⟨hmetadata, Or.inl (Or.inr ⟨_, hlist, hbad, rfl⟩)⟩⟩⟩
    · exact Or.inr ⟨hid, Or.inr ⟨hformat, Or.inr ⟨hmetadata, Or.inr ⟨hclaims, ⟨_, hgiven, hother⟩, rfl⟩⟩⟩⟩

/-- An entry is refused for what is wrong with it. -/
theorem ofValue_eq_error_iff : ofValue v place = .error e ↔ QueryFault place v e := by
  unfold ofValue
  split
  · rename_i fields hobject
    rw [ofFields_eq_error_iff]
    constructor
    · exact .field hobject
    · rintro (hother | ⟨hobject', hfault⟩)
      · exact absurd hobject (hother fields)
      · obtain rfl := Value.object.inj (hobject.symm.trans hobject')
        exact hfault
  · rename_i hother
    constructor
    · rintro ⟨⟩
      exact .notAnObject hother
    · rintro (_ | ⟨hobject, -⟩)
      · rfl
      · exact absurd hobject (hother _)

end CredentialQuery

/-! ### Options of a set -/

namespace Combination

variable {v : Value} {place : Place} {e : RequestError}

theorem exists_ofValue_iff : (∃ o, ofValue v place = .ok o) ↔ IsOption v := by
  rw [← exists_denotes_iff]
  exact exists_congr (fun o => ofValue_eq_ok_iff)

/-- An option is refused for what is wrong with it. -/
theorem ofValue_eq_error_iff : ofValue v place = .error e ↔ OptionFault place v e := by
  unfold ofValue
  split
  · rename_i item rest hlist
    have hread : ∀ (_ : Nat) w, (∃ id, QueryId.ofValue w place = .ok id) ↔ IsId w :=
      fun _ _ => QueryId.exists_ofValue_iff
    -- a list that was read has items, so the combination is never empty
    have hnonempty : ∀ ids, readEach (fun _ w => QueryId.ofValue w place) 0 (item :: rest) = .ok ids →
        ofIds ids ≠ .error e := by
      intro ids hids hempty
      obtain ⟨id, later, -, -, rfl⟩ := readEach_cons_eq_ok_iff.1 hids
      simp [ofIds] at hempty
    have hids : ∀ ids, v.untie = .list ids ↔ ids = item :: rest := by
      intro ids
      simp [hlist, eq_comm]
    rw [bind_eq_error_iff, readEach_eq_error_iff hread]
    constructor
    · rintro (⟨i, w, hfirst, he⟩ | ⟨ids, hids, he⟩)
      · rcases (QueryId.ofValue_eq_error_iff hfirst.2.1).1 he with ⟨hempty, rfl⟩ | ⟨t, rfl, hne, rfl⟩
        · exact .notAnId hlist hfirst hempty
        · exact .outsideAlphabet hlist hfirst hne
      · exact absurd he (hnonempty ids hids)
    · rintro (hempty | ⟨hlist', hfirst, hempty⟩ | ⟨hlist', hfirst, hne⟩)
      · exact absurd (hempty _ hlist) (by simp)
      · obtain rfl := (hids _).1 hlist'
        exact Or.inl ⟨_, _, hfirst, (QueryId.ofValue_eq_error_iff hfirst.2.1).2 (Or.inl ⟨hempty, rfl⟩)⟩
      · obtain rfl := (hids _).1 hlist'
        exact Or.inl ⟨_, _, hfirst, (QueryId.ofValue_eq_error_iff hfirst.2.1).2 (Or.inr ⟨_, rfl, hne, rfl⟩)⟩
  · rename_i hother
    have hempty : ∀ ids, v.untie = .list ids → ids = [] := by
      intro ids hids
      cases ids with
      | nil => rfl
      | cons item rest => exact absurd hids (hother item rest)
    constructor
    · rintro ⟨⟩
      exact .noIds hempty
    · rintro (_ | ⟨hlist, hfirst, -⟩ | ⟨hlist, hfirst, -⟩)
      · rfl
      · rw [hempty _ hlist] at hfirst
        simp [FirstWithout] at hfirst
      · rw [hempty _ hlist] at hfirst
        simp [FirstWithout] at hfirst

end Combination

/-! ### Sets -/

namespace CredentialSet

variable {v : Value} {fields : Fields} {place : Place} {e : RequestError}

theorem exists_ofValue_iff : (∃ s, ofValue v place = .ok s) ↔ v.ObjectWith IsSet := by
  simp only [ofValue_eq_ok_iff]
  exact exists_objectWith_iff (fun _ => exists_denotes_iff)

theorem readOptions_eq_error_iff :
    readOptions fields place = .error e ↔
      ((∀ options, (fields.get "options").untie = .list options → options = []) ∧
        e = .noItems (place.field "options")) ∨
      ∃ options i o, (fields.get "options").untie = .list options ∧ FirstWithout IsOption options i o ∧
        OptionFault ((place.field "options").item i) o e := by
  unfold readOptions
  split
  · rename_i item rest hlist
    have hread : ∀ i w, (∃ o, Combination.ofValue w ((place.field "options").item i) = .ok o) ↔ IsOption w :=
      fun _ _ => Combination.exists_ofValue_iff
    simp only [readEach_eq_error_iff hread, Combination.ofValue_eq_error_iff, Nat.zero_add, hlist, Value.list.injEq,
      forall_eq', reduceCtorEq, false_and, false_or, exists_and_left, exists_eq_left']
  · rename_i hother
    have hempty : ∀ options, (fields.get "options").untie = .list options → options = [] := by
      intro options hoptions
      cases options with
      | nil => rfl
      | cons item rest => exact absurd hoptions (hother item rest)
    have hright : ¬ ∃ options i o, (fields.get "options").untie = .list options ∧ FirstWithout IsOption options i o ∧
        OptionFault ((place.field "options").item i) o e := by
      rintro ⟨options, i, o, hlist, hfirst, -⟩
      rw [hempty options hlist] at hfirst
      simp [FirstWithout] at hfirst
    simp only [hright, or_false, Except.error.injEq, eq_comm (a := e)]
    exact ⟨fun he => ⟨hempty, he⟩, And.right⟩

theorem readRequired_eq_error_iff :
    readRequired fields place = .error e ↔
      (fields.get "required" ≠ .null ∧ ∀ b, fields.get "required" ≠ .bool b) ∧ e = .notABoolean (place.field "required") := by
  unfold readRequired
  split
  · rename_i h
    simp [h]
  · rename_i b h
    simp [h]
  · rename_i hnull hbool
    simp only [Except.error.injEq, eq_comm (a := e)]
    exact ⟨fun he => ⟨⟨hnull, hbool⟩, he⟩, And.right⟩

/-- A set with options and a boolean flag can always be made. -/
theorem ofOptions_bool_ne_error {options : List Combination} {b : Bool} {purpose : Value} (h : options ≠ []) :
    ofOptions options (.bool b) purpose ≠ .error e := by
  unfold ofOptions
  rw [dif_neg h]
  simp [readFlag, bind, Except.bind, pure, Except.pure]

theorem ofFields_eq_error_iff :
    ofFields fields place = .error e ↔
      readOptions fields place = .error e ∨
        (∃ options, readOptions fields place = .ok options) ∧ readRequired fields place = .error e := by
  simp only [ofFields, bind_eq_error_iff]
  refine or_congr_right ?_
  constructor
  · rintro ⟨options, hoptions, hrequired | ⟨b, -, hmade⟩⟩
    · exact ⟨⟨options, hoptions⟩, hrequired⟩
    · exact absurd hmade (ofOptions_bool_ne_error (readOptions_eq_ok_iff.1 hoptions).1)
  · rintro ⟨⟨options, hoptions⟩, hrequired⟩
    exact ⟨options, hoptions, Or.inl hrequired⟩

/-- A set is refused for what is wrong with it. -/
theorem ofValue_eq_error_iff : ofValue v place = .error e ↔ SetFault place v e := by
  unfold ofValue
  split
  · rename_i fields hobject
    have hfields : ∀ own, v.untie = .object own ↔ own = fields := by
      intro own
      simp [hobject, eq_comm]
    rw [ofFields_eq_error_iff, readOptions_eq_error_iff, readRequired_eq_error_iff]
    constructor
    · rintro ((⟨hempty, rfl⟩ | ⟨options, i, o, hlist, hfirst, hfault⟩) | ⟨⟨options, hoptions⟩, ⟨hgiven, hother⟩, rfl⟩)
      · exact .noOptions hobject hempty
      · exact .option hobject hlist hfirst hfault
      · obtain ⟨hne, items, hlist, hdenotes⟩ := readOptions_eq_ok_iff.1 hoptions
        refine .flag hobject hlist ((ne_nil_iff_of_forall₂ hdenotes).2 hne) ?_ hgiven hother
        intro o ho
        exact Combination.exists_denotes_iff.1 (exists_forall₂_iff.1 ⟨options, hdenotes⟩ o ho)
    · rintro (hother | ⟨hobject', hempty⟩ | ⟨hobject', hlist, hfirst, hfault⟩ |
        ⟨hobject', hlist, hne, hgood, hgiven, hother⟩)
      · exact absurd hobject (hother fields)
      · obtain rfl := (hfields _).1 hobject'
        exact Or.inl (Or.inl ⟨hempty, rfl⟩)
      · obtain rfl := (hfields _).1 hobject'
        exact Or.inl (Or.inr ⟨_, _, _, hlist, hfirst, hfault⟩)
      · obtain rfl := (hfields _).1 hobject'
        obtain ⟨options, hdenotes⟩ :=
          exists_forall₂_iff.2 (fun o ho => Combination.exists_denotes_iff.2 (hgood o ho))
        have hread : readOptions _ place = .ok options :=
          readOptions_eq_ok_iff.2 ⟨(ne_nil_iff_of_forall₂ hdenotes).1 hne, _, hlist, hdenotes⟩
        exact Or.inr ⟨⟨options, hread⟩, ⟨hgiven, hother⟩, rfl⟩
  · rename_i hother
    constructor
    · rintro ⟨⟩
      exact .notAnObject hother
    · rintro (_ | ⟨hobject, -⟩ | ⟨hobject, -, -, -⟩ | ⟨hobject, -, -, -, -, -⟩)
      · rfl
      · exact absurd hobject (hother _)
      · exact absurd hobject (hother _)
      · exact absurd hobject (hother _)

end CredentialSet

end Disclosure
