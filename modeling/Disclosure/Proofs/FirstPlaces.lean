import Disclosure.Proofs.Acceptance

/-!
# Disclosure.Proofs.FirstPlaces — the first repeated id and the first unknown reference

Ids that repeat and references to ids that no entry carries are looked for in the queries and sets that have been read.
Reading keeps the places, so what is found there first stands first in the data too.

* `Grammar.FirstRepeat`, `Grammar.FirstUnknown`: the first place of each kind, in the data.
* `Catalogue.ofValue_eq_error_iff`: a catalogue is refused for its first bad entry, else for its first repeated id.
* `firstUnknown?_eq_some_iff_of_denotes`: the reference that is reported is the first one in the data.
-/

namespace Disclosure

namespace Grammar

/-- What stands at this place is the first thing in the list that stands there earlier as well. -/
def FirstRepeat {α : Type} (as : List α) (i : Nat) (a : α) : Prop :=
  as[i]? = some a ∧ a ∈ as.take i ∧ ∀ j < i, ∀ b, as[j]? = some b → b ∉ as.take j

/-- In the data of a grouping this stands at place `k` of option `j` of set `i`. -/
def NamedAt (sets : List Value) (i j k : Nat) (id : Value) : Prop :=
  ∃ s o, sets[i]? = some s ∧ (s.member "options").items[j]? = some o ∧ o.items[k]? = some id

/-- One place in the options of the sets comes before another: by set, then option, then position. -/
def Earlier (i j k i' j' k' : Nat) : Prop := i < i' ∨ i = i' ∧ (j < j' ∨ j = j' ∧ k < k')

/-- The sets name an id that no entry carries, and this is the first place where they do. -/
def FirstUnknown (entries sets : List Value) (r : Reference) : Prop :=
  ∃ k, NamedAt sets r.set r.option k (.text r.id) ∧ (∀ e ∈ entries, e.member "id" ≠ .text r.id) ∧
    ∀ i j l id, Earlier i j l r.set r.option k → NamedAt sets i j l id → ∃ e ∈ entries, e.member "id" = id

end Grammar

open Grammar

/-! ### Catalogue -/

theorem firstRepeat_iff_of_injective {α β : Type} {f : α → β} (hf : Function.Injective f) {as : List α} {i : Nat}
    {a : α} : FirstRepeat (as.map f) i (f a) ↔ FirstRepeat as i a := by
  have hmem : ∀ (j : Nat) (b : α), f b ∈ (as.map f).take j ↔ b ∈ as.take j := by
    intro j b
    rw [← List.map_take, List.mem_map_of_injective hf]
  have hat : ∀ (j : Nat) (b : α), (as.map f)[j]? = some (f b) ↔ as[j]? = some b := by
    intro j b
    rw [List.getElem?_map, ← Option.map_some, (Option.map_injective hf).eq_iff]
  unfold FirstRepeat
  rw [hat, hmem]
  refine and_congr_right (fun _ => and_congr_right (fun _ => forall₂_congr (fun j _ => ?_)))
  constructor
  · intro h b hb hmemb
    exact h (f b) ((hat j b).2 hb) ((hmem j b).2 hmemb)
  · intro h c hc
    rw [List.getElem?_map, Option.map_eq_some_iff] at hc
    obtain ⟨b, hb, rfl⟩ := hc
    rw [hmem]
    exact h b hb

/-- The id that is named is the first in the list that stands in `seen` or earlier in the list. -/
theorem firstRepeat?_eq_some_iff {seen ids : List String} {id : String} :
    firstRepeat? seen ids = some id ↔
      ∃ i, ids[i]? = some id ∧ (id ∈ seen ∨ id ∈ ids.take i) ∧
        ∀ j < i, ∀ b, ids[j]? = some b → ¬ (b ∈ seen ∨ b ∈ ids.take j) := by
  induction ids generalizing seen with
  | nil => simp [firstRepeat?]
  | cons x rest ih =>
    -- the head of the list counts as seen for what comes after it
    have hshift : ∀ (i : Nat) (b : String),
        (b ∈ x :: seen ∨ b ∈ rest.take i) ↔ (b ∈ seen ∨ b ∈ (x :: rest).take (i + 1)) := by
      intro i b
      rw [List.take_succ_cons, List.mem_cons, List.mem_cons, or_left_comm, or_assoc]
    rw [firstRepeat?]
    split
    · rename_i hx
      rw [Option.some.injEq]
      constructor
      · rintro rfl
        exact ⟨0, rfl, Or.inl hx, by simp⟩
      · rintro ⟨i, hi, -, hbefore⟩
        cases i with
        | zero => exact Option.some.inj hi
        | succ i => exact absurd (Or.inl hx) (hbefore 0 (by omega) x rfl)
    · rename_i hx
      rw [ih]
      constructor
      · rintro ⟨i, hi, hmem, hbefore⟩
        refine ⟨i + 1, hi, (hshift i id).1 hmem, ?_⟩
        intro j hj b hb
        cases j with
        | zero =>
          obtain rfl := Option.some.inj hb
          simpa using hx
        | succ j =>
          rw [← hshift]
          exact hbefore j (by omega) b hb
      · rintro ⟨i, hi, hmem, hbefore⟩
        cases i with
        | zero =>
          obtain rfl := Option.some.inj hi
          exact absurd (hmem.resolve_right (by simp)) hx
        | succ i =>
          refine ⟨i, hi, (hshift i id).2 hmem, ?_⟩
          intro j hj b hb
          rw [hshift]
          exact hbefore (j + 1) (by omega) b hb

namespace Catalogue

variable {v : Value} {entries : List Value} {e : RequestError}

theorem ofList_eq_error_iff {queries : List CredentialQuery} :
    ofList queries = .error e ↔ ∃ i id, FirstRepeat (queries.map CredentialQuery.id) i id ∧ e = .repeatedId id := by
  have hfirst : ∀ id, firstRepeat? [] (queries.map CredentialQuery.id) = some id ↔
      ∃ i, FirstRepeat (queries.map CredentialQuery.id) i id := by
    intro id
    rw [firstRepeat?_eq_some_iff]
    simp only [List.not_mem_nil, false_or, FirstRepeat]
  rw [exists_comm]
  simp only [exists_and_right, ← hfirst]
  unfold ofList
  split
  · rename_i id h
    simp [h, eq_comm]
  · rename_i h
    simp [h]

/-- A list of entries is refused for its first entry that is no query, or else for the first id that repeats an earlier
one. -/
theorem ofValue_eq_error_iff (hlist : v.untie = .list entries) (hne : entries ≠ []) :
    ofValue v = .error e ↔
      (∃ i w, FirstWithout (·.ObjectWith IsQuery) entries i w ∧
        CredentialQuery.ofValue w ((Place.top "credentials").item i) = .error e) ∨
      (∀ w ∈ entries, w.ObjectWith IsQuery) ∧
        ∃ i id, FirstRepeat (entries.map (·.member "id")) i (.text id) ∧ e = .repeatedId id := by
  obtain ⟨item, rest, rfl⟩ := List.exists_cons_of_ne_nil hne
  have hdenotes : ∀ i w q, CredentialQuery.ofValue w ((Place.top "credentials").item i) = .ok q ↔
      w.ObjectWith (fun fields => CredentialQuery.Denotes fields q) :=
    fun _ _ _ => CredentialQuery.ofValue_eq_ok_iff
  have hread : ∀ i w, (∃ q, CredentialQuery.ofValue w ((Place.top "credentials").item i) = .ok q) ↔
      w.ObjectWith IsQuery := by
    intro i w
    simp only [hdenotes]
    exact exists_objectWith_iff (fun _ => CredentialQuery.exists_denotes_iff)
  simp only [ofValue, hlist, bind_eq_error_iff, readEach_eq_error_iff hread, readEach_eq_ok_iff hdenotes, Nat.zero_add]
  refine or_congr_right ?_
  -- the ids of the queries stand in the entries
  have hids : ∀ {queries : List CredentialQuery} {i : Nat} {id : String},
      List.Forall₂ (fun w q => w.ObjectWith (fun fields => CredentialQuery.Denotes fields q)) (item :: rest) queries →
      (FirstRepeat (queries.map CredentialQuery.id) i id ↔
        FirstRepeat ((item :: rest).map (·.member "id")) i (.text id)) := by
    intro queries i id hf
    have hmap : queries.map (fun q => Value.text q.id) =
        (queries.map CredentialQuery.id).map (fun (id : String) => Value.text id) := by
      rw [List.map_map]
      rfl
    rw [ids_of_forall₂ hf, hmap]
    exact (firstRepeat_iff_of_injective text_injective).symm
  constructor
  · rintro ⟨queries, hf, he⟩
    obtain ⟨i, id, hrepeat, rfl⟩ := ofList_eq_error_iff.1 he
    exact ⟨CredentialQuery.exists_forall₂_denotes_iff.1 ⟨queries, hf⟩, i, id, (hids hf).1 hrepeat, rfl⟩
  · rintro ⟨hqueries, i, id, hrepeat, rfl⟩
    obtain ⟨queries, hf⟩ := CredentialQuery.exists_forall₂_denotes_iff.2 hqueries
    exact ⟨queries, hf, ofList_eq_error_iff.2 ⟨i, id, (hids hf).2 hrepeat, rfl⟩⟩

end Catalogue

/-! ### References -/

/-- The first hit in lists that are joined is the first hit of the first list that has one. -/
theorem find?_flatMap_zipIdx {α β : Type} {as : List α} {f : α × Nat → List β} {p : β → Bool} {b : β} {n : Nat} :
    ((as.zipIdx n).flatMap f).find? p = some b ↔
      ∃ i a, as[i]? = some a ∧ (f (a, n + i)).find? p = some b ∧
        ∀ j < i, ∀ a', as[j]? = some a' → ∀ c ∈ f (a', n + j), p c = false := by
  induction as generalizing n with
  | nil => simp
  | cons a rest ih =>
    have hplace : ∀ j, n + (j + 1) = n + 1 + j := by omega
    rw [List.zipIdx_cons, List.flatMap_cons, List.find?_append, Option.or_eq_some_iff, ih]
    constructor
    · rintro (hhit | ⟨hnone, i, a', ha', hhit, hbefore⟩)
      · exact ⟨0, a, rfl, hhit, by simp⟩
      · refine ⟨i + 1, a', ha', by rwa [hplace], ?_⟩
        intro j hj a'' ha'' c hc
        cases j with
        | zero =>
          obtain rfl := Option.some.inj ha''
          simpa using List.find?_eq_none.1 hnone c hc
        | succ j => exact hbefore j (by omega) a'' ha'' c (by rwa [hplace] at hc)
    · rintro ⟨i, a', ha', hhit, hbefore⟩
      cases i with
      | zero =>
        obtain rfl := Option.some.inj ha'
        exact Or.inl hhit
      | succ i =>
        refine Or.inr ⟨?_, i, a', ha', by rwa [hplace] at hhit, ?_⟩
        · rw [List.find?_eq_none]
          intro c hc
          simp [hbefore 0 (by omega) a rfl c hc]
        · intro j hj a'' ha'' c hc
          exact hbefore (j + 1) (by omega) a'' ha'' c (by rwa [hplace])

/-- Option `j` of set `i` names this id at place `k`. -/
def NamesAt (sets : List CredentialSet) (i j k : Nat) (id : String) : Prop :=
  ∃ s o, sets[i]? = some s ∧ s.options[j]? = some o ∧ o.ids[k]? = some id

/-- Among the ids of one option the first unknown one is found. -/
theorem find?_map_reference_iff {c : Catalogue} {i j : Nat} {ids : List String} {r : Reference} :
    (ids.map (fun id => (⟨i, j, id⟩ : Reference))).find? (fun r => !c.ids.contains r.id) = some r ↔
      i = r.set ∧ j = r.option ∧ ∃ k : Nat, ids[k]? = some r.id ∧ r.id ∉ c.ids ∧
        ∀ l < k, ∀ id, ids[l]? = some id → id ∈ c.ids := by
  obtain ⟨i', j', id⟩ := r
  rw [List.find?_map, Option.map_eq_some_iff]
  simp only [List.find?_eq_some_iff_getElem, Function.comp_apply, Bool.not_eq_true', List.contains_eq_mem,
    decide_eq_false_iff_not, Bool.not_not, decide_eq_true_eq, Reference.mk.injEq]
  constructor
  · rintro ⟨id', ⟨hunknown, k, hk, hat, hbefore⟩, rfl, rfl, rfl⟩
    refine ⟨rfl, rfl, k, List.getElem?_eq_some_iff.2 ⟨hk, hat⟩, hunknown, ?_⟩
    intro l hl id hid
    obtain ⟨hlt, rfl⟩ := List.getElem?_eq_some_iff.1 hid
    exact hbefore l hl
  · rintro ⟨rfl, rfl, k, hat, hunknown, hbefore⟩
    obtain ⟨hk, hat⟩ := List.getElem?_eq_some_iff.1 hat
    refine ⟨id, ⟨hunknown, k, hk, hat, ?_⟩, rfl, rfl, rfl⟩
    intro l hl
    exact hbefore l hl _ (List.getElem?_eq_getElem (by omega))

/-- The reference that is reported is the first one, by set, option and position, to an id that is not known. -/
theorem firstUnknown?_eq_some_iff {c : Catalogue} {sets : List CredentialSet} {r : Reference} :
    firstUnknown? c (some sets) = some r ↔
      ∃ k, NamesAt sets r.set r.option k r.id ∧ r.id ∉ c.ids ∧
        ∀ i j l id, Earlier i j l r.set r.option k → NamesAt sets i j l id → id ∈ c.ids := by
  simp only [firstUnknown?, references, find?_flatMap_zipIdx, find?_map_reference_iff, Nat.zero_add, List.mem_flatMap,
    List.mem_map, Bool.not_eq_false', List.contains_iff_mem]
  constructor
  · rintro ⟨_, s, hs, ⟨_, o, ho, ⟨rfl, rfl, k, hk, hunknown, hids⟩, hoptions⟩, hsets⟩
    refine ⟨k, ⟨s, o, hs, ho, hk⟩, hunknown, ?_⟩
    rintro i j l id hearlier ⟨s', o', hs', ho', hid⟩
    rcases hearlier with hi | ⟨rfl, hj | ⟨rfl, hl⟩⟩
    · exact hsets i hi s' hs' ⟨i, j, id⟩
        ⟨(o', j), List.mem_zipIdx_iff_getElem?.2 ho', id, List.mem_of_getElem? hid, rfl⟩
    · obtain rfl := Option.some.inj (hs.symm.trans hs')
      exact hoptions j hj o' ho' ⟨r.set, j, id⟩ ⟨id, List.mem_of_getElem? hid, rfl⟩
    · obtain rfl := Option.some.inj (hs.symm.trans hs')
      obtain rfl := Option.some.inj (ho.symm.trans ho')
      exact hids l hl id hid
  · rintro ⟨k, ⟨s, o, hs, ho, hk⟩, hunknown, hearlier⟩
    refine ⟨r.set, s, hs, ⟨r.option, o, ho, ⟨rfl, rfl, k, hk, hunknown, ?_⟩, ?_⟩, ?_⟩
    · intro l hl id hid
      exact hearlier r.set r.option l id (Or.inr ⟨rfl, Or.inr ⟨rfl, hl⟩⟩) ⟨s, o, hs, ho, hid⟩
    · rintro j hj o' ho' _ ⟨id, hid, rfl⟩
      obtain ⟨l, hl⟩ := List.getElem?_of_mem hid
      exact hearlier r.set j l id (Or.inr ⟨rfl, Or.inl hj⟩) ⟨s, o', hs, ho', hl⟩
    · rintro i hi s' hs' _ ⟨⟨o', j⟩, hmem, id, hid, rfl⟩
      obtain ⟨l, hl⟩ := List.getElem?_of_mem hid
      exact hearlier i j l id (Or.inl hi) ⟨s', o', hs', List.mem_zipIdx_iff_getElem?.1 hmem, hl⟩

/-- The ids that the sets name stand at the same places in their data. -/
theorem namedAt_iff {items : List Value} {sets : List CredentialSet}
    (hf : List.Forall₂ (fun i s => i.ObjectWith (fun fields => CredentialSet.Denotes fields s)) items sets)
    {i j k : Nat} {w : Value} : NamedAt items i j k w ↔ ∃ id, NamesAt sets i j k id ∧ w = .text id := by
  constructor
  · rintro ⟨v, o, hv, ho, hw⟩
    obtain ⟨s, hs, fields, hobject, hdenotes⟩ := exists_getElem?_of_forall₂ hf.flip hv
    obtain ⟨options, hlist, hoptions⟩ := hdenotes.options
    rw [Value.member_of_untie hobject, Value.items_of_untie hlist] at ho
    obtain ⟨o', ho', hdenotes'⟩ := exists_getElem?_of_forall₂ hoptions.flip ho
    rw [Combination.items_of_denotes hdenotes', List.getElem?_map, Option.map_eq_some_iff] at hw
    obtain ⟨id, hid, rfl⟩ := hw
    exact ⟨id, ⟨s, o', hs, ho', hid⟩, rfl⟩
  · rintro ⟨id, ⟨s, o, hs, ho, hid⟩, rfl⟩
    obtain ⟨v, hv, fields, hobject, hdenotes⟩ := exists_getElem?_of_forall₂ hf hs
    obtain ⟨options, hlist, hoptions⟩ := hdenotes.options
    obtain ⟨o', ho', hdenotes'⟩ := exists_getElem?_of_forall₂ hoptions ho
    refine ⟨v, o', hv, ?_, ?_⟩
    · rw [Value.member_of_untie hobject, Value.items_of_untie hlist, ho']
    · rw [Combination.items_of_denotes hdenotes', List.getElem?_map, hid]
      rfl

/-- The first reference of the sets to an unknown id is the first one in their data. -/
theorem firstUnknown?_eq_some_iff_of_denotes {c : Catalogue} {entries items : List Value} {sets : List CredentialSet}
    {r : Reference} (hc : entries.map (fun e => e.member "id") = c.entries.map (fun q => .text q.id))
    (hf : List.Forall₂ (fun i s => i.ObjectWith (fun fields => CredentialSet.Denotes fields s)) items sets) :
    firstUnknown? c (some sets) = some r ↔ FirstUnknown entries items r := by
  have hknown : ∀ id : String, id ∈ c.ids ↔ ∃ e ∈ entries, e.member "id" = .text id :=
    fun id => (Request.exists_member_id_iff hc).symm
  have hunknown : r.id ∉ c.ids ↔ ∀ e ∈ entries, e.member "id" ≠ .text r.id := by
    rw [hknown]
    push Not
    rfl
  simp only [firstUnknown?_eq_some_iff, FirstUnknown, namedAt_iff hf, hunknown]
  constructor
  · rintro ⟨k, hat, hno, hbefore⟩
    refine ⟨k, ⟨r.id, hat, rfl⟩, hno, ?_⟩
    rintro i j l _ hearlier ⟨id, hid, rfl⟩
    exact (hknown id).1 (hbefore i j l id hearlier hid)
  · rintro ⟨k, ⟨id, hat, hid⟩, hno, hbefore⟩
    obtain rfl := text_injective hid
    refine ⟨k, hat, hno, ?_⟩
    intro i j l id hearlier hnamed
    exact (hknown id).2 (hbefore i j l _ hearlier ⟨id, hnamed, rfl⟩)

end Disclosure
