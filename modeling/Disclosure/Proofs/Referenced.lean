import Disclosure.Proofs.Supported
import Mathlib.Data.List.Find

/-!
# Disclosure.Proofs.Referenced — only ids that a grouping names influence what it discloses

Two runs through the same sets are put side by side, with two catalogues and two wallets.  Where the sets name an id,
both catalogues have a query under it and both wallets say the same of it; nowhere else does anything have to agree.
Then the runs do the same from set to set: they choose the same options, and the selections keep the same keys in the same
order, with queries that are related as those of the catalogues are.

* `OrderedMap.Related`: same keys in the same order, with related values; `Related.put` says that `put` keeps it.
* `AgreeOn`: what two catalogues and two wallets have in common.
* `AgreeOn.resolveSets`: the runs side by side; `AgreeOn.resolveSets_eq` when the queries are the same.
* `grouped_noninterference`: what this means for requests.
-/

namespace Disclosure

/-! ### Related maps -/

namespace OrderedMap

variable {α β : Type} {R : α → β → Prop} {m : OrderedMap α} {m' : OrderedMap β}

/-- The same keys in the same order, with related values. -/
def Related (R : α → β → Prop) (m : OrderedMap α) (m' : OrderedMap β) : Prop :=
  List.Forall₂ (fun e e' => e.1 = e'.1 ∧ R e.2 e'.2) m.entries m'.entries

theorem related_empty : Related R ∅ ∅ := List.Forall₂.nil

theorem forall₂_putEntry {entries : List (String × α)} {entries' : List (String × β)} {value : α} {value' : β}
    (h : List.Forall₂ (fun e e' => e.1 = e'.1 ∧ R e.2 e'.2) entries entries') (key : String) (hvalue : R value value') :
    List.Forall₂ (fun e e' => e.1 = e'.1 ∧ R e.2 e'.2) (putEntry key value entries) (putEntry key value' entries') := by
  induction h with
  | nil => exact .cons ⟨rfl, hvalue⟩ .nil
  | @cons e e' rest rest' he hrest ih =>
    obtain ⟨k, v⟩ := e
    obtain ⟨k', v'⟩ := e'
    obtain ⟨rfl, hv⟩ := he
    unfold putEntry
    split
    · exact .cons ⟨rfl, hvalue⟩ hrest
    · exact .cons ⟨rfl, hv⟩ ih

theorem Related.put {value : α} {value' : β} (h : Related R m m') (key : String) (hvalue : R value value') :
    Related R (m.put key value) (m'.put key value') :=
  forall₂_putEntry h key hvalue

theorem Related.eq {m' : OrderedMap α} (h : Related (· = ·) m m') : m = m' := by
  refine OrderedMap.ext (List.forall₂_eq_eq_eq ▸ h.imp ?_)
  rintro ⟨k, v⟩ ⟨k', v'⟩ ⟨hk, hv⟩
  exact Prod.ext hk hv

end OrderedMap

/-! ### What two runs have in common -/

/-- Some option of some set names the id. -/
def Referenced (sets : List CredentialSet) (id : String) : Prop :=
  ∃ s ∈ sets, ∃ o ∈ s.options, id ∈ o.ids

/-- Under every id that the sets name both catalogues have a query, the two are related, and the id is available to both
wallets or to none. -/
structure AgreeOn (R : CredentialQuery → CredentialQuery → Prop) (sets : List CredentialSet) (c c' : Catalogue)
    (available available' : String → Bool) : Prop where
  queries : ∀ id, Referenced sets id → ∃ q q', c.get? id = some q ∧ c'.get? id = some q' ∧ R q q'
  available_eq : ∀ id, Referenced sets id → available' id = available id

section Runs

variable {R : CredentialQuery → CredentialQuery → Prop} {c c' : Catalogue} {available available' : String → Bool}
  {s : CredentialSet} {sets : List CredentialSet} {m m' : Selection}

theorem AgreeOn.tail (h : AgreeOn R (s :: sets) c c' available available') :
    AgreeOn R sets c c' available available' := by
  have hlater : ∀ id, Referenced sets id → Referenced (s :: sets) id := by
    rintro id ⟨t, ht, hid⟩
    exact ⟨t, List.mem_cons_of_mem s ht, hid⟩
  exact ⟨fun id hid => h.queries id (hlater id hid), fun id hid => h.available_eq id (hlater id hid)⟩

/-- What a set chooses depends on the ids that it names only. -/
theorem AgreeOn.choice?_eq (h : AgreeOn R (s :: sets) c c' available available') :
    s.choice? available' = s.choice? available := by
  rw [CredentialSet.choice?_eq_find?, CredentialSet.choice?_eq_find?]
  refine List.find?_congr (fun o ho => ?_)
  rw [Bool.eq_iff_iff, List.all_eq_true, List.all_eq_true]
  refine forall₂_congr (fun id hid => ?_)
  rw [h.available_eq id ⟨s, List.mem_cons_self, o, ho, hid⟩]

/-- Additions of the same ids keep selections related. -/
theorem related_addAll {ids : List String} (hm : m.Related R m')
    (h : ∀ id ∈ ids, ∃ q q', c.get? id = some q ∧ c'.get? id = some q' ∧ R q q') :
    (Selection.addAll c m ids).Related R (Selection.addAll c' m' ids) := by
  induction ids generalizing m m' with
  | nil => exact hm
  | cons id rest ih =>
    obtain ⟨q, q', hq, hq', hR⟩ := h id (by simp)
    rw [Selection.addAll_cons hq, Selection.addAll_cons hq']
    exact ih (hm.put id hR) (fun i hi => h i (by simp [hi]))

/-- Two runs that agree on the named ids tell the same and keep their selections related, set by set. -/
theorem AgreeOn.resolveSets (h : AgreeOn R sets c c' available available') (hm : m.Related R m') (i : Nat) :
    (resolveSets c' available' i m' sets).events = (resolveSets c available i m sets).events ∧
      (resolveSets c available i m sets).selection.Related R (resolveSets c' available' i m' sets).selection := by
  induction sets generalizing i m m' with
  | nil => exact ⟨rfl, hm⟩
  | cons s rest ih =>
    rw [Disclosure.resolveSets, Disclosure.resolveSets, h.choice?_eq]
    cases hchoice : s.choice? available with
    | some o =>
      have ho := (CredentialSet.choice?_spec hchoice).1
      have hids : ∀ id ∈ o.ids, ∃ q q', c.get? id = some q ∧ c'.get? id = some q' ∧ R q q' :=
        fun id hid => h.queries id ⟨s, List.mem_cons_self, o, ho, hid⟩
      obtain ⟨hevents, hselection⟩ := ih h.tail (related_addAll hm hids) (i + 1)
      exact ⟨congrArg (Event.chosen i o :: ·) hevents, hselection⟩
    | none =>
      dsimp only
      split
      · exact ⟨rfl, OrderedMap.related_empty⟩
      · obtain ⟨hevents, hselection⟩ := ih h.tail hm (i + 1)
        exact ⟨congrArg (Event.skipped i :: ·) hevents, hselection⟩

end Runs

/-! ### Requests that agree -/

section Requests

variable {c c' : Catalogue} {available available' : String → Bool} {sets : List CredentialSet}

/-- Where the queries themselves are the same, so are the resolutions. -/
theorem AgreeOn.resolveSets_eq (h : AgreeOn (· = ·) sets c c' available available') :
    Disclosure.resolveSets c' available' 0 ∅ sets = Disclosure.resolveSets c available 0 ∅ sets := by
  obtain ⟨hevents, hselection⟩ := h.resolveSets OrderedMap.related_empty 0
  rw [Resolution.mk.injEq]
  exact ⟨hselection.eq.symm, hevents⟩

theorem Catalogue.Covers.exists_get? (hc : c.Covers sets) {id : String} (hid : Referenced sets id) :
    ∃ q, c.get? id = some q := by
  obtain ⟨s, hs, o, ho, hid⟩ := hid
  exact exists_get?_of_mem_ids (hc s hs o ho id hid)

end Requests

/-- **Only ids that the sets name influence what they disclose.**  Let two catalogues cover the same sets, and let two
wallets say the same of the ids that the sets name.  When both catalogues have the same queries under these ids, the
resolutions are the same, with selection and log; when they have queries that say the same, the logs are the same, and the
selections have the same keys in the same order with queries that say the same.  So neither the order of a catalogue nor
ids that no set names matter, whether a wallet has them or they are marked. -/
theorem grouped_noninterference (sets : List CredentialSet) (c c' : Catalogue) (available available' : String → Bool)
    (hc : c.Covers sets) (hc' : c'.Covers sets) (ha : ∀ id, Referenced sets id → available' id = available id) :
    ∃ r r', resolve c (some sets) available = .ok r ∧ resolve c' (some sets) available' = .ok r' ∧
      ((∀ id, Referenced sets id → c'.get? id = c.get? id) → r' = r) ∧
      ((∀ id q q', Referenced sets id → c.get? id = some q → c'.get? id = some q' → q.equiv q' = true) →
        r'.log = r.log ∧ r.selection.Related (fun q q' => q.equiv q' = true) r'.selection) ∧
      (c'.entries.Perm c.entries → r' = r) ∧
      ∀ (request : Request) (wallet : Wallet) (marked marked' : List String) (d : Decision),
        request.grouping = some sets → (∀ id, Referenced sets id → (id ∈ marked' ↔ id ∈ marked)) →
        request.decide wallet marked = .ok d →
        ∃ d', request.decide wallet marked' = .ok d' ∧ d'.resolution = d.resolution := by
  have hsame : (∀ id, Referenced sets id → c'.get? id = c.get? id) → AgreeOn (· = ·) sets c c' available available' := by
    intro hqueries
    refine ⟨fun id hid => ?_, ha⟩
    obtain ⟨q, hq⟩ := hc.exists_get? hid
    exact ⟨q, q, hq, (hqueries id hid).trans hq, rfl⟩
  refine ⟨_, _, resolve_of_covers hc available, resolve_of_covers hc' available', ?_, ?_, ?_, ?_⟩
  · exact fun hqueries => (hsame hqueries).resolveSets_eq
  · intro hqueries
    have hagree : AgreeOn (fun q q' => q.equiv q' = true) sets c c' available available' := by
      refine ⟨fun id hid => ?_, ha⟩
      obtain ⟨q, hq⟩ := hc.exists_get? hid
      obtain ⟨q', hq'⟩ := hc'.exists_get? hid
      exact ⟨q, q', hq, hq', hqueries id q q' hid hq hq'⟩
    obtain ⟨hevents, hselection⟩ := hagree.resolveSets OrderedMap.related_empty 0
    exact ⟨congrArg (List.map Event.record) hevents, hselection⟩
  · exact fun hperm => (hsame (fun id _ => Catalogue.get?_eq_of_perm hperm id)).resolveSets_eq
  · intro request wallet marked marked' d hg hmarked hd
    obtain ⟨answered, hanswered, rfl⟩ := Request.decide_eq_ok_iff.1 hd
    refine ⟨_, Request.decide_eq_ok hanswered, ?_⟩
    have hagree : AgreeOn (· = ·) sets request.catalogue request.catalogue
        (fun id => (firstSeen (answered ++ marked)).contains id)
        (fun id => (firstSeen (answered ++ marked')).contains id) := by
      refine ⟨fun id hid => ?_, fun id hid => ?_⟩
      · obtain ⟨q, hq⟩ := (Request.covers_of_grouping hg).exists_get? hid
        exact ⟨q, q, hq, hq, rfl⟩
      · rw [Bool.eq_iff_iff]
        simp only [List.contains_iff_mem, mem_firstSeen, List.mem_append, hmarked id hid]
    simp only [Request.resolve, hg, resolveKnown]
    exact hagree.resolveSets_eq

/-- The catalogue of `threeQueries` in another order, with another query in the place of one that is not named. -/
def otherQueries : Catalogue :=
  ⟨[{ id := "d", format := "jwt_vc" }, { id := "b", format := "dc+sd-jwt" }, { id := "a", format := "mso_mdoc" }],
    by decide⟩

/-- Sets that name `a` and `b` only: the catalogues differ elsewhere, and so do the wallets. -/
theorem grouped_noninterference_otherQueries :
    let sets : List CredentialSet := [⟨[⟨["b", "a"], by decide⟩], by simp, true, .null⟩]
    let available : String → Bool := fun id => id != "c"
    let available' : String → Bool := fun id => id != "d"
    threeQueries.Covers sets ∧ otherQueries.Covers sets ∧ (∀ id, Referenced sets id → available' id = available id) ∧
      (∀ id, Referenced sets id → otherQueries.get? id = threeQueries.get? id) ∧
      ∃ r, resolve threeQueries (some sets) available = .ok r ∧ resolve otherQueries (some sets) available' = .ok r ∧
        r.selection.keys = ["b", "a"] := by
  intro sets available available'
  have hc : threeQueries.Covers sets := by simp [Catalogue.Covers, Catalogue.ids, threeQueries, sets]
  have hc' : otherQueries.Covers sets := by simp [Catalogue.Covers, Catalogue.ids, otherQueries, sets]
  have hnamed : ∀ id, Referenced sets id → id = "b" ∨ id = "a" := by simp [Referenced, sets]
  have ha : ∀ id, Referenced sets id → available' id = available id := by
    intro id hid
    obtain rfl | rfl := hnamed id hid <;> decide
  have hqueries : ∀ id, Referenced sets id → otherQueries.get? id = threeQueries.get? id := by
    intro id hid
    obtain rfl | rfl := hnamed id hid <;> rfl
  obtain ⟨r, r', hr, hr', hsame, -⟩ := grouped_noninterference sets threeQueries otherQueries available available' hc hc' ha
  obtain rfl := hsame hqueries
  refine ⟨hc, hc', ha, hqueries, r', hr, hr', ?_⟩
  cases hr
  decide

end Disclosure
