import Disclosure.Proofs.Grouped
import Mathlib.Data.Set.Defs
import Mathlib.Logic.Relation

/-!
# Disclosure.Proofs.Rearrangement — the order and repetition of sets and ids do not matter

Sets may be listed in another order or more than once, and so may the ids of an option; only the order of the options of a
set matters.  What a set demands is its flag and, option by option, which ids are named.  A list of sets demands what its
sets demand, in no order.  Rearranging the sets keeps what they demand, and a resolution depends on nothing else, but for
the order of the keys and for which unknown id is reported.

* `Combination.Rewritten`, `Rearranged`: the changes, one at a time.
* `demands_of_rearrangements`: any number of changes keeps what is demanded.
* `covers_iff_demands`, `requiredFulfilled_iff_demands`, `mem_contributions_iff_demands`: what depends on it.
* `rearrangements_harmless`: the same is selected, and the same requests are refused.
-/

namespace Disclosure

/-! ### Changes -/

/-- The second option lists the ids of the first in another order, or one of them once more. -/
inductive Combination.Rewritten : Combination → Combination → Prop
  | permuted {o p : Combination} (h : o.ids.Perm p.ids) : Rewritten o p
  | repeated {o p : Combination} {before later : List String} {id : String} (ho : o.ids = before ++ later)
      (hp : p.ids = before ++ id :: later) (hid : id ∈ before ++ later) : Rewritten o p

/-- One change: the sets in another order, a set once more, or an option of one set rewritten in its place. -/
inductive Rearranged : List CredentialSet → List CredentialSet → Prop
  | permuted {sets sets' : List CredentialSet} (h : sets.Perm sets') : Rearranged sets sets'
  | repeated {before later : List CredentialSet} {s : CredentialSet} (h : s ∈ before ++ later) :
      Rearranged (before ++ later) (before ++ s :: later)
  | rewritten {before later : List CredentialSet} {s t : CredentialSet} {first last : List Combination}
      {o p : Combination} (hs : s.options = first ++ o :: last) (ht : t.options = first ++ p :: last)
      (hrequired : t.required = s.required) (h : o.Rewritten p) :
      Rearranged (before ++ s :: later) (before ++ t :: later)

/-! ### What sets demand -/

/-- The flag of a set, and which ids each option names. -/
structure Demand where
  required : Bool
  options : List (Set String)

/-- The ids that an option names. -/
def Combination.named (o : Combination) : Set String := {id | id ∈ o.ids}

/-- What a set demands. -/
def CredentialSet.demand (s : CredentialSet) : Demand := ⟨s.required, s.options.map Combination.named⟩

/-- What the sets of a list demand, in no order. -/
def demands (sets : List CredentialSet) : Set Demand := {d | d ∈ sets.map CredentialSet.demand}

theorem mem_demands_iff {sets : List CredentialSet} {d : Demand} : d ∈ demands sets ↔ ∃ s ∈ sets, s.demand = d :=
  List.mem_map

/-- Something once more is nothing new. -/
theorem mem_append_cons_iff_of_mem {α : Type} {before later : List α} {a b : α} (h : a ∈ before ++ later) :
    b ∈ before ++ a :: later ↔ b ∈ before ++ later := by
  rw [List.mem_append, List.mem_cons, List.mem_append]
  constructor
  · rintro (hb | rfl | hb)
    · exact Or.inl hb
    · exact List.mem_append.1 h
    · exact Or.inr hb
  · exact Or.imp_right Or.inr

theorem Combination.Rewritten.named_eq {o p : Combination} (h : o.Rewritten p) : p.named = o.named := by
  ext id
  change id ∈ p.ids ↔ id ∈ o.ids
  cases h with
  | permuted h => exact h.symm.mem_iff
  | repeated ho hp hid => rw [ho, hp, mem_append_cons_iff_of_mem hid]

section Changes

variable {s t : CredentialSet} {sets sets' : List CredentialSet}

/-- A set demands the same after one of its options is rewritten. -/
theorem CredentialSet.demand_of_rewritten {first last : List Combination} {o p : Combination}
    (hs : s.options = first ++ o :: last) (ht : t.options = first ++ p :: last) (hrequired : t.required = s.required)
    (h : o.Rewritten p) : t.demand = s.demand := by
  simp only [demand, hs, ht, hrequired, List.map_append, List.map_cons, h.named_eq]

/-- One change keeps what is demanded. -/
theorem Rearranged.demands_eq (h : Rearranged sets sets') : demands sets' = demands sets := by
  ext d
  change d ∈ sets'.map CredentialSet.demand ↔ d ∈ sets.map CredentialSet.demand
  cases h with
  | permuted h => exact (h.symm.map _).mem_iff
  | @repeated before later s hs =>
    have hdemand : s.demand ∈ before.map CredentialSet.demand ++ later.map CredentialSet.demand := by
      rw [← List.map_append]
      exact List.mem_map_of_mem hs
    rw [List.map_append, List.map_append, List.map_cons, mem_append_cons_iff_of_mem hdemand]
  | rewritten hs ht hrequired h =>
    simp only [List.map_append, List.map_cons, CredentialSet.demand_of_rewritten hs ht hrequired h]

/-- Any number of changes keep what is demanded. -/
theorem demands_of_rearrangements (h : Relation.ReflTransGen Rearranged sets sets') :
    demands sets' = demands sets := by
  induction h with
  | refl => rfl
  | tail _ hstep ih => exact hstep.demands_eq.trans ih

end Changes

/-! ### What depends on it -/

/-- The ids are those of the first option that is available in full. -/
def Demand.FirstFull (d : Demand) (available : String → Bool) (ids : Set String) : Prop :=
  ∃ before later, d.options = before ++ ids :: later ∧ (∀ id ∈ ids, available id = true) ∧
    ∀ others ∈ before, ¬ ∀ id ∈ others, available id = true

section Dependence

variable {c : Catalogue} {available : String → Bool} {s : CredentialSet} {sets sets' : List CredentialSet}

theorem CredentialSet.firstFull_demand_iff {ids : Set String} :
    s.demand.FirstFull available ids ↔ ∃ o, s.FirstFull available o ∧ o.named = ids := by
  constructor
  · rintro ⟨before, later, hoptions, hfull, hbefore⟩
    obtain ⟨before, rest, hsplit, rfl, hrest⟩ := List.map_eq_append_iff.1 hoptions
    obtain ⟨o, later, rfl, rfl, rfl⟩ := List.map_eq_cons_iff.1 hrest
    exact ⟨o, ⟨before, later, hsplit, hfull, fun p hp => hbefore _ (List.mem_map_of_mem hp)⟩, rfl⟩
  · rintro ⟨o, ⟨before, later, hoptions, hfull, hbefore⟩, rfl⟩
    refine ⟨before.map Combination.named, later.map Combination.named, ?_, hfull, ?_⟩
    · rw [demand, hoptions, List.map_append, List.map_cons]
    · intro others hothers
      obtain ⟨p, hp, rfl⟩ := List.mem_map.1 hothers
      exact hbefore p hp

theorem CredentialSet.fulfilled_iff_demand : s.Fulfilled available ↔ ∃ ids, s.demand.FirstFull available ids := by
  simp only [← exists_firstFull_iff, firstFull_demand_iff]
  constructor
  · rintro ⟨o, ho⟩
    exact ⟨_, o, ho, rfl⟩
  · rintro ⟨_, o, ho, rfl⟩
    exact ⟨o, ho⟩

theorem CredentialSet.mem_contribution_iff_demand {id : String} :
    id ∈ s.contribution available ↔ ∃ ids, s.demand.FirstFull available ids ∧ id ∈ ids := by
  simp only [mem_contribution_iff, firstFull_demand_iff]
  constructor
  · rintro ⟨o, ho, hid⟩
    exact ⟨_, ⟨o, ho, rfl⟩, hid⟩
  · rintro ⟨_, ⟨o, ho, rfl⟩, hid⟩
    exact ⟨o, ho, hid⟩

theorem forall_mem_demands_iff {P : Demand → Prop} : (∀ d ∈ demands sets, P d) ↔ ∀ s ∈ sets, P s.demand :=
  List.forall_mem_map

theorem covers_iff_demands :
    c.Covers sets ↔ ∀ d ∈ demands sets, ∀ ids ∈ d.options, ∀ id ∈ ids, id ∈ c.ids := by
  rw [forall_mem_demands_iff]
  refine forall₂_congr (fun s _ => ?_)
  rw [CredentialSet.demand, List.forall_mem_map]
  rfl

theorem requiredFulfilled_iff_demands :
    RequiredFulfilled sets available ↔
      ∀ d ∈ demands sets, d.required = true → ∃ ids, d.FirstFull available ids := by
  rw [forall_mem_demands_iff]
  exact forall₂_congr (fun s _ => imp_congr_right (fun _ => CredentialSet.fulfilled_iff_demand))

theorem mem_contributions_iff_demands {id : String} :
    id ∈ contributions sets available ↔ ∃ d ∈ demands sets, ∃ ids, d.FirstFull available ids ∧ id ∈ ids := by
  simp only [contributions, List.mem_flatMap, CredentialSet.mem_contribution_iff_demand, mem_demands_iff]
  constructor
  · rintro ⟨s, hs, hid⟩
    exact ⟨_, ⟨s, hs, rfl⟩, hid⟩
  · rintro ⟨_, ⟨s, hs, rfl⟩, hid⟩
    exact ⟨s, hs, hid⟩

/-- Sets that demand the same have the same look-ups in what they select. -/
theorem get?_eq_of_demands_eq (hd : demands sets' = demands sets) (hc : c.Covers sets) (key : String) :
    (resolveSets c available 0 ∅ sets').selection.get? key = (resolveSets c available 0 ∅ sets).selection.get? key := by
  have hc' : c.Covers sets' := by rwa [covers_iff_demands, hd, ← covers_iff_demands]
  have hopen : RequiredFulfilled sets' available ↔ RequiredFulfilled sets available := by
    rw [requiredFulfilled_iff_demands, hd, ← requiredFulfilled_iff_demands]
  have hkey : key ∈ contributions sets' available ↔ key ∈ contributions sets available := by
    rw [mem_contributions_iff_demands, hd, ← mem_contributions_iff_demands]
  by_cases h : RequiredFulfilled sets available
  · simp only [get?_of_open hc h, get?_of_open hc' (hopen.2 h), hkey]
  · rw [selection_of_refused h, selection_of_refused (mt hopen.1 h)]

end Dependence

/-- **The order and repetition of sets and ids do not matter to what is disclosed.**  After any number of such changes the
same requests are refused, and of the others the same entries are selected, in some order: the same keys with the same
queries. -/
theorem rearrangements_harmless (c : Catalogue) (sets sets' : List CredentialSet) (available : String → Bool)
    (h : Relation.ReflTransGen Rearranged sets sets') :
    ((∃ e, resolve c (some sets') available = .error e) ↔ ∃ e, resolve c (some sets) available = .error e) ∧
    ∀ r, resolve c (some sets) available = .ok r →
      ∃ r', resolve c (some sets') available = .ok r' ∧ r'.selection.entries.Perm r.selection.entries ∧
        ∀ id, r'.selection.get? id = r.selection.get? id := by
  have hd : demands sets' = demands sets := demands_of_rearrangements h
  have hcovers : c.Covers sets' ↔ c.Covers sets := by rw [covers_iff_demands, hd, ← covers_iff_demands]
  constructor
  · simp only [exists_resolve_eq_error_iff, Option.mem_some_iff, forall_eq', hcovers]
  · intro r hr
    obtain ⟨hc, rfl⟩ := resolve_eq_ok_iff_covers.1 hr
    have hget : ∀ key, (resolveSets c available 0 ∅ sets').selection.get? key =
        (resolveSets c available 0 ∅ sets).selection.get? key := get?_eq_of_demands_eq hd hc
    exact ⟨_, resolve_of_covers (hcovers.2 hc) available, OrderedMap.entries_perm_of_get?_eq hget, hget⟩

/-- A set that prefers one option to another. -/
def preferring (o p : Combination) (required : Bool) : CredentialSet := ⟨[o, p], by simp, required, .null⟩

/-- With the required set in front, listed twice, and both sets rewritten, the same entries are selected in another order;
a catalogue without the ids refuses both lists. -/
theorem rearrangements_harmless_overlapping :
    let c : Combination := ⟨["c"], by decide⟩
    let b : Combination := ⟨["b"], by decide⟩
    let bb : Combination := ⟨["b", "b"], by decide⟩
    let ab : Combination := ⟨["a", "b"], by decide⟩
    let aba : Combination := ⟨["a", "b", "a"], by decide⟩
    let sets := [preferring c b false, preferring ab b true]
    let sets' := [preferring aba b true, preferring c bb false, preferring ab b true]
    Relation.ReflTransGen Rearranged sets sets' ∧
      (∃ r r', resolve threeQueries (some sets) (fun id => id != "c") = .ok r ∧
        resolve threeQueries (some sets') (fun id => id != "c") = .ok r' ∧
        r.selection.keys = ["b", "a"] ∧ r'.selection.keys = ["a", "b"] ∧
        r'.selection.entries.Perm r.selection.entries) ∧
      ∃ e, resolve Catalogue.empty (some sets') (fun id => id != "c") = .error e := by
  intro c b bb ab aba sets sets'
  have hswap : Rearranged sets [preferring ab b true, preferring c b false] := .permuted (.swap _ _ [])
  have htwice : Rearranged ([preferring ab b true, preferring c b false] ++ [])
      ([preferring ab b true, preferring c b false] ++ preferring ab b true :: []) := .repeated (by simp)
  have hids : Rearranged ([] ++ preferring ab b true :: [preferring c b false, preferring ab b true])
      ([] ++ preferring aba b true :: [preferring c b false, preferring ab b true]) :=
    @Rearranged.rewritten _ _ _ _ [] [b] ab aba rfl rfl rfl
      (@Combination.Rewritten.repeated _ _ ["a", "b"] [] "a" rfl rfl (by simp))
  have hid : Rearranged ([preferring aba b true] ++ preferring c b false :: [preferring ab b true]) sets' :=
    @Rearranged.rewritten [_] [_] _ _ [c] [] b bb rfl rfl rfl
      (@Combination.Rewritten.repeated _ _ [] ["b"] "b" rfl rfl (by simp))
  have h : Relation.ReflTransGen Rearranged sets sets' :=
    .tail (.tail (.tail (.single hswap) htwice) hids) hid
  obtain ⟨-, hselected⟩ := rearrangements_harmless threeQueries sets sets' (fun id => id != "c") h
  obtain ⟨hrefused, -⟩ := rearrangements_harmless Catalogue.empty sets sets' (fun id => id != "c") h
  have hempty : ∃ e, resolve Catalogue.empty (some sets) (fun id => id != "c") = .error e := ⟨_, rfl⟩
  obtain ⟨r', hr', hperm, -⟩ := hselected _ rfl
  refine ⟨h, ⟨_, r', rfl, hr', by decide, ?_, hperm⟩, hrefused.2 hempty⟩
  cases hr'
  decide

end Disclosure
