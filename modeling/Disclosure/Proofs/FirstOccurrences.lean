import Disclosure.Proofs.Ignored

/-!
# Disclosure.Proofs.FirstOccurrences — the ids of a credential set, as they come

Going through the options of a set, an id is noted unless it has been noted before.  `Noted` is what holds at every point of
the way: what has been noted is what has been seen, without repetition, in the order of the first occurrences.

* `Noted.note`, `Noted.noteAll`: one step keeps it, and so does a run.
* `CredentialSet.referencedIds_of_more`: a run over further options goes on where the first one ended.
* `referencedIds_exact`: the ids that a set names.
-/

namespace Disclosure

/-- `seen` is what has been noted of `texts`, each text at its first occurrence. -/
structure Noted (texts seen : List String) : Prop where
  mem_iff : ∀ t, t ∈ seen ↔ t ∈ texts
  ordered : seen.Pairwise (fun a b => texts.idxOf a < texts.idxOf b)

namespace Noted

variable {texts seen : List String}

theorem nil : Noted [] [] := ⟨fun _ => Iff.rfl, List.Pairwise.nil⟩

/-- A text does not occur before itself. -/
theorem nodup (h : Noted texts seen) : seen.Nodup := by
  refine h.ordered.imp ?_
  rintro a _ hlt rfl
  exact Nat.lt_irrefl _ hlt

/-- More texts do not move the first occurrences. -/
theorem ordered_append (h : Noted texts seen) (more : List String) :
    seen.Pairwise (fun a b => (texts ++ more).idxOf a < (texts ++ more).idxOf b) := by
  refine h.ordered.imp_of_mem ?_
  intro a b ha hb hlt
  rwa [List.idxOf_append_of_mem ((h.mem_iff a).1 ha), List.idxOf_append_of_mem ((h.mem_iff b).1 hb)]

theorem note (h : Noted texts seen) (s : String) : Noted (texts ++ [s]) (note seen s) := by
  constructor
  · intro t
    rw [mem_note, h.mem_iff, List.mem_append, List.mem_singleton]
  · have hold := h.ordered_append [s]
    unfold Disclosure.note
    split
    · exact hold
    · rename_i hs
      refine List.pairwise_append.2 ⟨hold, List.pairwise_singleton _ _, ?_⟩
      -- a new text first occurs behind everything that has been seen
      intro a ha b hb
      obtain rfl := List.mem_singleton.1 hb
      have hseen : a ∈ texts := (h.mem_iff a).1 ha
      have hnew : b ∉ texts := fun hmem => hs ((h.mem_iff b).2 hmem)
      rw [List.idxOf_append_of_mem hseen, List.idxOf_append_of_notMem hnew]
      exact Nat.lt_add_right _ (List.idxOf_lt_length_of_mem hseen)

theorem noteAll (h : Noted texts seen) (more : List String) : Noted (texts ++ more) (noteAll seen more) := by
  induction more generalizing texts seen with
  | nil => simpa using h
  | cons s rest ih =>
    rw [noteAll_cons, List.append_cons]
    exact ih (h.note s)

theorem firstSeen (texts : List String) : Noted texts (firstSeen texts) := nil.noteAll texts

end Noted

namespace CredentialSet

variable {s s' : CredentialSet} {more : List Combination}

theorem noted_referencedIds (s : CredentialSet) : Noted (s.options.flatMap Combination.ids) s.referencedIds := by
  rw [referencedIds_eq_firstSeen]
  exact Noted.firstSeen _

theorem referencedIds_of_more (h : s'.options = s.options ++ more) :
    s'.referencedIds = noteAll s.referencedIds (more.flatMap Combination.ids) := by
  rw [referencedIds_eq_firstSeen, referencedIds_eq_firstSeen, h, List.flatMap_append, firstSeen, noteAll_append]
  rfl

end CredentialSet

/-- **A credential set names each id once, in the order of the first occurrences.**  The ids are those of its options, and
they stand in the order in which they first occur when the options are written one after another.  Further options only
extend the list at its end. -/
theorem referencedIds_exact (s : CredentialSet) :
    s.referencedIds.Nodup ∧
    (∀ id, id ∈ s.referencedIds ↔ ∃ o ∈ s.options, id ∈ o.ids) ∧
    s.referencedIds.Pairwise (fun a b =>
      (s.options.flatMap Combination.ids).idxOf a < (s.options.flatMap Combination.ids).idxOf b) ∧
    ∀ (s' : CredentialSet) (more : List Combination), s'.options = s.options ++ more →
      s.referencedIds <+: s'.referencedIds := by
  have hnoted := s.noted_referencedIds
  refine ⟨hnoted.nodup, fun _ => CredentialSet.mem_referencedIds_iff, hnoted.ordered, ?_⟩
  intro s' more hoptions
  rw [CredentialSet.referencedIds_of_more hoptions, noteAll_eq_append]
  exact List.prefix_append _ _

/-- Options that overlap. -/
def overlappingOptions : CredentialSet :=
  ⟨[⟨["b", "a", "b"], by decide⟩, ⟨["a", "c"], by decide⟩], by simp, true, .null⟩

/-- The same options with a third one behind them. -/
def furtherOptions : CredentialSet :=
  ⟨overlappingOptions.options ++ [⟨["d", "a"], by decide⟩], by simp, false, .null⟩

/-- The third option adds the one id that is new. -/
theorem referencedIds_exact_overlapping :
    overlappingOptions.referencedIds = ["b", "a", "c"] ∧ furtherOptions.referencedIds = ["b", "a", "c", "d"] ∧
      furtherOptions.options = overlappingOptions.options ++ [⟨["d", "a"], by decide⟩] ∧
      overlappingOptions.referencedIds <+: furtherOptions.referencedIds := by
  obtain ⟨-, -, -, hmore⟩ := referencedIds_exact overlappingOptions
  exact ⟨rfl, rfl, rfl, hmore furtherOptions _ rfl⟩

end Disclosure
