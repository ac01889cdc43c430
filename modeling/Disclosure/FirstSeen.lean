/-!
# Disclosure.FirstSeen — texts without their repetitions

`firstSeen` keeps the first occurrence of each text, in order.  It goes through the list with `note`, which adds a
text at the end unless it is there already.

* `mem_noteAll`, `nodup_noteAll`: what is noted, and that nothing is noted twice.
-/

namespace Disclosure

/-- Adds a text at the end unless it is there already. -/
def note (seen : List String) (s : String) : List String := if s ∈ seen then seen else seen ++ [s]

/-- Notes one text after another. -/
def noteAll (seen texts : List String) : List String := texts.foldl note seen

/-- The first occurrence of each text, in order. -/
def firstSeen (texts : List String) : List String := noteAll [] texts

@[simp]
theorem noteAll_nil (seen : List String) : noteAll seen [] = seen := rfl

@[simp]
theorem noteAll_cons (seen : List String) (s : String) (rest : List String) :
    noteAll seen (s :: rest) = noteAll (note seen s) rest := rfl

theorem noteAll_append (seen a b : List String) : noteAll seen (a ++ b) = noteAll (noteAll seen a) b :=
  List.foldl_append

theorem mem_note {seen : List String} {s t : String} : t ∈ note seen s ↔ t ∈ seen ∨ t = s := by
  unfold note
  split
  · rename_i h
    exact ⟨Or.inl, fun ht => ht.elim id (fun e => e ▸ h)⟩
  · simp

theorem nodup_note {seen : List String} {s : String} (h : seen.Nodup) : (note seen s).Nodup := by
  unfold note
  split
  · exact h
  · rename_i hs
    refine List.nodup_append.2 ⟨h, by simp, ?_⟩
    intro a ha b hb hab
    rw [List.mem_singleton] at hb
    exact hs (hb ▸ hab ▸ ha)

theorem mem_noteAll {texts seen : List String} {t : String} :
    t ∈ noteAll seen texts ↔ t ∈ seen ∨ t ∈ texts := by
  induction texts generalizing seen with
  | nil => simp
  | cons s rest ih => simp [ih, mem_note, or_assoc]

theorem nodup_noteAll {texts seen : List String} (h : seen.Nodup) : (noteAll seen texts).Nodup := by
  induction texts generalizing seen with
  | nil => exact h
  | cons s rest ih => exact ih (nodup_note h)

theorem mem_firstSeen {texts : List String} {t : String} : t ∈ firstSeen texts ↔ t ∈ texts := by
  simp [firstSeen, mem_noteAll]

theorem nodup_firstSeen (texts : List String) : (firstSeen texts).Nodup := nodup_noteAll List.nodup_nil

end Disclosure
