import Disclosure.CredentialSet

/-!
# Disclosure.Proofs.Inquiries — what a wallet is asked, and when it is asked no more

An inquiry says which ids of an option were asked for.  Here a wallet is asked for one id after another and writes down
every question.  What it has written in the end is what the inquiry says: the ids of the option in order, as far as the
first one that is not available.  A set is searched in the same way, and nothing is asked about the options behind the
chosen one.

* `recording`: the wallet that writes down what it is asked.
* `Combination.inquire_append`: ids that are available are asked for, and the inquiry goes on behind them.
* `Combination.FirstMissing.inquire_eq`: the first id that is not available ends the inquiry.
* `Combination.run_allM_recording`: the wallet has written down the inquiry.
* `inquiry_exact`: the questions about an option, and the answer that they lead to.
* `CredentialSet.run_findM?_recording`: the questions of the search through the options of a set.
-/

namespace Disclosure

/-! ### Wallets that keep a state -/

/-- Answers as `available` says, and writes the question down behind the earlier ones. -/
def recording (available : String → Bool) (id : String) : StateM (List String) Bool :=
  modifyGet fun asked => (available id, asked ++ [id])

section Asking

variable {α σ : Type} (ask : α → StateM σ Bool) (a : α) (rest : List α) (s : σ)

/-- Whether all answers are yes: the rest is asked about after a yes only. -/
theorem run_allM_cons : ((a :: rest).allM ask).run s =
    if ((ask a).run s).1 then (rest.allM ask).run ((ask a).run s).2 else (false, ((ask a).run s).2) := by
  rw [List.allM_cons, StateT.run_bind]
  cases h : (ask a).run s with
  | mk yes s' => cases yes <;> rfl

/-- The first thing that gets a yes: the rest is asked about after a no only. -/
theorem run_findM?_cons : ((a :: rest).findM? ask).run s =
    if ((ask a).run s).1 then (some a, ((ask a).run s).2) else (rest.findM? ask).run ((ask a).run s).2 := by
  rw [List.findM?, StateT.run_bind]
  cases h : (ask a).run s with
  | mk yes s' => cases yes <;> rfl

end Asking

namespace Combination

variable {available : String → Bool} {ids before : List String} {id : String}

/-! ### The course of an inquiry -/

theorem inquire_cons_of_available (h : available id = true) (rest : List String) :
    inquire available (id :: rest) = ⟨id :: (inquire available rest).asked, (inquire available rest).satisfied⟩ := by
  simp [inquire, h]

theorem inquire_cons_of_missing (h : available id = false) (rest : List String) :
    inquire available (id :: rest) = ⟨[id], false⟩ := by
  simp [inquire, h]

/-- Behind ids that are available the inquiry goes on. -/
theorem inquire_append (h : ∀ i ∈ before, available i = true) (rest : List String) :
    inquire available (before ++ rest) =
      ⟨before ++ (inquire available rest).asked, (inquire available rest).satisfied⟩ := by
  induction before with
  | nil => rfl
  | cons first before ih =>
    obtain ⟨hfirst, hbefore⟩ := List.forall_mem_cons.1 h
    rw [List.cons_append, inquire_cons_of_available hfirst, ih hbefore]
    rfl

theorem inquire_of_available (h : ∀ i ∈ ids, available i = true) : inquire available ids = ⟨ids, true⟩ := by
  have happend := inquire_append h []
  rw [List.append_nil] at happend
  rw [happend, inquire, List.append_nil]

/-- `id` stands behind `before` and is not available, and everything in `before` is. -/
structure FirstMissing (available : String → Bool) (ids before : List String) (id : String) : Prop where
  stands : before ++ [id] <+: ids
  before_available : ∀ i ∈ before, available i = true
  missing : available id = false

theorem exists_firstMissing (h : ¬ ∀ i ∈ ids, available i = true) :
    ∃ before id, FirstMissing available ids before id := by
  cases hf : ids.find? (fun i => !available i) with
  | none => exact absurd (fun i hi => by simpa using List.find?_eq_none.1 hf i hi) h
  | some id =>
    obtain ⟨hid, before, later, hids, hbefore⟩ := List.find?_eq_some_iff_append.1 hf
    refine ⟨before, id, ⟨later, ?_⟩, ?_, ?_⟩
    · rw [hids, List.append_assoc, List.singleton_append]
    · intro i hi
      simpa using hbefore i hi
    · simpa using hid

/-- The first id that is not available ends the inquiry, whatever stands behind it. -/
theorem FirstMissing.inquire_eq (h : FirstMissing available ids before id) :
    inquire available ids = ⟨before ++ [id], false⟩ := by
  obtain ⟨later, rfl⟩ := h.stands
  rw [List.append_assoc, inquire_append h.before_available, List.singleton_append, inquire_cons_of_missing h.missing]

/-- The ids that are asked for are the first ones of the list, in order. -/
theorem asked_isPrefix (available : String → Bool) (ids : List String) : (inquire available ids).asked <+: ids := by
  by_cases hall : ∀ i ∈ ids, available i = true
  · simp [inquire_of_available hall]
  · obtain ⟨before, id, hfirst⟩ := exists_firstMissing hall
    rw [hfirst.inquire_eq]
    exact hfirst.stands

/-- All ids may have been asked for although the last one is not available, so the last answer counts too. -/
theorem satisfied_iff_last (hids : ids ≠ []) : (inquire available ids).satisfied = true ↔
    (inquire available ids).asked = ids ∧ available (ids.getLast hids) = true := by
  by_cases hall : ∀ i ∈ ids, available i = true
  · rw [inquire_of_available hall]
    simp [hall _ (List.getLast_mem hids)]
  · obtain ⟨before, id, hfirst⟩ := exists_firstMissing hall
    rw [hfirst.inquire_eq]
    constructor
    · intro h
      exact absurd h Bool.false_ne_true
    · -- all ids were asked for, so the last of them is the one that is missing
      rintro ⟨rfl, hlast⟩
      rw [List.getLast_concat, hfirst.missing] at hlast
      exact absurd hlast Bool.false_ne_true

/-! ### What is written down -/

/-- Behind what it had written before, the wallet has written down the inquiry, and it has answered as the inquiry says. -/
theorem run_allM_recording (available : String → Bool) (ids asked : List String) :
    (ids.allM (recording available)).run asked =
      ((inquire available ids).satisfied, asked ++ (inquire available ids).asked) := by
  induction ids generalizing asked with
  | nil => exact congrArg (Prod.mk true) (List.append_nil asked).symm
  | cons id rest ih =>
    have hfirst : (recording available id).run asked = (available id, asked ++ [id]) := rfl
    rw [run_allM_cons, hfirst]
    cases hid : available id with
    | true =>
      rw [if_pos rfl, ih, inquire_cons_of_available hid, List.append_assoc, List.singleton_append]
    | false =>
      rw [if_neg Bool.false_ne_true, inquire_cons_of_missing hid]

end Combination

/-- **An option is asked about in order, and no further than needed.**  A wallet that writes down every question has in the
end written down the ids of the inquiry, behind what was there before, and has given its answer.  They are the first ids of
the option, in order: all of them when all are available, and otherwise those up to the first that is not, this one
included.  The answer is yes exactly when the whole option was asked about and its last id is available. -/
theorem inquiry_exact (o : Combination) (available : String → Bool) :
    (∀ asked, (o.ids.allM (recording available)).run asked =
      (o.isSatisfied available, asked ++ (o.inquiry available).asked)) ∧
    (o.inquiry available).asked <+: o.ids ∧
    ((∀ id ∈ o.ids, available id = true) → (o.inquiry available).asked = o.ids) ∧
    ((¬ ∀ id ∈ o.ids, available id = true) → ∃ before id, Combination.FirstMissing available o.ids before id ∧
      (o.inquiry available).asked = before ++ [id]) ∧
    (o.isSatisfied available = true ↔
      (o.inquiry available).asked = o.ids ∧ available (o.ids.getLast o.ids_ne) = true) := by
  refine ⟨Combination.run_allM_recording available o.ids, Combination.asked_isPrefix available o.ids, ?_, ?_,
    Combination.satisfied_iff_last o.ids_ne⟩
  · intro hall
    rw [Combination.inquiry, Combination.inquire_of_available hall]
  · intro hmissing
    obtain ⟨before, id, hfirst⟩ := Combination.exists_firstMissing hmissing
    refine ⟨before, id, hfirst, ?_⟩
    rw [Combination.inquiry, hfirst.inquire_eq]

/-- An option that names two ids twice. -/
def repeatedIds : Combination := ⟨["a", "b", "a", "b"], by decide⟩

/-- Without `b` the wallet is asked up to the first `b`; a wallet that has both ids is asked for all four. -/
theorem inquiry_exact_repeated :
    (¬ ∀ id ∈ repeatedIds.ids, (id != "b") = true) ∧
      (∃ before id, Combination.FirstMissing (fun id => id != "b") repeatedIds.ids before id ∧
        before ++ [id] = ["a", "b"]) ∧
      (repeatedIds.ids.allM (recording fun id => id != "b")).run ["d"] = (false, ["d", "a", "b"]) ∧
      (∀ id ∈ repeatedIds.ids, (id != "c") = true) ∧
      (repeatedIds.ids.allM (recording fun id => id != "c")).run [] = (true, ["a", "b", "a", "b"]) := by
  have hmissing : ¬ ∀ id ∈ repeatedIds.ids, (id != "b") = true := by decide
  have hall : ∀ id ∈ repeatedIds.ids, (id != "c") = true := by decide
  obtain ⟨hstopped, -, -, hfirst, -⟩ := inquiry_exact repeatedIds (fun id => id != "b")
  obtain ⟨hrun, -, hwhole, -, -⟩ := inquiry_exact repeatedIds (fun id => id != "c")
  obtain ⟨before, id, hbefore, hasked⟩ := hfirst hmissing
  refine ⟨hmissing, ⟨before, id, hbefore, hasked.symm⟩, hstopped ["d"], hall, ?_⟩
  rw [hrun, hwhole hall]
  rfl

/-! ### The search through a set -/

namespace CredentialSet

/-- The options that are asked about: those before the first full one, and that one. -/
def tried (s : CredentialSet) (available : String → Bool) : List Combination :=
  s.options.takeWhile (fun o => !o.isSatisfied available) ++ (s.choice? available).toList

/-- The search asks about one option after another, about each as far as its inquiry goes, and about none behind the one
that it chooses. -/
theorem run_findM?_recording (s : CredentialSet) (available : String → Bool) (asked : List String) :
    (s.options.findM? (fun o : Combination => o.ids.allM (recording available))).run asked =
      (s.choice? available, asked ++ (s.tried available).flatMap (fun o => (o.inquiry available).asked)) := by
  unfold tried choice?
  induction s.options generalizing asked with
  | nil => exact congrArg (Prod.mk none) (List.append_nil asked).symm
  | cons o rest ih =>
    have hfirst : (o.ids.allM (recording available)).run asked =
        (o.isSatisfied available, asked ++ (o.inquiry available).asked) :=
      Combination.run_allM_recording available o.ids asked
    rw [run_findM?_cons, hfirst]
    cases ho : o.isSatisfied available with
    | true => simp [ho]
    | false => simp [ho, ih]

end CredentialSet

end Disclosure
