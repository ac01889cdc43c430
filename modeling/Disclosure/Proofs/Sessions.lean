import Disclosure.Proofs.Runs
import Disclosure.Session

/-!
# Disclosure.Proofs.Sessions — what the steps of a session change

Each part of a session is changed by steps of its own: the request by what is considered, the documents by what is
loaded, held and dropped, the marks by what is marked and unmarked.  Questions change nothing, and neither does a step
that fails; such steps can be left out of a run without a trace.

* `Session.step_eq_error_iff`: which steps fail, and for what.
* `Session.step_of_error`, `Session.step_of_question`: the session is as it was.
* `Session.step_snd`, `Session.after_eq`: the session after a step, and after a run, part by part.
* `Session.mem_marked_after`: an id is marked by the last step that marks or unmarks it.
* `Session.run_append`, `Session.leave_out`: the answers of a run, and of the run without a step that changes nothing.
* `Session.answered_matching`: the two questions agree on which queries are answered.
* `Session.same_resolution`: what a decision at the end of a run depends on.
-/

namespace Disclosure

namespace Session

variable {s : Session} {x : Step} {f : Failure}

/-! ### One step -/

/-- Why a step fails in a session. -/
inductive Fails (s : Session) : Step → Failure → Prop
  | consider {data : Value} {e : RequestError} (unread : Request.ofValue data = .error e) :
    Fails s (.consider data) (.request e)
  | load {data : Value} {e : WalletError} (unread : Wallet.ofValue data = .error e) : Fails s (.load data) (.wallet e)
  | matching {e : RequestError} (refused : s.request.catalogue.available s.documents = .error e) :
    Fails s .matching (.request e)
  | resolve {e : RequestError} (refused : s.request.catalogue.available s.documents = .error e) :
    Fails s .resolve (.request e)

/-- The request that a step takes, if its data hold one. -/
def Step.request? : Step → Option Request
  | .consider data => (Request.ofValue data).toOption
  | _ => none

/-- The documents after a step. -/
def Step.documents (held : Wallet) : Step → Wallet
  | .load data => (Wallet.ofValue data).toOption.getD held
  | .hold document => held ++ [document]
  | .drop id => held.filter (fun d => !(d.id == Text.ofString id))
  | _ => held

/-- The marked ids after a step. -/
def Step.marks (marked : List String) : Step → List String
  | .mark id => marked ++ [id]
  | .unmark id => marked.filter (fun m => !(m == id))
  | _ => marked

/-- The queries with a document are the available ones, and both are refused alike. -/
theorem answered_matching (s : Session) :
    s.request.catalogue.available s.documents
      = s.matchingIds.map (fun found => (found.filter (fun e => !e.2.isEmpty)).map Prod.fst) := by
  have hread : ∀ queries i, answeredIds s.documents queries
      = (readEach (fun _ q => (q.answers s.documents).map (fun found => (q.id, found.map Document.id))) i queries).map
          (fun found => (found.filter (fun e => !e.2.isEmpty)).map Prod.fst) := by
    intro queries
    induction queries with
    | nil => intro i; rfl
    | cons q rest ih =>
      intro i
      rw [answeredIds, readEach, ih (i + 1)]
      cases q.answers s.documents with
      | error e => rfl
      | ok found =>
        cases readEach (fun _ q => (q.answers s.documents).map (fun found => (q.id, found.map Document.id))) (i + 1) rest with
        | error e => rfl
        | ok later =>
          cases found <;> rfl
  exact hread _ _

theorem matchingIds_eq_error_iff {e : RequestError} :
    s.matchingIds = .error e ↔ s.request.catalogue.available s.documents = .error e := by
  rw [answered_matching]
  cases s.matchingIds <;> simp [Except.map]

/-- What is read for an answer is all that can fail. -/
theorem read_eq_error_iff {ε α β : Type} {why : ε → Failure} {read : Except ε α} {use : α → β} :
    (do let a ← read.mapError why; return use a) = .error f ↔ ∃ e, read = .error e ∧ f = why e := by
  cases read <;> simp [Except.mapError, bind, Except.bind, pure, Except.pure, eq_comm]

theorem attempt_eq_error_iff : s.attempt x = .error f ↔ Fails s x f := by
  constructor
  · intro h
    cases x with
    | consider data =>
      obtain ⟨e, he, rfl⟩ := read_eq_error_iff.1 h
      exact .consider he
    | load data =>
      obtain ⟨e, he, rfl⟩ := read_eq_error_iff.1 h
      exact .load he
    | matching =>
      obtain ⟨e, he, rfl⟩ := read_eq_error_iff.1 h
      exact .matching (matchingIds_eq_error_iff.1 he)
    | resolve =>
      obtain ⟨e, he, rfl⟩ := read_eq_error_iff.1 h
      exact .resolve (Request.decide_eq_error_iff.1 he)
    | hold | drop | mark | unmark => cases h
  · intro h
    cases h with
    | consider unread => exact read_eq_error_iff.2 ⟨_, unread, rfl⟩
    | load unread => exact read_eq_error_iff.2 ⟨_, unread, rfl⟩
    | matching refused => exact read_eq_error_iff.2 ⟨_, matchingIds_eq_error_iff.2 refused, rfl⟩
    | resolve refused => exact read_eq_error_iff.2 ⟨_, Request.decide_eq_error_iff.2 refused, rfl⟩

/-- **Which steps fail.**  Data have to be read, and a question needs documents that can be compared with the queries. -/
theorem step_eq_error_iff : (s.step x).1 = .error f ↔ Fails s x f := by
  rw [← attempt_eq_error_iff]
  unfold step
  cases s.attempt x <;> simp

/-- **A step that fails changes nothing.** -/
theorem step_of_error (h : (s.step x).1 = .error f) : (s.step x).2 = s := by
  have hattempt := attempt_eq_error_iff.2 (step_eq_error_iff.1 h)
  rw [step, hattempt]

/-- A step that reads something ends in the session that follows from it, or in the same session. -/
theorem step_snd_of_read {ε α : Type} {why : ε → Failure} {read : Except ε α} {answer : α → Answer} {next : α → Session}
    (h : s.attempt x = do let a ← read.mapError why; return (answer a, next a)) :
    (s.step x).2 = (read.toOption.map next).getD s := by
  rw [step, h]
  cases read <;> rfl

/-- Each part of a session is changed by steps of its own. -/
theorem step_snd (s : Session) (x : Step) :
    (s.step x).2 = ⟨x.request?.getD s.request, x.documents s.documents, x.marks s.marked⟩ := by
  cases x with
  | consider data =>
    rw [step_snd_of_read rfl, Step.request?]
    cases Request.ofValue data <;> rfl
  | load data =>
    rw [step_snd_of_read rfl, Step.documents]
    cases Wallet.ofValue data <;> rfl
  | matching =>
    rw [step_snd_of_read rfl]
    cases s.matchingIds <;> rfl
  | resolve =>
    rw [step_snd_of_read rfl]
    cases s.request.decide s.documents s.marked <;> rfl
  | hold | drop | mark | unmark => rfl

/-- A question changes nothing. -/
theorem step_of_question (h : x = .matching ∨ x = .resolve) : (s.step x).2 = s := by
  rcases h with rfl | rfl <;> rw [step_snd] <;> rfl

/-! ### Runs -/

/-- The session after several steps. -/
def after (s : Session) (steps : List Step) : Session := steps.foldl (fun s x => (s.step x).2) s

variable {before later steps : List Step}

theorem after_cons (s : Session) (x : Step) (rest : List Step) : s.after (x :: rest) = (s.step x).2.after rest := rfl

theorem after_append (s : Session) (before later : List Step) :
    s.after (before ++ later) = (s.after before).after later :=
  List.foldl_append

theorem run_append (s : Session) (before later : List Step) :
    s.run (before ++ later) = s.run before ++ (s.after before).run later := by
  induction before generalizing s with
  | nil => rfl
  | cons x rest ih => rw [List.cons_append, run, run, ih, after_cons, List.cons_append]

theorem length_run (s : Session) (steps : List Step) : (s.run steps).length = steps.length := by
  induction steps generalizing s with
  | nil => rfl
  | cons x rest ih => rw [run, List.length_cons, List.length_cons, ih]

/-- **The session after a run, part by part**: the last request that was read, and the documents and the marks as their
own steps leave them. -/
theorem after_eq (s : Session) (steps : List Step) :
    s.after steps = ⟨(steps.filterMap Step.request?).getLast?.getD s.request, steps.foldl Step.documents s.documents,
      steps.foldl Step.marks s.marked⟩ := by
  induction steps generalizing s with
  | nil => rfl
  | cons x rest ih =>
    rw [after_cons, ih, step_snd]
    cases hx : x.request? with
    | none => simp [hx]
    | some r => simp [hx, List.getLast?_cons]

/-- **A step that changes nothing can be left out**, such as one that fails or a question: the other steps answer as
before, and the run ends in the same session. -/
theorem leave_out (h : ((s.after before).step x).2 = s.after before) :
    s.run (before ++ later) = (s.run (before ++ x :: later)).eraseIdx before.length ∧
      s.after (before ++ later) = s.after (before ++ x :: later) := by
  have hrun : (s.after before).run (x :: later) = ((s.after before).step x).1 :: (s.after before).run later := by
    rw [run, h]
  constructor
  · have hlength : (s.run before).length ≤ before.length := Nat.le_of_eq (length_run s before)
    rw [run_append, run_append, hrun, List.eraseIdx_append_of_length_le hlength, length_run, Nat.sub_self,
      List.eraseIdx_cons_zero]
  · rw [after_append, after_append, after_cons, h]

/-! ### Marks -/

theorem mem_marks {marked : List String} {id : String} :
    id ∈ x.marks marked ↔ (id ∈ marked ∧ x ≠ .unmark id) ∨ x = .mark id := by
  cases x with
  | mark other => simp [Step.marks, eq_comm (a := id)]
  | unmark other => simp [Step.marks, eq_comm (a := id)]
  | consider | load | hold | drop | matching | resolve => simp [Step.marks]

/-- **An id is marked by the last step that marks or unmarks it**; without such a step it stays as it was. -/
theorem mem_marked_after {id : String} : id ∈ (s.after steps).marked ↔
    (id ∈ s.marked ∧ .unmark id ∉ steps) ∨ ∃ before later, steps = before ++ .mark id :: later ∧ .unmark id ∉ later := by
  rw [after_eq]
  dsimp only
  generalize s.marked = marked
  induction steps generalizing marked with
  | nil => simp
  | cons x rest ih =>
    have hlater : (∃ before later, x :: rest = before ++ .mark id :: later ∧ .unmark id ∉ later) ↔
        (x = .mark id ∧ .unmark id ∉ rest) ∨
          ∃ before later, rest = before ++ .mark id :: later ∧ .unmark id ∉ later := by
      constructor
      · rintro ⟨before, later, heq, hnot⟩
        rcases List.cons_eq_append_iff.1 heq with ⟨-, hmark⟩ | ⟨before', -, hrest⟩
        · obtain ⟨rfl, rfl⟩ := List.cons.inj hmark
          exact Or.inl ⟨rfl, hnot⟩
        · exact Or.inr ⟨before', later, hrest, hnot⟩
      · rintro (⟨rfl, hnot⟩ | ⟨before, later, rfl, hnot⟩)
        · exact ⟨[], rest, rfl, hnot⟩
        · exact ⟨x :: before, later, rfl, hnot⟩
    rw [List.foldl_cons, ih, mem_marks, hlater, List.mem_cons, not_or, ne_comm, or_and_right, and_assoc, or_assoc]

/-! ### Decisions -/

/-- **What a decision depends on**: the request, the documents, and which ids are marked, not how often or in which
order. -/
theorem same_resolution {s t : Session} (hrequest : s.request = t.request) (hdocuments : s.documents = t.documents)
    (hmarked : ∀ id, id ∈ s.marked ↔ id ∈ t.marked) :
    (s.request.decide s.documents s.marked).map Decision.resolution
      = (t.request.decide t.documents t.marked).map Decision.resolution := by
  rw [hrequest, hdocuments]
  cases ha : t.request.catalogue.available t.documents with
  | error e => rw [Request.decide_eq_error_iff.2 ha, Request.decide_eq_error_iff.2 ha]
  | ok answered =>
    have havailable : ∀ id, (firstSeen (answered ++ s.marked)).contains id = (firstSeen (answered ++ t.marked)).contains id := by
      intro id
      rw [Bool.eq_iff_iff, List.contains_iff_mem, List.contains_iff_mem, mem_firstSeen, mem_firstSeen, List.mem_append,
        List.mem_append, hmarked]
    rw [Request.decide_eq_ok ha, Request.decide_eq_ok ha]
    simp only [Except.map, havailable]

end Session

end Disclosure
