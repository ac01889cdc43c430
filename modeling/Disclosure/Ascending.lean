/-!
# Disclosure.Ascending — sorting when some things have no place

`ascending` sorts by an order that says of two things whether one comes before the other.  When the order is total,
the result is sorted, and things of equal place keep their order.  When some things have no place, the result depends on
how it is found: the run at the start of the list is kept if it ascends, and turned round if it descends at every step;
then every further thing is put into its place, which is found by halving.

* `length_ascending`: nothing is lost.
-/

namespace Disclosure

open List

/-- The things at the start of a list as long as each stands to the one before it as `follows` says, and the rest. -/
def runAfter {α : Type} (follows : α → α → Bool) (a : α) : List α → List α × List α
  | [] => ([a], [])
  | b :: rest =>
    if follows a b then
      let (run, rest) := runAfter follows b rest
      (a :: run, rest)
    else ([a], b :: rest)

/-- The run at the start of a list in ascending order, and the rest. -/
def initialRun {α : Type} (before : α → α → Bool) : List α → List α × List α
  | [] => ([], [])
  | [a] => ([a], [])
  | a :: b :: rest =>
    if before b a then
      let (run, rest) := runAfter (fun x y => before y x) a (b :: rest)
      (run.reverse, rest)
    else runAfter (fun x y => !before y x) a (b :: rest)

/-- The number of things that `x` stands behind, between `low` and `high`. -/
def placeOf {α : Type} (before : α → α → Bool) (sorted : List α) (x : α) : Nat → Nat → Nat → Nat
  | 0, low, _ => low
  | steps + 1, low, high =>
    if low < high then
      let middle := (low + high) / 2
      if sorted[middle]?.any (before x) then placeOf before sorted x steps low middle
      else placeOf before sorted x steps (middle + 1) high
    else low

/-- Puts a thing into its place. -/
def putInPlace {α : Type} (before : α → α → Bool) (sorted : List α) (x : α) : List α :=
  let place := placeOf before sorted x sorted.length 0 sorted.length
  sorted.take place ++ x :: sorted.drop place

/-- The list in ascending order. -/
def ascending {α : Type} (xs : List α) (before : α → α → Bool) : List α :=
  let (run, rest) := initialRun before xs
  rest.foldl (putInPlace before) run

theorem length_runAfter {α : Type} (follows : α → α → Bool) (a : α) (xs : List α) :
    (runAfter follows a xs).1.length + (runAfter follows a xs).2.length = xs.length + 1 := by
  induction xs generalizing a with
  | nil => rfl
  | cons b rest ih =>
    rw [runAfter]
    split
    · have := ih b
      simp only [length_cons]
      omega
    · simp only [length_cons, length_nil]
      omega

theorem length_initialRun {α : Type} (before : α → α → Bool) (xs : List α) :
    (initialRun before xs).1.length + (initialRun before xs).2.length = xs.length := by
  match xs with
  | [] => rfl
  | [_] => rfl
  | a :: b :: rest =>
    rw [initialRun]
    split
    · have := length_runAfter (fun x y => before y x) a (b :: rest)
      simp only [length_reverse, length_cons] at this ⊢
      omega
    · have := length_runAfter (fun x y => !before y x) a (b :: rest)
      simp only [length_cons] at this ⊢
      omega

theorem length_putInPlace {α : Type} (before : α → α → Bool) (sorted : List α) (x : α) :
    (putInPlace before sorted x).length = sorted.length + 1 := by
  simp only [putInPlace, length_append, length_cons, length_take, length_drop]
  omega

theorem length_ascending {α : Type} (xs : List α) (before : α → α → Bool) :
    (ascending xs before).length = xs.length := by
  have hf : ∀ (rest run : List α), (rest.foldl (putInPlace before) run).length = run.length + rest.length := by
    intro rest
    induction rest with
    | nil => intro run; rfl
    | cons x rest ih =>
      intro run
      rw [foldl_cons, ih, length_putInPlace, length_cons]
      omega
  unfold ascending
  dsimp only
  rw [hf, length_initialRun]

end Disclosure
