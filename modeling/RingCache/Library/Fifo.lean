import Mathlib.Algebra.GroupWithZero.Nat
import Mathlib.Algebra.Order.BigOperators.Group.List
import Mathlib.Algebra.Order.Group.Nat

/-!
# A first-in first-out store with a byte limit and a slot limit

The items are listed from the oldest to the newest.  An item that exceeds the
byte limit is refused.  For any other one the oldest items leave until the
bytes fit, and the item becomes the newest one, unless all slots are still
taken.
-/

namespace Fifo

universe u

variable {α : Type u} (size : α → Nat) (capacity slots : Nat)

def total (queue : List α) : Nat :=
  (queue.map size).sum

/-- Drop the oldest items until `needed` more bytes fit. -/
def makeRoom (needed : Nat) : List α → List α
  | [] => []
  | oldest :: rest =>
      if total size (oldest :: rest) + needed ≤ capacity then
        oldest :: rest
      else
        makeRoom needed rest

/-- The queue after an item has asked for its place. -/
def enqueue (queue : List α) (item : α) : List α :=
  if capacity < size item then
    queue
  else
    let kept := makeRoom size capacity (size item) queue
    if kept.length = slots then queue else kept ++ [item]

/-- The queue after a sequence of items, from the empty one. -/
def run (items : List α) : List α :=
  items.foldl (enqueue size capacity slots) []

variable {size capacity slots}

theorem run_append (items : List α) (item : α) :
    run size capacity slots (items ++ [item]) =
      enqueue size capacity slots (run size capacity slots items) item := by
  simp [run]

theorem makeRoom_of_fits
    {needed : Nat} {queue : List α}
    (fits : total size queue + needed ≤ capacity) :
    makeRoom size capacity needed queue = queue := by
  cases queue with
  | nil =>
      rfl
  | cons oldest rest =>
      rw [makeRoom, if_pos fits]

/-- What is dropped is the shortest prefix whose departure makes room. -/
theorem makeRoom_eq_drop
    {needed dropped : Nat} {queue : List α}
    (fits : total size (queue.drop dropped) + needed ≤ capacity)
    (least :
      ∀ fewer, fewer < dropped →
        ¬ total size (queue.drop fewer) + needed ≤ capacity) :
    makeRoom size capacity needed queue = queue.drop dropped := by
  induction queue generalizing dropped with
  | nil =>
      simp [makeRoom]
  | cons oldest rest inductionHypothesis =>
      cases dropped with
      | zero =>
          rw [List.drop_zero] at fits ⊢
          exact makeRoom_of_fits fits
      | succ dropped =>
          have short := least 0 (Nat.succ_pos _)
          rw [List.drop_zero] at short
          rw [makeRoom, if_neg short]
          refine inductionHypothesis fits ?_
          intro fewer smaller
          exact least (fewer + 1) (by omega)

variable (size capacity) in
theorem makeRoom_suffix (needed : Nat) (queue : List α) :
    makeRoom size capacity needed queue <:+ queue := by
  induction queue with
  | nil =>
      exact List.suffix_rfl
  | cons oldest rest inductionHypothesis =>
      rw [makeRoom]
      split
      · exact List.suffix_rfl
      · exact inductionHypothesis.trans (List.suffix_cons oldest rest)

/-- Items leave in the order in which they came, and the newest one is the last
to leave. -/
theorem enqueue_cases (queue : List α) (item : α) :
    enqueue size capacity slots queue item = queue ∨
      ∃ dropped kept,
        queue = dropped ++ kept ∧
          enqueue size capacity slots queue item = kept ++ [item] := by
  unfold enqueue
  split
  · exact Or.inl rfl
  · dsimp only
    split
    · exact Or.inl rfl
    · obtain ⟨dropped, same⟩ :=
        makeRoom_suffix size capacity (size item) queue
      exact Or.inr ⟨dropped, _, same.symm, rfl⟩

end Fifo
