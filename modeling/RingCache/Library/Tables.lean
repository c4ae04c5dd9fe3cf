import Mathlib.Algebra.GroupWithZero.Nat
import Mathlib.Algebra.Order.BigOperators.Group.List
import Mathlib.Algebra.Order.Group.Nat
import Mathlib.Data.Option.Basic

/-!
# Tables updated at one position

A table is a list whose positions are the names of its rows.  A row is read
with `table[position]?` and replaced with `List.set`.
-/

namespace Table

universe u v

variable {α : Type u} {β : Type v}

/-- Reading any row after a present row has been replaced. -/
theorem getElem?_set_of_some
    {table : List α} {position : Nat} {old : α}
    (present : table[position]? = some old) (new : α) (read : Nat) :
    (table.set position new)[read]? =
      if read = position then some new else table[read]? := by
  have bound : position < table.length := by
    rw [List.getElem?_eq_some_iff] at present
    exact present.1
  rw [List.getElem?_set]
  by_cases same : position = read
  · subst same
    simp [bound]
  · simp [same, Ne.symm same]

/-- A table that has not been changed, read as if a row had been replaced by
itself. -/
theorem getElem?_eq_ite_of_some
    {table : List α} {position : Nat} {row : α}
    (present : table[position]? = some row) (read : Nat) :
    table[read]? = if read = position then some row else table[read]? := by
  by_cases same : read = position
  · rw [if_pos same, same]
    exact present
  · rw [if_neg same]

/-- A value that is neither the old nor the new row is found where it was. -/
theorem getElem?_set_iff_of_ne
    {table : List α} {position : Nat} {old new value : α}
    (present : table[position]? = some old)
    (oldOther : old ≠ value) (newOther : new ≠ value) (read : Nat) :
    (table.set position new)[read]? = some value ↔
      table[read]? = some value := by
  rw [getElem?_set_of_some present]
  by_cases same : read = position
  · subst same
    simp [present, oldOther, newOther]
  · simp [same]

/-- Replacing one row changes a total over the rows by that row's share. -/
theorem sum_map_set
    (weight : α → Nat) :
    ∀ {table : List α} {position : Nat} {old : α} (new : α),
      table[position]? = some old →
        ((table.set position new).map weight).sum + weight old =
          (table.map weight).sum + weight new
  | [], position, old, new, present => by
      simp at present
  | head :: tail, 0, old, new, present => by
      have same : head = old := by simpa using present
      subst head
      simp only [List.set_cons_zero, List.map_cons, List.sum_cons]
      omega
  | head :: tail, position + 1, old, new, present => by
      have later : tail[position]? = some old := by
        simpa using present
      have inductionHypothesis := sum_map_set weight new later
      simp only [List.set_cons_succ, List.map_cons, List.sum_cons]
      omega

/-- A row weighs no more than the whole table. -/
theorem le_sum_map
    (weight : α → Nat) {table : List α} {position : Nat} {row : α}
    (present : table[position]? = some row) :
    weight row ≤ (table.map weight).sum := by
  have member : row ∈ table := List.mem_of_getElem? present
  exact List.le_sum_of_mem (List.mem_map_of_mem member)

/-- Two tables whose rows weigh the same have the same total. -/
theorem sum_map_eq_of_rel
    (weight : α → Nat) (share : β → Nat) :
    ∀ {table : List α} {mates : List β},
      (∀ position : Nat,
        Option.Rel (fun row mate => weight row = share mate)
          table[position]? mates[position]?) →
        (table.map weight).sum = (mates.map share).sum
  | [], [], _ => rfl
  | [], mate :: rest, related => by
      have first := related 0
      simp only [List.getElem?_nil, List.getElem?_cons_zero] at first
      cases first
  | row :: tail, [], related => by
      have first := related 0
      simp only [List.getElem?_nil, List.getElem?_cons_zero] at first
      cases first
  | row :: tail, mate :: rest, related => by
      have first := related 0
      simp only [List.getElem?_cons_zero] at first
      cases first with
      | some same =>
          have others :=
            sum_map_eq_of_rel weight share
              (fun position => by
                simpa using related (position + 1))
          simp only [List.map_cons, List.sum_cons, same, others]

end Table
