import Mathlib.Algebra.BigOperators.Group.Finset.Basic
import Mathlib.Data.List.Perm.Basic
import Mathlib.Logic.Function.Basic

/-!
# Letters and receivers

A letter has an address and contents.  The contents for one receiver in a list
of letters are those of the letters addressed to it, in order.  Lists that
differ only in letters to others have the same contents for the receiver, so
an account of what a receiver gets survives the traffic of everyone else.
Letters that wait for delivery lie in boxes.  A letter that is put into a box
comes after what the box holds for its receiver, and the number of waiting
letters changes with the box that changes.
-/

namespace Mail

universe u v w

variable {γ : Type u} {ι : Type v} {ε : Type w} [DecidableEq ι]
variable (address : γ → ι) (contents : γ → List ε)

/-- What a list of letters brings to one receiver. -/
def contentsFor (receiver : ι) (letters : List γ) : List ε :=
  letters.flatMap fun letter =>
    if address letter = receiver then contents letter else []

variable {address contents} {receiver : ι}

@[simp]
theorem contentsFor_nil :
    contentsFor address contents receiver [] = [] :=
  rfl

@[simp]
theorem contentsFor_append (first second : List γ) :
    contentsFor address contents receiver (first ++ second) =
      contentsFor address contents receiver first ++
        contentsFor address contents receiver second := by
  simp [contentsFor]

theorem contentsFor_cons (letter : γ) (letters : List γ) :
    contentsFor address contents receiver (letter :: letters) =
      (if address letter = receiver then contents letter else []) ++
        contentsFor address contents receiver letters := by
  simp [contentsFor]

theorem contentsFor_cons_self
    {letter : γ} (mine : address letter = receiver) (letters : List γ) :
    contentsFor address contents receiver (letter :: letters) =
      contents letter ++
        contentsFor address contents receiver letters := by
  rw [contentsFor_cons, if_pos mine]

theorem contentsFor_cons_other
    {letter : γ} (other : address letter ≠ receiver)
    (letters : List γ) :
    contentsFor address contents receiver (letter :: letters) =
      contentsFor address contents receiver letters := by
  rw [contentsFor_cons, if_neg other, List.nil_append]

theorem contentsFor_eq_nil
    {letters : List γ}
    (others : ∀ letter ∈ letters, address letter ≠ receiver) :
    contentsFor address contents receiver letters = [] := by
  rw [contentsFor, List.flatMap_eq_nil_iff]
  intro letter member
  exact if_neg (others letter member)

/-- A round of letters, one to each member of a list without repetitions,
brings a member exactly its own letter. -/
theorem contentsFor_round
    {κ : Type*} {home : κ → ι} {letterTo : κ → γ}
    (addressed : ∀ person, address (letterTo person) = home person) :
    ∀ {people : List κ} {person : κ},
      (people.map home).Nodup →
      person ∈ people →
        contentsFor address contents (home person)
            (people.map letterTo) =
          contents (letterTo person)
  | [], person, _, member => by
      simp at member
  | first :: rest, person, distinct, member => by
      obtain ⟨firstAbsent, restDistinct⟩ := List.nodup_cons.mp distinct
      rw [List.map_cons]
      rcases List.mem_cons.mp member with rfl | later
      · rw [contentsFor_cons_self (addressed person),
          contentsFor_eq_nil, List.append_nil]
        intro letter letterMember
        obtain ⟨other, otherMember, rfl⟩ :=
          List.mem_map.mp letterMember
        rw [addressed]
        intro same
        exact firstAbsent (same ▸ List.mem_map_of_mem otherMember)
      · have different : address (letterTo first) ≠ home person := by
          rw [addressed]
          intro same
          exact firstAbsent (same ▸ List.mem_map_of_mem later)
        rw [contentsFor_cons_other different]
        exact contentsFor_round addressed restDistinct later

section Boxes

variable {κ : Type*} [DecidableEq κ]

/-- A letter is put into the box of its home. -/
def deliver
    (home : γ → κ) (boxes : κ → List γ) (letter : γ) : κ → List γ :=
  Function.update boxes (home letter) (boxes (home letter) ++ [letter])

theorem contentsFor_deliver
    {home : γ → κ} {box : κ} {letter : γ}
    (delivered : address letter = receiver → home letter = box)
    (boxes : κ → List γ) :
    contentsFor address contents receiver
        (deliver home boxes letter box) =
      contentsFor address contents receiver (boxes box) ++
        contentsFor address contents receiver [letter] := by
  unfold deliver
  by_cases here : box = home letter
  · subst here
    rw [Function.update_self, contentsFor_append]
  · have other : address letter ≠ receiver :=
      fun mine => here (delivered mine).symm
    rw [Function.update_of_ne here, contentsFor_cons_other other,
      contentsFor_nil, List.append_nil]

/-- Letters that are delivered one after the other come after what the box of
their receiver holds for it. -/
theorem contentsFor_foldl_deliver
    {home : γ → κ} {box : κ} {letters : List γ}
    (delivered :
      ∀ letter ∈ letters,
        address letter = receiver → home letter = box)
    (boxes : κ → List γ) :
    contentsFor address contents receiver
        (letters.foldl (deliver home) boxes box) =
      contentsFor address contents receiver (boxes box) ++
        contentsFor address contents receiver letters := by
  induction letters generalizing boxes with
  | nil =>
      simp
  | cons letter rest inductionRest =>
      have first := delivered letter List.mem_cons_self
      have others :
          ∀ other ∈ rest,
            address other = receiver → home other = box :=
        fun other member =>
          delivered other (List.mem_cons_of_mem letter member)
      rw [List.foldl_cons, inductionRest others,
        contentsFor_deliver first, List.append_assoc,
        ← contentsFor_append, List.singleton_append]

end Boxes

/-- The letters that wait in some boxes. -/
def waiting (boxes : ι → List γ) (homes : Finset ι) : Nat :=
  ∑ home ∈ homes, (boxes home).length

/-- Changing one box changes the number of waiting letters by its share. -/
theorem waiting_update
    (boxes : ι → List γ) {homes : Finset ι} {home : ι}
    (member : home ∈ homes) (letters : List γ) :
    waiting (Function.update boxes home letters) homes +
        (boxes home).length =
      waiting boxes homes + letters.length := by
  unfold waiting
  have others :
      ∑ other ∈ homes.erase home,
          (Function.update boxes home letters other).length =
        ∑ other ∈ homes.erase home, (boxes other).length := by
    apply Finset.sum_congr rfl
    intro other otherMember
    rw [Function.update_of_ne (Finset.ne_of_mem_erase otherMember)]
  rw [← Finset.add_sum_erase homes _ member,
    ← Finset.add_sum_erase homes
      (fun other => (boxes other).length) member, others,
    Function.update_self]
  omega

end Mail
