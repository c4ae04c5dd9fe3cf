import Mathlib.Data.List.Nodup
import Mathlib.Data.List.Infix
import Mathlib.Data.List.Range
import Mathlib.Data.Nat.ModEq

/-!
# Ring order and shortest prefixes

A ring is a row of `count` slots of which the last is followed by the first.
`order count start` lists its positions from `start` on.  A scan of a ring
visits the positions in this order and acts on a prefix of them, often the
shortest one that has some property.
-/

namespace Ring

universe u

/-! ## Ring order -/

/-- The positions of a ring of `count` slots, in ring order from `start`. -/
def order (count start : Nat) : List Nat :=
  (List.range count).map fun offset => (start + offset) % count

variable {count start : Nat}

@[simp]
theorem length_order : (order count start).length = count := by
  simp [order]

theorem getElem?_order {offset : Nat} (inside : offset < count) :
    (order count start)[offset]? = some ((start + offset) % count) := by
  simp [order, inside]

theorem lt_of_mem_order
    {position : Nat} (member : position ∈ order count start) :
    position < count := by
  simp only [order, List.mem_map, List.mem_range] at member
  obtain ⟨offset, inside, rfl⟩ := member
  exact Nat.mod_lt _ (Nat.zero_lt_of_lt inside)

/-- Every position is met on a full circle. -/
theorem exists_offset
    (start : Nat) {position : Nat} (inside : position < count) :
    ∃ offset, offset < count ∧ (start + offset) % count = position := by
  have positive : 0 < count := Nat.zero_lt_of_lt inside
  have startBound : start % count < count := Nat.mod_lt _ positive
  refine
    ⟨(position + (count - start % count)) % count,
      Nat.mod_lt _ positive, ?_⟩
  rw [Nat.add_mod, Nat.mod_mod, ← Nat.add_mod_mod, Nat.mod_mod,
    Nat.add_mod_mod]
  have circle :
      start % count + (position + (count - start % count)) =
        position + count := by
    omega
  rw [circle, Nat.add_mod_right, Nat.mod_eq_of_lt inside]

theorem mem_order {position : Nat} :
    position ∈ order count start ↔ position < count := by
  constructor
  · exact lt_of_mem_order
  · intro inside
    obtain ⟨offset, offsetBound, same⟩ := exists_offset start inside
    simp only [order, List.mem_map, List.mem_range]
    exact ⟨offset, offsetBound, same⟩

/-- Different offsets below a full circle give different positions. -/
theorem offset_injective
    {first second : Nat}
    (firstInside : first < count) (secondInside : second < count)
    (same : (start + first) % count = (start + second) % count) :
    first = second := by
  have congruent : start + first ≡ start + second [MOD count] := same
  have cancelled : first ≡ second [MOD count] :=
    Nat.ModEq.add_left_cancel' start congruent
  exact Nat.ModEq.eq_of_lt_of_lt cancelled firstInside secondInside

/-- A walk is back at its start after a full circle and not before. -/
theorem back_at_start_iff
    {steps : Nat} (startBound : start < count) (inside : steps < count) :
    (start + (steps + 1)) % count = start ↔ steps + 1 = count := by
  constructor
  · intro back
    by_contra incomplete
    have smaller : steps + 1 < count := by omega
    have atStart :
        (start + (steps + 1)) % count = (start + 0) % count := by
      rw [back, Nat.add_zero, Nat.mod_eq_of_lt startBound]
    have impossible :=
      offset_injective smaller (Nat.zero_lt_of_lt smaller) atStart
    omega
  · intro circle
    rw [circle, Nat.add_mod_right, Nat.mod_eq_of_lt startBound]

theorem nodup_order : (order count start).Nodup := by
  refine List.Nodup.map_on ?_ List.nodup_range
  intro first firstMember second secondMember same
  exact
    offset_injective (List.mem_range.mp firstMember)
      (List.mem_range.mp secondMember) same

theorem order_perm (count start : Nat) :
    (order count start).Perm (List.range count) := by
  rw [List.perm_ext_iff_of_nodup nodup_order List.nodup_range]
  intro position
  rw [mem_order, List.mem_range]

/-- The positions at `length` offsets from `offset` on. -/
def segment (count start offset length : Nat) : List Nat :=
  (List.range length).map fun further =>
    (start + (offset + further)) % count

@[simp]
theorem length_segment {offset length : Nat} :
    (segment count start offset length).length = length := by
  simp [segment]

theorem getLast?_segment {offset length : Nat} (nonempty : 0 < length) :
    (segment count start offset length).getLast? =
      some ((start + (offset + (length - 1))) % count) := by
  rw [List.getLast?_eq_getElem?, length_segment, segment]
  have inside : length - 1 < length := by omega
  simp [inside]

theorem order_eq_segments
    {front back : Nat} (whole : front + back = count) :
    order count start =
      segment count start 0 front ++ segment count start front back := by
  subst whole
  simp [order, segment, List.range_add, Function.comp_def]

theorem mem_segment
    {offset length read : Nat} (inside : offset + length ≤ count)
    (readInside : read < count) :
    (start + read) % count ∈ segment count start offset length ↔
      offset ≤ read ∧ read < offset + length := by
  simp only [segment, List.mem_map, List.mem_range]
  constructor
  · intro found
    obtain ⟨further, furtherBound, same⟩ := found
    have offsetBound : offset + further < count := by omega
    have sameOffset := offset_injective offsetBound readInside same
    omega
  · intro between
    refine ⟨read - offset, by omega, ?_⟩
    congr 2
    omega

theorem take_segment
    {offset length shorter : Nat} (bound : shorter ≤ length) :
    (segment count start offset length).take shorter =
      segment count start offset shorter := by
  unfold segment
  rw [← List.map_take, List.take_range, Nat.min_eq_left bound]

theorem take_succ_order {offset : Nat} (inside : offset < count) :
    (order count start).take (offset + 1) =
      (order count start).take offset ++ [(start + offset) % count] := by
  rw [List.take_add_one, getElem?_order inside]
  rfl

/-- The first position with a property, when the earlier ones lack it. -/
theorem find?_order_eq_some
    {property : Nat → Bool} {offset : Nat} (inside : offset < count)
    (earlier :
      ∀ before, before < offset →
        property ((start + before) % count) = false)
    (found : property ((start + offset) % count) = true) :
    (order count start).find? property =
      some ((start + offset) % count) := by
  rw [List.find?_eq_some_iff_getElem]
  have bound : offset < (order count start).length := by
    simpa using inside
  refine ⟨found, offset, bound, ?_, ?_⟩
  · simp [order]
  · intro before beforeBound
    have missed := earlier before beforeBound
    simpa [order] using missed

theorem find?_order_eq_none
    {property : Nat → Bool}
    (missed :
      ∀ position, position < count → property position = false) :
    (order count start).find? property = none := by
  rw [List.find?_eq_none]
  intro position member
  rw [missed position (lt_of_mem_order member)]
  simp

/-! ## Shortest prefixes -/

section Prefixes

variable {α : Type u} {enough : List α → Prop}

/-- `chosen` is the shortest prefix of `items` that is enough. -/
structure Shortest
    (enough : List α → Prop) (items chosen : List α) : Prop where
  initial : chosen <+: items
  sufficient : enough chosen
  least :
    ∀ other, other <+: items → enough other →
      chosen.length ≤ other.length

theorem Shortest.unique
    {items chosen other : List α}
    (first : Shortest enough items chosen)
    (second : Shortest enough items other) :
    chosen = other := by
  have firstLeast := first.least other second.initial second.sufficient
  have secondLeast := second.least chosen first.initial first.sufficient
  have sameLength : chosen.length = other.length := by omega
  exact
    (List.prefix_of_prefix_length_le first.initial second.initial
      firstLeast).eq_of_length sameLength

/-- A property that longer prefixes inherit is first reached by the item
without which it fails. -/
theorem Shortest.of_append
    {items earlier : List α} {last : α}
    (inherited :
      ∀ shorter longer, shorter <+: longer → longer <+: items →
        enough shorter → enough longer)
    (initial : earlier ++ [last] <+: items)
    (sufficient : enough (earlier ++ [last]))
    (lacking : ¬ enough earlier) :
    Shortest enough items (earlier ++ [last]) := by
  refine
    { initial := initial
      sufficient := sufficient
      least := ?_ }
  intro other otherInitial otherEnough
  by_contra shorter
  have earlierInitial : earlier <+: items :=
    (List.prefix_append earlier [last]).trans initial
  have otherBound : other.length ≤ earlier.length := by
    simp only [List.length_append, List.length_singleton] at shorter
    omega
  have otherEarlier : other <+: earlier :=
    List.prefix_of_prefix_length_le otherInitial earlierInitial otherBound
  exact
    lacking
      (inherited other earlier otherEarlier earlierInitial otherEnough)

/-- Where some prefix is enough, there is a shortest one. -/
theorem Shortest.exists_of_initial
    {items candidate : List α}
    (initial : candidate <+: items) (sufficient : enough candidate) :
    ∃ chosen, Shortest enough items chosen := by
  induction size : candidate.length using Nat.strong_induction_on
    generalizing candidate with
  | h length inductionHypothesis =>
      by_cases least :
          ∀ other, other <+: items → enough other →
            candidate.length ≤ other.length
      · exact ⟨candidate, initial, sufficient, least⟩
      · push Not at least
        obtain ⟨other, otherInitial, otherEnough, shorter⟩ := least
        exact
          inductionHypothesis other.length (by omega) otherInitial
            otherEnough rfl

theorem Shortest.nil
    {items : List α} (sufficient : enough []) :
    Shortest enough items [] where
  initial := List.nil_prefix
  sufficient := sufficient
  least := fun _ _ _ => Nat.zero_le _

end Prefixes

end Ring
