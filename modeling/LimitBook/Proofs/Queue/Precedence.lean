import LimitBook.Proofs.Queue
import Mathlib.Data.List.Nodup

/-!
Who stands before whom in a queue. Orders that leave change nothing about the others, and a newcomer stands behind
everybody whose price is as good as its own and before everybody else.
-/

namespace LimitBook.Queue

/-- The order of one number stands before that of another. -/
def Precedes (queue : List Order) (first second : OrderId) : Prop := [first, second].Sublist (queue.map Order.id)

/-- Whether an order stands before another is settled by going along the queue. -/
instance (queue : List Order) (first second : OrderId) : Decidable (Precedes queue first second) :=
  inferInstanceAs (Decidable ([first, second].Sublist (queue.map Order.id)))

variable {side : Side} {order x y : Order} {queue later : List Order} {first second : OrderId}

section Precedes

/-- Whoever stands before somebody stands in the queue. -/
theorem Precedes.mem_first (precedes : Precedes queue first second) : first ∈ queue.map Order.id :=
  precedes.subset (by simp)

/-- Whoever stands behind somebody stands in the queue. -/
theorem Precedes.mem_second (precedes : Precedes queue first second) : second ∈ queue.map Order.id :=
  precedes.subset (by simp)

/-- In a list without repetitions standing before somebody is having the smaller position. -/
theorem idxOf_lt_of_pair_sublist {numbers : List OrderId} (distinct : numbers.Nodup)
    (pair : [first, second].Sublist numbers) : numbers.idxOf first < numbers.idxOf second := by
  -- In a list without repetition every number is found at its own place, and these places rise.
  have rising : numbers.Pairwise fun a b => numbers.idxOf a < numbers.idxOf b := by
    rw [List.pairwise_iff_getElem]
    intro i j inRange inRange' less
    rwa [distinct.idxOf_getElem i inRange, distinct.idxOf_getElem j inRange']
  simpa using rising.sublist pair

/-- Nobody stands before itself. -/
theorem Precedes.ne (distinct : (queue.map Order.id).Nodup) (precedes : Precedes queue first second) :
    first ≠ second := by
  -- Nobody has a place ahead of its own.
  rintro rfl
  exact Nat.lt_irrefl _ (idxOf_lt_of_pair_sublist distinct precedes)

/-- Of two orders only one stands before the other. -/
theorem Precedes.asymm (distinct : (queue.map Order.id).Nodup) (precedes : Precedes queue first second) :
    ¬Precedes queue second first := by
  -- Of two places only one is ahead of the other.
  intro reversed
  exact Nat.lt_asymm (idxOf_lt_of_pair_sublist distinct precedes) (idxOf_lt_of_pair_sublist distinct reversed)

/-- Nobody stands before the front of a queue. -/
theorem not_precedes_front (distinct : (queue.map Order.id).Nodup)
    (front : (queue.map Order.id).head? = some second) : ¬Precedes queue first second := by
  intro precedes
  -- The front stands before whoever else is in the queue.
  have reversed : Precedes queue second first := by
    obtain ⟨behind, numbers⟩ := List.head?_eq_some_iff.mp front
    have member := precedes.mem_first
    have differs := precedes.ne distinct
    unfold Precedes
    rw [numbers] at member ⊢
    have waits : first ∈ behind := (List.mem_cons.mp member).resolve_left differs
    exact (List.singleton_sublist.mpr waits).cons_cons second
  exact precedes.asymm distinct reversed

/-- Of two different orders in a queue one stands before the other. -/
theorem precedes_or_precedes (isFirst : first ∈ queue.map Order.id) (isSecond : second ∈ queue.map Order.id)
    (differs : first ≠ second) : Precedes queue first second ∨ Precedes queue second first := by
  unfold Precedes
  generalize queue.map Order.id = numbers at *
  induction numbers with
  | nil => simp at isFirst
  | cons number numbers ih =>
    -- Whoever comes first in the list stands before the other.
    rcases List.mem_cons.mp isFirst with rfl | furtherFirst
    · have further : second ∈ numbers := (List.mem_cons.mp isSecond).resolve_left (Ne.symm differs)
      exact .inl ((List.singleton_sublist.mpr further).cons_cons first)
    · rcases List.mem_cons.mp isSecond with rfl | furtherSecond
      · exact .inr ((List.singleton_sublist.mpr furtherFirst).cons_cons second)
      · exact (ih furtherFirst furtherSecond).imp (·.cons number) (·.cons number)

/-- Two orders that stay in a queue keep their places among each other, whoever leaves it. -/
theorem Precedes.of_shrinks (precedes : Precedes queue first second) (distinct : (queue.map Order.id).Nodup)
    (shrinks : (later.map Order.id).Sublist (queue.map Order.id)) (firstStays : first ∈ later.map Order.id)
    (secondStays : second ∈ later.map Order.id) : Precedes later first second := by
  -- If they stood the other way round now, they would have done so before.
  refine (precedes_or_precedes firstStays secondStays (precedes.ne distinct)).resolve_right ?_
  intro reversed
  exact precedes.asymm distinct (List.Sublist.trans reversed shrinks)

/-- What holds of every order and those behind it holds of an order that stands before another. -/
theorem Precedes.rel {R : Order → Order → Prop} (precedes : Precedes queue x.id y.id)
    (distinct : (queue.map Order.id).Nodup) (related : queue.Pairwise R) (isFirst : x ∈ queue) (isSecond : y ∈ queue) :
    R x y := by
  -- The two numbers come from two orders of the queue, which are these.
  obtain ⟨pair, within, numbers⟩ := List.sublist_map_iff.mp precedes
  obtain ⟨x', behind, rfl, sameFirst, numbers⟩ := List.map_eq_cons_iff.mp numbers.symm
  obtain ⟨y', further, rfl, sameSecond, -⟩ := List.map_eq_cons_iff.mp numbers
  obtain rfl := List.inj_on_of_nodup_map distinct (within.subset (by simp)) isFirst sameFirst
  obtain rfl := List.inj_on_of_nodup_map distinct (within.subset (by simp)) isSecond sameSecond
  exact (List.pairwise_cons.mp (related.sublist within)).1 y' (by simp)

end Precedes

section Join

/-- A newcomer divides a queue: before it stand those it is not better than, behind it all others. -/
theorem join_eq_append (sorted : InPriority side queue) (order : Order) :
    ∃ front back, queue = front ++ back ∧ join side order queue = front ++ order :: back ∧
      (∀ other ∈ front, ¬side.Better order.price other.price) ∧
      ∀ other ∈ back, side.Better order.price other.price := by
  unfold InPriority at sorted
  induction queue with
  | nil => exact ⟨[], [], rfl, rfl, by simp, by simp⟩
  | cons head behind ih =>
    obtain ⟨ahead, sorted⟩ := List.pairwise_cons.mp sorted
    unfold join
    split
    · next better =>
      -- The newcomer is better than the first order, and so than those behind it.
      refine ⟨[], head :: behind, rfl, rfl, by simp, fun other member => ?_⟩
      rcases List.mem_cons.mp member with rfl | further
      · exact better
      · exact Side.better_of_better_of_not_better better (ahead other further)
    · next notBetter =>
      -- The newcomer goes on behind the first order.
      obtain ⟨front, back, rfl, joined, passed, stops⟩ := ih sorted
      refine ⟨head :: front, back, rfl, by rw [joined]; rfl, fun other member => ?_, stops⟩
      rcases List.mem_cons.mp member with rfl | further
      · exact notBetter
      · exact passed other further

/-- What holds along a queue holds along it with a newcomer, if it holds between the newcomer and everybody else. -/
theorem pairwise_join {R : Order → Order → Prop} (sorted : InPriority side queue) (related : queue.Pairwise R)
    (passed : ∀ other ∈ queue, ¬side.Better order.price other.price → R other order)
    (stops : ∀ other ∈ queue, side.Better order.price other.price → R order other) :
    (join side order queue).Pairwise R := by
  obtain ⟨front, back, rfl, joined, notBetter, better⟩ := join_eq_append sorted order
  rw [joined]
  obtain ⟨inFront, inBack, across⟩ := List.pairwise_append.mp related
  refine List.pairwise_append.mpr ⟨inFront, List.pairwise_cons.mpr ⟨fun other member => ?_, inBack⟩, ?_⟩
  · exact stops other (List.mem_append_right front member) (better other member)
  · intro ahead isAhead other member
    -- Behind somebody in front stands the newcomer, or somebody who stood behind before.
    rcases List.mem_cons.mp member with rfl | further
    · exact passed ahead (List.mem_append_left back isAhead) (notBetter ahead isAhead)
    · exact across ahead isAhead other further

end Join

end LimitBook.Queue
