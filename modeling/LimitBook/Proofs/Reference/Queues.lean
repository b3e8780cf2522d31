import LimitBook.Proofs.OrderBook.Uncrossed
import LimitBook.Proofs.Reference

/-!
How a list of live orders answers for the queue of a side. At every price the two hold the same orders one after
another, so that the scans of the list find what stands in front of the queue, and both change in the same way.
-/

namespace LimitBook

namespace Reference

/-- A list of live orders holds a queue: at every price, its orders of that side are those of the queue, in order. -/
def Lists (live : List Order) (side : Side) (queue : List Order) : Prop :=
  ∀ price, Queue.atPrice queue price = live.filter fun order => order.side = side ∧ order.price = price

variable {live queue : List Order} {side : Side} {order : Order}

/-- Nobody is live and nobody queues. -/
theorem Lists.nil (side : Side) : Lists [] side [] := fun _ => rfl

/-- Those who queue are the live orders of the side. -/
theorem Lists.mem_iff (lists : Lists live side queue) : order ∈ queue ↔ order ∈ live ∧ order.side = side := by
  -- Look at the price of the order in question, where both hold the same.
  have here : order ∈ Queue.atPrice queue order.price ↔
      order ∈ live.filter fun other => other.side = side ∧ other.price = order.price := by
    rw [lists order.price]
  simpa [Queue.atPrice] using here

/-- What rests at a price is what the live orders have left there. -/
theorem Lists.sizeAt_eq (lists : Lists live side queue) (price : Price) :
    sizeAt live side price = restingSize (Queue.atPrice queue price) := by
  -- The queue lists at each price what is live there.
  rw [lists price]
  rfl

/-- A new order appended to the list has joined the queue of its side. -/
theorem Lists.append_own (lists : Lists live order.side queue) (sorted : Queue.InPriority order.side queue) :
    Lists (live ++ [order]) order.side (Queue.join order.side order queue) := by
  intro price
  rw [Queue.atPrice_join sorted, List.filter_append, lists price]
  -- At its own price the newcomer is the last one in both, and at others it is in neither.
  by_cases here : order.price = price <;> simp [here]

/-- A new order appended to the list is in no other queue. -/
theorem Lists.append_other (lists : Lists live side queue) (other : order.side ≠ side) :
    Lists (live ++ [order]) side queue := by
  -- A newcomer of the other side is seen at no price of this one.
  intro price
  rw [List.filter_append, lists price]
  simp [other]

/-- Deleting a number from the list deletes it from the queue. -/
theorem Lists.remove (lists : Lists live side queue) (id : OrderId) :
    Lists (live.filter (·.id ≠ id)) side (queue.filter (·.id ≠ id)) := by
  intro price
  -- The tests for number and place may be made in either order.
  have same := congrArg (List.filter (·.id ≠ id)) (lists price)
  unfold Queue.atPrice at same ⊢
  rw [List.filter_filter] at same ⊢
  simp only [Bool.and_comm] at same ⊢
  rw [same, List.filter_filter, List.filter_filter]
  simp only [Bool.and_comm]

/-- A change that touches the first of a queue only leaves what is left of it in front of the others. -/
theorem filterMap_front {change : Order → Option Order} {front : Order} {waiting : List Order}
    (others : ∀ other ∈ waiting, change other = some other) :
    (front :: waiting).filterMap change = (change front).toList ++ waiting := by
  -- The change is for the front order only: it stays as it became, or is gone.
  have kept : waiting.filterMap change = waiting := (List.filterMap_congr others).trans List.filterMap_some
  cases changed : change front with
  | none => rw [List.filterMap_cons_none changed, kept, Option.toList_none, List.nil_append]
  | some left => rw [List.filterMap_cons_some changed, kept, Option.toList_some, List.singleton_append]

/-- A change that leaves everybody under its number, or deletes it, brings in no number. -/
theorem ids_filterMap_sublist {change : Order → Option Order}
    (sameId : ∀ before after, change before = some after → after.id = before.id) (orders : List Order) :
    ((orders.filterMap change).map Order.id).Sublist (orders.map Order.id) := by
  -- Going along the list, a deleted order takes its number with it.
  induction orders with
  | nil => exact .refl _
  | cons first later ih =>
    cases changed : change first with
    | none =>
      rw [List.filterMap_cons_none changed]
      exact ih.cons first.id
    | some left =>
      rw [List.filterMap_cons_some changed, List.map_cons, List.map_cons, sameId first left changed]
      exact ih.cons_cons first.id

/-- A change that does not affect a test may come before the test or after it. -/
theorem filter_filterMap_comm {change : Order → Option Order} {test : Order → Bool}
    (same : ∀ before after, change before = some after → test after = test before) (orders : List Order) :
    (orders.filterMap change).filter test = (orders.filter test).filterMap change := by
  rw [List.filter_filterMap, List.filterMap_filter]
  refine List.filterMap_congr fun order _ => ?_
  -- Whoever is deleted by the change is missing in the end, tested or not.
  cases changed : change order with
  | none => simp
  | some image => simp [same order image changed, Option.filter]

/-- A change that leaves everybody at its place, or deletes it, changes the list and the queue alike. -/
theorem Lists.filterMap (lists : Lists live side queue) {change : Order → Option Order}
    (inPlace : ∀ before after, change before = some after → after.side = before.side ∧ after.price = before.price) :
    Lists (live.filterMap change) side (queue.filterMap change) := by
  intro price
  -- Neither the price nor the side of anybody changes, so both tests may come first.
  have samePrice : ∀ before after, change before = some after →
      decide (after.price = price) = decide (before.price = price) := by
    intro before after changed
    rw [(inPlace before after changed).2]
  have samePlace : ∀ before after, change before = some after →
      decide (after.side = side ∧ after.price = price) = decide (before.side = side ∧ before.price = price) := by
    intro before after changed
    rw [(inPlace before after changed).1, (inPlace before after changed).2]
  have atPrice := congrArg (List.filterMap change) (lists price)
  unfold Queue.atPrice at atPrice ⊢
  rw [filter_filterMap_comm samePrice, filter_filterMap_comm samePlace]
  exact atPrice

/-- The best-priced live order of a side is the first of its queue. -/
theorem Lists.best?_eq (lists : Lists live side queue) (sorted : Queue.InPriority side queue) :
    best? live side = queue.head? := by
  cases queue with
  | nil =>
    -- Nobody is live on this side, so the scan ends without a result.
    unfold best?
    rw [List.head?_nil, List.find?_eq_none]
    intro order member isBest
    have side := (of_decide_eq_true isBest).1
    exact absurd (lists.mem_iff.mpr ⟨member, side⟩) List.not_mem_nil
  | cons first later =>
    obtain ⟨ahead, -⟩ := List.pairwise_cons.mp sorted
    -- Nobody of the side is better than the first of the queue.
    have noBetter : ∀ other ∈ live, other.side = side → ¬side.Better other.price first.price := by
      intro other member own
      rcases List.mem_cons.mp (lists.mem_iff.mpr ⟨member, own⟩) with rfl | behind
      · exact Side.better_irrefl side _
      · exact ahead other behind
    -- Being the best is standing at the price of the first, so the scan is one for that price.
    have isBest : ∀ order ∈ live,
        decide (order.side = side ∧ ∀ other ∈ live, other.side = side → ¬side.Better other.price order.price) =
          decide (order.side = side ∧ order.price = first.price) := by
      intro order member
      rw [decide_eq_decide]
      constructor
      · intro ⟨own, best⟩
        have stands := lists.mem_iff.mp (List.mem_cons_self : first ∈ first :: later)
        exact ⟨own, Side.eq_of_not_better (noBetter order member own) (best first stands.1 stands.2)⟩
      · intro ⟨own, here⟩
        rw [here]
        exact ⟨own, noBetter⟩
    -- At the price of the first, list and queue begin with the same order.
    have front := congrArg List.head? (lists first.price)
    unfold Queue.atPrice at front
    unfold best?
    rw [← List.head?_filter, List.filter_congr isBest, ← front]
    simp

end Reference

end LimitBook
