import LimitBook.Proofs.Book.Allocation
import LimitBook.Proofs.OrderBook.Withdrawal

/-!
Taking an order out of a tracked book. An order that traded with nobody when it came, and that the next event takes out
again, leaves the book as it was but for the place in its stream and its totals.
-/

namespace LimitBook

namespace Book

variable {book middle : Book} {event : Event} {new : NewOrder} {report : Report}

/-- A new order with nobody in reach trades with nobody. -/
theorem sweepOf_of_inReach_eq_nil (sequence : Sequence) (nobody : book.inReach new = []) :
    book.sweepOf sequence new =
      ⟨[], some (book.arriving sequence new), book.orders.orders new.side.opposite⟩ :=
  sweep_of_apart (Queue.inReach_eq_nil_iff.mp nobody)

/-- Right after an order came in without trading it may be taken out, and it leaves no trace in the queues. -/
theorem Sound.remove_added (sound : book.Sound) (adds : book.Adds event new report middle) (soundMiddle : middle.Sound)
    (untraded : book.sweepOf event.sequence new =
      ⟨[], some (book.arriving event.sequence new), book.orders.orders new.side.opposite⟩) :
    middle.apply ⟨book.market, middle.nextSequence, .remove new.id⟩ =
      .ok (⟨middle.nextSequence, [], none, some (book.arriving event.sequence new), book.top⟩,
        { book with
          cursor := book.cursor.advance.advance
          stats := ((book.stats.recordAdded new.size).recordEvent.recordRemoved new.size).recordEvent }) := by
  have arranged := adds.queues
  have kept := adds.kept
  rw [untraded] at arranged kept
  -- The newcomer has joined its queue, and nothing else has changed in the queues.
  have joins : OrderBook.Requeued book.orders new.side
      (Queue.join new.side (book.arriving event.sequence new) (book.orders.orders new.side)) middle.orders :=
    ⟨arranged.sound, arranged.market, arranged.own, arranged.faced⟩
  have stands : book.arriving event.sequence new ∈ middle.orders.orders new.side := by
    rw [joins.own]
    exact Queue.mem_join.mpr (.inl rfl)
  have market : middle.market = book.market := by rw [kept]; rfl
  have admitted : middle.refusal? ⟨book.market, middle.nextSequence, .remove new.id⟩ = none := by
    unfold refusal?
    rw [if_neg (Classical.not_not.mpr market.symm), if_neg (Classical.not_not.mpr rfl)]
    exact actionRefusal?_remove_eq_none.mpr (OrderBook.rests_of_mem stands)
  obtain ⟨report', last, accepted, takes⟩ := soundMiddle.apply_ok admitted
  obtain ⟨side, order, number, removes⟩ := takes.removes rfl
  -- The order under the newcomer's number is the newcomer, as it came.
  obtain ⟨rfl, rfl⟩ := soundMiddle.orders.eq_of_id_eq removes.member stands number
  have restored : last.orders = book.orders := joins.undone removes.queues sound.orders adds.fresh
  rw [accepted, removes.reported, removes.kept, restored, kept]
  rfl

end Book

/--
Taking an order out takes out that order and nothing else, and undoes its coming.

Only a number that does not rest is refused, and then nothing changes, crossed book or not. An order that rests is
given up with what it has left: its queue closes up, its level loses just that much or closes, and all else is as
before. So an order that traded with nobody and is taken out again at once moves a tracked book along its stream, and
changes the totals, but nothing more.
-/
theorem withdrawal_exact :
    (∀ book : OrderBook, book.Reachable →
      (∀ id error, book.cancel id = .error error ↔ error = .orderNotFound id ∧ ¬book.Rests id) ∧
      (∀ id error after, (OrderBook.cancelInPlace id).on book = (.error error, after) → after = book) ∧
      (∀ side, ∀ order ∈ book.orders side,
        ∃ next, book.cancel order.id = .ok (order, next) ∧ OrderBook.Withdrawn book side order next) ∧
      ∀ order next, book.insert order = .ok next → next.cancel order.id = .ok (order, book)) ∧
    ∀ book : Book, book.Reachable → ∀ event new report middle,
      event.action = .add new → book.apply event = .ok (report, middle) →
      (∀ best, (book.orders.levels new.side.opposite).bestPrice? = some best → ¬new.side.Crosses new.price best) →
      middle.apply ⟨book.market, middle.nextSequence, .remove new.id⟩ =
        .ok (⟨middle.nextSequence, [], none, some (book.arriving event.sequence new), book.top⟩,
          { book with
            cursor := book.cursor.advance.advance
            stats := ((book.stats.recordAdded new.size).recordEvent.recordRemoved new.size).recordEvent }) := by
  refine ⟨fun book reached => ⟨fun id error => reached.sound.cancel_eq_error_iff, fun id error after refused => ?_,
    fun side order member => reached.sound.cancel_withdraws member,
    fun order next accepted => reached.sound.cancel_insert accepted⟩,
    fun book reached event new report middle brings accepted apart => ?_⟩
  · -- In place a refusal comes before the first write.
    rw [OrderBook.on_cancelInPlace] at refused
    exact (Change.whole_eq_error.mp refused).2
  · have sound := reached.sound
    have takes := (sound.takes accepted).2
    exact sound.remove_added (takes.adds brings) (takes.sound sound)
      (Book.sweepOf_of_inReach_eq_nil event.sequence (sound.inReach_eq_nil_iff.mpr apart))

/-- The locked book after two units of its seller were taken, which leaves it crossed. -/
def OrderBook.nibbled : OrderBook := locked.perform (.fillBest .sell 2)

/-- Serving less than the seller has left is allowed, so the nibbled book is reachable. -/
theorem OrderBook.reachable_nibbled : nibbled.Reachable := by
  -- The order in front is the one that was put in, and it is not used up.
  refine .step reachable_locked fun front isFront => ?_
  have isSeller : locked.bestOrder? .sell = some ⟨⟨1⟩, ⟨7⟩, ⟨1⟩, .sell, ⟨100⟩, 5, 5, 0, 0⟩ := by decide +kernel
  obtain rfl := Option.some.inj (isSeller.symm.trans isFront)
  decide

/-- The nibbled seller is given up with the three that it has left, and a number that never came is not found. -/
theorem withdrawal_exact_nibbled :
    (∃ next, OrderBook.nibbled.cancel ⟨1⟩ = .ok (⟨⟨1⟩, ⟨7⟩, ⟨1⟩, .sell, ⟨100⟩, 5, 3, 0, 0⟩, next) ∧
      next.orders .buy = OrderBook.nibbled.orders .buy ∧ next.index[(⟨1⟩ : OrderId)]? = none) ∧
    OrderBook.nibbled.cancel ⟨9⟩ = .error (.orderNotFound ⟨9⟩) ∧
    (∃ next, OrderBook.nibbled.insert ⟨⟨3⟩, ⟨7⟩, ⟨3⟩, .buy, ⟨101⟩, 4, 0, 0, 2⟩ = .ok next ∧
      next.cancel ⟨3⟩ = .ok (⟨⟨3⟩, ⟨7⟩, ⟨3⟩, .buy, ⟨101⟩, 4, 0, 0, 2⟩, OrderBook.nibbled)) ∧
    ∃ report middle next, Book.opened.apply ⟨⟨7⟩, 2, .add ⟨⟨3⟩, ⟨3⟩, 0, .buy, 4, ⟨90⟩⟩⟩ = .ok (report, middle) ∧
      middle.apply ⟨Book.opened.market, middle.nextSequence, .remove ⟨3⟩⟩ = .ok next ∧
      next.2.orders = Book.opened.orders := by
  obtain ⟨direct, tracked⟩ := withdrawal_exact
  obtain ⟨refused, -, withdrawn, undone⟩ := direct _ OrderBook.reachable_nibbled
  obtain ⟨next, removed, leaves⟩ := withdrawn .sell ⟨⟨1⟩, ⟨7⟩, ⟨1⟩, .sell, ⟨100⟩, 5, 3, 0, 0⟩ (by decide +kernel)
  obtain ⟨joined, accepted, -⟩ := @OrderBook.Sound.insert_ok _ ⟨⟨3⟩, ⟨7⟩, ⟨3⟩, .buy, ⟨101⟩, 4, 0, 0, 2⟩
    OrderBook.reachable_nibbled.sound (by decide +kernel) (by decide +kernel)
  obtain ⟨report, middle, added, -⟩ := Book.reachable_opened.sound.apply_ok
    (show Book.opened.refusal? ⟨⟨7⟩, 2, .add ⟨⟨3⟩, ⟨3⟩, 0, .buy, 4, ⟨90⟩⟩⟩ = none by decide +kernel)
  have apart : ∀ best, (Book.opened.orders.levels .sell).bestPrice? = some best → ¬Side.buy.Crosses ⟨90⟩ best := by
    -- The opened book asks for a hundred, and the buyer offers less.
    intro best isBest
    have hundred : (Book.opened.orders.levels .sell).bestPrice? = some ⟨100⟩ := by decide +kernel
    obtain rfl := Option.some.inj (hundred.symm.trans isBest)
    decide
  exact ⟨⟨next, removed, leaves.other, leaves.forgotten⟩, (refused _ _).mpr ⟨rfl, by decide +kernel⟩,
    ⟨joined, accepted, undone _ _ accepted⟩, report, middle, _, added,
    tracked _ Book.reachable_opened _ ⟨⟨3⟩, ⟨3⟩, 0, .buy, 4, ⟨90⟩⟩ _ _ rfl added apart, rfl⟩

end LimitBook
