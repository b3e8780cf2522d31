import LimitBook.Proofs.OrderBook.Sweep

/-! Every book that its own operations can build is sound, whether or not it is crossed. -/

namespace LimitBook.OrderBook

/-- What can be asked of a book directly. -/
inductive Operation where
  | insert (order : Order)
  | cancel (id : OrderId)
  | fillBest (side : Side) (quantity : Quantity)
  | matchCrossed (taker : OrderId)

/-- The book after an operation; one that is refused or finds nobody leaves it as it was. -/
def perform (book : OrderBook) : Operation → OrderBook
  | .insert order =>
    match book.insert order with
    | .ok next => next
    | .error _ => book
  | .cancel id =>
    match book.cancel id with
    | .ok (_, next) => next
    | .error _ => book
  | .fillBest side quantity =>
    match book.fillBest? side quantity with
    | some (_, next) => next
    | none => book
  | .matchCrossed taker => (book.matchCrossed taker).2

/-- Whoever serves an order directly takes no more than it has left; all else may be asked at any time. -/
def Allows (book : OrderBook) : Operation → Prop
  | .fillBest side quantity => ∀ front, book.bestOrder? side = some front → quantity ≤ front.remaining
  | _ => True

/-- A book that finitely many operations build from an empty one. -/
inductive Reachable : OrderBook → Prop
  | empty (market : MarketId) : Reachable (OrderBook.empty market)
  | step {book : OrderBook} {operation : Operation} (reached : Reachable book)
    (allowed : book.Allows operation) : Reachable (book.perform operation)

variable {book : OrderBook}

/-- Inserting leaves a book sound, accepted or not. -/
theorem Sound.perform_insert (sound : book.Sound) (order : Order) : (book.perform (.insert order)).Sound := by
  simp only [OrderBook.perform]
  -- The three outcomes of inserting: the number is taken, the level is full, or the order joins.
  by_cases rests : book.Rests order.id
  · rw [sound.insert_duplicate rests]
    exact sound
  · by_cases room : restingSize (Queue.atPrice (book.orders order.side) order.price) + order.remaining.toNat
        < UInt64.size
    · obtain ⟨next, accepted, requeued⟩ := sound.insert_ok rests room
      rw [accepted]
      exact requeued.sound
    · rw [sound.insert_overflow rests (Nat.not_lt.mp room)]
      exact sound

/-- Cancelling leaves a book sound, whether or not the order rests. -/
theorem Sound.perform_cancel (sound : book.Sound) (id : OrderId) : (book.perform (.cancel id)).Sound := by
  simp only [OrderBook.perform]
  -- Either the order rests and leaves its queue, or nothing happens.
  by_cases rests : book.Rests id
  · obtain ⟨order, rests, rfl⟩ := rests
    obtain ⟨side, member⟩ := mem_resting.mp rests
    obtain ⟨next, removed, requeued⟩ := sound.cancel_ok member
    rw [removed]
    exact requeued.sound
  · rw [sound.cancel_absent rests]
    exact sound

/-- Serving within the size of the front order leaves a book sound. -/
theorem Sound.perform_fillBest (sound : book.Sound) {side : Side} {quantity : Quantity}
    (allowed : book.Allows (.fillBest side quantity)) : (book.perform (.fillBest side quantity)).Sound := by
  simp only [OrderBook.perform]
  -- Without anybody to serve nothing happens.
  cases queue : book.orders side with
  | nil =>
    rw [sound.fillBest?_empty quantity queue]
    exact sound
  | cons front waiting =>
    have isFront : book.bestOrder? side = some front := by rw [sound.bestOrder?, queue]; rfl
    obtain ⟨next, served, requeued⟩ := sound.fillBest?_front queue (allowed front isFront)
    rw [served]
    exact requeued.sound

/-- Every operation that is allowed leaves a sound book sound. -/
theorem Sound.perform (sound : book.Sound) {operation : Operation} (allowed : book.Allows operation) :
    (book.perform operation).Sound := by
  -- One case for each kind of operation; only serving needs the permission.
  cases operation with
  | insert order => exact sound.perform_insert order
  | cancel id => exact sound.perform_cancel id
  | fillBest side quantity => exact sound.perform_fillBest allowed
  | matchCrossed taker => exact (sound.matchCrossed taker).1

/-- Every reachable book is sound. -/
theorem Reachable.sound (reached : book.Reachable) : book.Sound := by
  -- An empty book is sound, and no step can end that.
  induction reached with
  | empty market => exact sound_empty market
  | step _ allowed ih => exact ih.perform allowed

/-- A book in which a buyer has joined a seller whose price it crosses, without any matching. -/
def locked : OrderBook :=
  ((OrderBook.empty ⟨7⟩).perform (.insert ⟨⟨1⟩, ⟨7⟩, ⟨1⟩, .sell, ⟨100⟩, 5, 5, 0, 0⟩)).perform
    (.insert ⟨⟨2⟩, ⟨7⟩, ⟨2⟩, .buy, ⟨101⟩, 2, 2, 0, 1⟩)

/-- Orders may be inserted at any time, so a crossed book is reachable. -/
theorem reachable_locked : locked.Reachable :=
  .step (.step (.empty ⟨7⟩) trivial) trivial

end LimitBook.OrderBook
