import LimitBook.Proofs.Mirror.OrderBook

/-!
A run and the mirrored run, side by side on a book and on its image: call for call they give mirrored answers, and
whatever one of them shows of the market is the mirror image of what the other shows.
-/

namespace LimitBook.Book

/-- A book and its image: they are at the same place, and their orders and totals are mirrored. -/
structure Reflects (book image : Book) : Prop where
  key : image.key = book.key
  cursor : image.cursor = book.cursor
  orders : image.orders = book.orders.mirror
  stats : book.stats.Reflects image.stats

/-- Two outcomes are mirrored: the reports with books that reflect each other, or the refusals. -/
inductive OutcomesReflect : Except BookError (Report × Book) → Except BookError (Report × Book) → Prop
  | taken {report : Report} {next image : Book} (reflects : next.Reflects image) :
      OutcomesReflect (.ok (report, next)) (.ok (report.mirror, image))
  | refused (error : BookError) : OutcomesReflect (.error error) (.error error.mirror)

/-- The answer to a call with its report or refusal mirrored. -/
def mirrorAnswer (answer : Option (Except BookError Report)) : Option (Except BookError Report) :=
  answer.map (mirrorOutcome Report.mirror)

variable {book image : Book} {sequence : Sequence}

/-- A fresh book is its own image. -/
theorem reflects_startingAt (key : BookKey) (origin : Sequence) :
    (startingAt key origin).Reflects (startingAt key origin) :=
  ⟨rfl, rfl, (OrderBook.mirror_empty key.market).symm, Stats.reflects_empty⟩

/-- The order that arrives at the image is the image of the order that arrives. -/
theorem Reflects.arriving (reflects : book.Reflects image) (new : NewOrder) :
    image.arriving sequence new.mirror = (book.arriving sequence new).mirror := by
  -- The image stands for the same market.
  unfold Book.arriving
  rw [reflects.key]
  rfl

/-- A mirrored order is taken in and trades as the order does. -/
theorem Reflects.add (reflects : book.Reflects image) (new : NewOrder) :
    OutcomesReflect (book.add sequence new) (image.add sequence new.mirror) := by
  unfold Book.add
  rw [reflects.arriving, reflects.orders, OrderBook.insert_mirror]
  show OutcomesReflect _ (if new.size = 0 then _ else _)
  -- Both sizes are zero or neither is.
  by_cases empty : new.size = 0
  · rw [if_pos empty, if_pos empty]
    exact .refused (.invalidSize new.id)
  · rw [if_neg empty, if_neg empty]
    cases book.orders.insert (book.arriving sequence new) with
    | error error => exact .refused error
    | ok inserted =>
      -- The fills, the rest and the best prices are mirrored, and the totals count mirrored fills.
      have matched := OrderBook.matchCrossed_mirror inserted new.id
      have number : new.mirror.id = new.id := rfl
      have size : new.mirror.size = new.size := rfl
      have counted := (reflects.stats.recordAdded new.size).recordFills (inserted.matchCrossed new.id).1
      simp only [mirrorOutcome, Bind.bind, Except.bind, Pure.pure, Except.pure, number, size, matched,
        OrderBook.find?_mirror, OrderBook.top_mirror]
      exact .taken ⟨reflects.key, reflects.cursor, rfl, counted⟩

/-- An order is taken out of the image as it is taken out of the book. -/
theorem Reflects.remove (reflects : book.Reflects image) (id : OrderId) :
    OutcomesReflect (book.remove sequence id) (image.remove sequence id) := by
  -- A removal is refused by both books or takes an order and its image.
  unfold Book.remove
  rw [reflects.orders, OrderBook.cancel_mirror]
  cases book.orders.cancel id with
  | error error => exact .refused error
  | ok taken =>
    obtain ⟨removed, orders⟩ := taken
    have counted := reflects.stats.recordRemoved removed.remaining
    simp only [mirrorOutcome, Bind.bind, Except.bind, Pure.pure, Except.pure, Order.remaining_mirror,
      OrderBook.top_mirror]
    exact .taken ⟨reflects.key, reflects.cursor, rfl, counted⟩

/-- A mirrored event is taken in as the event is, or refused for the same reason. -/
theorem Reflects.apply (reflects : book.Reflects image) (event : Event) :
    OutcomesReflect (book.apply event) (image.apply event.mirror) := by
  have acted :
      OutcomesReflect (book.act event.sequence event.action) (image.act event.sequence event.action.mirror) := by
    cases event.action with
    | add new => exact reflects.add new
    | remove id => exact reflects.remove id
  -- Market and sequence number are not mirrored, so both are in place or neither is.
  have checked : image.cursor.check event.mirror = book.cursor.check event := by rw [reflects.cursor]; rfl
  have action :
      image.act event.mirror.sequence event.mirror.action = image.act event.sequence event.action.mirror := rfl
  unfold Book.apply
  rw [checked, action]
  generalize book.act event.sequence event.action = outcome at acted ⊢
  generalize image.act event.sequence event.action.mirror = outcome' at acted ⊢
  unfold Cursor.check
  split
  · exact .refused (.marketMismatch _ _)
  · split
    · exact .refused (.sequence _ _)
    · cases acted with
      | taken next =>
        exact .taken ⟨next.key, congrArg Cursor.advance next.cursor, next.orders, next.stats.recordEvent⟩
      | refused error => exact .refused error

/-- Every call and its image have mirrored answers, and leave books that reflect each other. -/
theorem Reflects.call (reflects : book.Reflects image) (call : Call) :
    (image.call call.mirror).1 = mirrorAnswer (book.call call).1 ∧
      (book.call call).2.Reflects (image.call call.mirror).2 := by
  -- An event is answered by its mirror image; a resync has no answer and moves both cursors alike.
  cases call with
  | apply event =>
    have outcomes := reflects.apply event
    simp only [Call.mirror, Book.call]
    generalize book.apply event = outcome at outcomes ⊢
    generalize image.apply event.mirror = outcome' at outcomes ⊢
    cases outcomes with
    | taken next => exact ⟨rfl, next⟩
    | refused error => exact ⟨rfl, reflects⟩
  | resync next => exact ⟨rfl, reflects.key, congrArg (·.resync next) reflects.cursor, reflects.orders, reflects.stats⟩

/-- Every run and its image have mirrored answers, and end at books that reflect each other. -/
theorem Reflects.run (reflects : book.Reflects image) (calls : List Call) :
    (image.run (calls.map Call.mirror)).1 = (book.run calls).1.map mirrorAnswer ∧
      (book.run calls).2.Reflects (image.run (calls.map Call.mirror)).2 := by
  -- Both books vary along the calls.
  induction calls generalizing book image with
  | nil => exact ⟨rfl, reflects⟩
  | cons call calls ih =>
    obtain ⟨answer, next⟩ := reflects.call call
    obtain ⟨answers, last⟩ := ih next
    simp only [List.map_cons, Book.run]
    exact ⟨congrArg₂ List.cons answer answers, last⟩

/--
The mirrored run gives call for call the mirrored answers, and wherever a run leads, the mirrored run leads to the
mirror image: bid and ask are exchanged, views and ladders of any depth are mirrored, the best prices are as far apart,
and the totals agree but for prices.
-/
theorem mirrored_run (key : BookKey) (origin : Sequence) (calls : List Call) :
    let book := ((startingAt key origin).run calls).2
    let image := ((startingAt key origin).run (calls.map Call.mirror)).2
    ((startingAt key origin).run (calls.map Call.mirror)).1 = ((startingAt key origin).run calls).1.map mirrorAnswer ∧
      image.nextSequence = book.nextSequence ∧
      image.top = book.top.mirror ∧
      (∀ levels, image.depth levels = (book.depth levels).mirror) ∧
      (∀ ticks, image.ladder ticks = (book.ladder ticks).mirror) ∧
      image.orders.spread? = book.orders.spread? ∧
      book.stats.Reflects image.stats := by
  intro book image
  -- The image of a reached book holds the image of its orders, and so shows the image of every view.
  obtain ⟨answers, reflects⟩ := (reflects_startingAt key origin).run calls
  have orders : image.orders = book.orders.mirror := reflects.orders
  have depth (levels : Nat) : image.depth levels = (book.depth levels).mirror := by
    unfold Book.depth
    rw [orders, OrderBook.depth_mirror]
  -- Every view is drawn from the orders.
  refine ⟨answers, congrArg Cursor.next reflects.cursor, ?_, depth, fun ticks => ?_, ?_, reflects.stats⟩
  · unfold Book.top
    rw [orders, OrderBook.top_mirror]
  · show Ladder.ofDepth (image.depth ticks) ticks = _
    rw [depth, Ladder.ofDepth_mirror]
    rfl
  · rw [orders, OrderBook.spread?_mirror]

end LimitBook.Book
