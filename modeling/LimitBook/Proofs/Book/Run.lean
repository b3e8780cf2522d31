import LimitBook.Proofs.Book

/-!
Runs of a tracked book: calls one after another, with their answers. Every book that a run can reach satisfies
the invariant, since every accepted event keeps it and a refused one changes nothing.
-/

namespace LimitBook.Book

/-- What can be asked of a tracked book that may change it. -/
inductive Call where
  | apply (event : Event)
  | resync (next : Sequence)

/-- What a book answers to a call, if the call has an answer, and the book afterwards. -/
def call (book : Book) : Call → Option (Except BookError Report) × Book
  | .apply event =>
    match book.apply event with
    | .ok (report, next) => (some (.ok report), next)
    -- A refused event leaves the book as it was.
    | .error error => (some (.error error), book)
  | .resync next => (none, book.resync next)

/-- The answers to calls one after another, and the book that they leave. -/
def run (book : Book) : List Call → List (Option (Except BookError Report)) × Book
  | [] => ([], book)
  | call :: calls =>
    let (answer, next) := book.call call
    let (answers, last) := next.run calls
    (answer :: answers, last)

/-- A book that finitely many calls make of a fresh one. -/
inductive Reachable : Book → Prop
  | start (key : BookKey) (origin : Sequence) : Reachable (Book.startingAt key origin)
  | call {book : Book} (reached : Reachable book) (call : Call) : Reachable (book.call call).2

variable {book next : Book} {event : Event} {report : Report}

/-- A run ends at a book that is reachable. -/
theorem Reachable.run (reached : book.Reachable) (calls : List Call) : (book.run calls).2.Reachable := by
  -- Every call of the run is a further step from a reachable book.
  induction calls generalizing book with
  | nil => exact reached
  | cons call calls ih => exact ih (reached.call call)

/-- Orders that are not in a sweep's way are live afterwards, and so are those it has shortened. -/
theorem Adds.live {new : NewOrder} (sound : book.Sound) (adds : book.Adds event new report next) :
    ∀ order ∈ next.orders.resting, order.Live book.market := by
  intro order rests
  obtain ⟨any, member⟩ := OrderBook.mem_resting.mp rests
  have stood : ∀ {other side}, other ∈ book.orders.orders side → other.Live book.market := fun stands =>
    sound.live _ (OrderBook.mem_resting.mpr ⟨_, stands⟩)
  rcases Side.eq_or_eq_opposite any new.side with rfl | rfl
  · rw [adds.queues.own] at member
    rcases Queue.mem_rejoin.mp member with rest | stands
    · -- The new order came with its whole size and kept a part of it.
      obtain ⟨same, positive, within⟩ := sweep_left rest adds.positive
      rw [same]
      exact ⟨positive, within, rfl⟩
    · exact stood stands
  · -- Whoever still faces the newcomer stood there before, whole or with more left.
    rw [adds.queues.faced] at member
    rcases mem_sweep_faced member with stays | ⟨stands, stand, quantity, within, part⟩
    · exact stood stays
    · exact (stood stand).reduced within part

/-- An accepted event leaves a sound book sound. -/
theorem Takes.sound (sound : book.Sound) (takes : book.Takes event report next) : next.Sound := by
  rcases takes.effect with ⟨new, adds⟩ | ⟨side, order, removes⟩
  · -- A new order: the newcomer stops trading only when it is used up or crosses nobody.
    have uncrossed : next.orders.Uncrossed :=
      sound.orders.uncrossed_swept sound.uncrossed (book.arriving event.sequence new) adds.queues
    have live := adds.live sound
    have market := adds.queues.market.trans sound.market
    rw [adds.kept]
    exact ⟨adds.queues.sound, market, sound.follows, uncrossed, live⟩
  · -- An order less: nobody comes closer to the other side by that.
    have uncrossed := removes.queues.uncrossed sound.uncrossed
    have market := removes.queues.market.trans sound.market
    have live : ∀ order ∈ next.orders.resting, order.Live book.market := by
      -- Whoever is left was there before.
      intro other rests
      obtain ⟨any, member⟩ := OrderBook.mem_resting.mp rests
      rw [removes.queues.orders_eq] at member
      refine sound.live other (OrderBook.mem_resting.mpr ⟨any, ?_⟩)
      split at member
      · next here =>
        rw [here]
        exact (List.mem_filter.mp member).1
      · exact member
    rw [removes.kept]
    exact ⟨removes.queues.sound, market, sound.follows, uncrossed, live⟩

/-- Moving a book along its stream leaves it sound. -/
theorem Sound.resync (sound : book.Sound) (next : Sequence) : (book.resync next).Sound :=
  ⟨sound.orders, sound.market, sound.follows, sound.uncrossed, sound.live⟩

/-- Every call leaves a sound book sound. -/
theorem Sound.call (sound : book.Sound) (call : Call) : (book.call call).2.Sound := by
  cases call with
  | apply event =>
    simp only [Book.call]
    -- Only an accepted event leads to another book.
    cases outcome : book.apply event with
    | error error => exact sound
    | ok taken => exact (sound.takes outcome).2.sound sound
  | resync next => exact sound.resync next

/-- Every reachable book is sound. -/
theorem Reachable.sound (reached : book.Reachable) : book.Sound := by
  -- A fresh book is sound, and no call can end that.
  induction reached with
  | start key origin => exact sound_startingAt key origin
  | call _ call ih => exact ih.call call

/-- The start of a stream: a seller of five, of whom a buyer then takes two. -/
def opening : List Call :=
  [.apply ⟨⟨7⟩, 0, .add ⟨⟨1⟩, ⟨1⟩, 0, .sell, 5, ⟨100⟩⟩⟩, .apply ⟨⟨7⟩, 1, .add ⟨⟨2⟩, ⟨2⟩, 0, .buy, 2, ⟨101⟩⟩⟩]

/-- The book after the opening, in which the seller waits with the rest. -/
def opened : Book := ((Book.startingAt ⟨⟨1⟩, ⟨7⟩⟩ 0).run opening).2

/-- The opening is a run like any other. -/
theorem reachable_opened : opened.Reachable := (Reachable.start ⟨⟨1⟩, ⟨7⟩⟩ 0).run opening

/-- A fresh book that waits for the last number of all. -/
def exhausted : Book := startingAt ⟨⟨1⟩, ⟨7⟩⟩ 0xFFFFFFFFFFFFFFFF

end LimitBook.Book
