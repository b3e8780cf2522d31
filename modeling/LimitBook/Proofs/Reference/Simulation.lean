import LimitBook.Proofs.Reference.Trades

/-!
A tracked book and its reference cannot be told apart. They answer every call alike, however long the run and
whatever was refused before, since the list of live orders holds the queues of both sides all along.
-/

namespace LimitBook

namespace Reference

/-- A list of live orders holds what rests in a sound book, and no number comes twice in it. -/
structure Holds (live : List Order) (orders : OrderBook) : Prop where
  sound : orders.Sound
  distinct : (live.map Order.id).Nodup
  lists : ∀ side, Lists live side (orders.orders side)

/-- A reference and a book stand at the same place of one stream and hold the same orders. -/
structure Mirrors (reference : Reference) (book : Book) : Prop where
  sound : book.Sound
  market : reference.market = book.market
  next : reference.next = book.nextSequence
  holds : Holds reference.live book.orders

variable {live : List Order} {orders : OrderBook} {reference : Reference} {book next : Book} {event : Event}
  {new : NewOrder} {report : Report} {order : Order} {id : OrderId}

section Questions

/-- The live orders are those who rest. -/
theorem Holds.mem_iff (holds : Holds live orders) : order ∈ live ↔ order ∈ orders.resting := by
  rw [OrderBook.mem_resting]
  -- An order is on its own side, and each side of the book is held by the list.
  constructor
  · intro member
    exact ⟨order.side, (holds.lists order.side).mem_iff.mpr ⟨member, rfl⟩⟩
  · intro ⟨side, member⟩
    exact ((holds.lists side).mem_iff.mp member).1

/-- A number is live exactly if it rests. -/
theorem Holds.rests_iff (holds : Holds live orders) : (∃ order ∈ live, order.id = id) ↔ orders.Rests id := by
  -- What is live is what rests.
  unfold OrderBook.Rests
  simp only [holds.mem_iff]

/-- Going through the list for a number finds whom the index leads to. -/
theorem Holds.find?_eq (holds : Holds live orders) (id : OrderId) :
    live.find? (·.id = id) = orders.find? id := by
  -- Both find an order exactly if it rests under the number.
  apply Option.ext
  intro order
  rw [holds.sound.find?_eq_some, ← holds.mem_iff]
  constructor
  · intro found
    have number := List.find?_some found
    exact ⟨List.mem_of_find?_eq_some found, of_decide_eq_true number⟩
  · intro ⟨member, number⟩
    rw [← number]
    exact find?_id_eq_some holds.distinct member

/-- The scans of the list find what the book shows at its top. -/
theorem Holds.top_eq (holds : Holds live orders) : top live = orders.top := by
  -- On either side the scan finds the first of the queue.
  have best : ∀ side, best? live side = (orders.orders side).head? := fun side =>
    (holds.lists side).best?_eq (holds.sound.levels side).inPriority
  have price : ∀ side, (best? live side).map Order.price = (orders.levels side).bestPrice? := by
    intro side
    rw [best side]
    exact (holds.sound.levels side).bestPrice?.symm
  have size : ∀ side, ((best? live side).elim 0 fun first => UInt64.ofNat (sizeAt live side first.price)) =
      (orders.levels side).bestSize := by
    intro side
    rw [best side]
    cases front : (orders.orders side).head? with
    | none =>
      -- Nobody queues, so there is no level either.
      have noPrice : (orders.levels side).bestPrice? = none := by
        rw [(holds.sound.levels side).bestPrice?]
        exact congrArg (Option.map Order.price) front
      have noLevel : (orders.levels side).head? = none := Option.map_eq_none_iff.mp noPrice
      unfold BookSide.bestSize
      rw [noLevel]
      rfl
    | some first =>
      -- The total of the best level is exact, and so a number that fits a word.
      have total := (holds.sound.levels side).bestSize front
      show UInt64.ofNat (sizeAt live side first.price) = _
      rw [(holds.lists side).sizeAt_eq]
      exact (congrArg UInt64.ofNat total.symm).trans (UInt64.ofNat_toNat)
  unfold top OrderBook.top
  simp only [price, size]
  rfl

end Questions

section Answers

/-- The new order is the same one for both. -/
theorem Mirrors.arriving_eq (mirrors : Mirrors reference book) (sequence : Sequence) (new : NewOrder) :
    reference.arriving sequence new = book.arriving sequence new := by
  -- A newcomer is given the market of the book and a sequence, and both have the same market.
  unfold arriving Book.arriving
  rw [mirrors.market]
  rfl

/-- An accepted order, appended to the list, faces the queue of the other side there. -/
theorem Holds.facing (holds : Holds live book.orders) (adds : book.Adds event new report next) :
    Facing (live ++ [book.arriving event.sequence new]) (book.arriving event.sequence new)
      (book.orders.orders new.side.opposite) where
  distinct := by
    -- The number is free, so it is in no place of the list.
    have fresh : new.id ∉ live.map Order.id := by
      intro taken
      obtain ⟨order, member, number⟩ := List.mem_map.mp taken
      exact adds.fresh (holds.rests_iff.mp ⟨order, member, number⟩)
    have apart := (List.nodup_cons.mpr ⟨fresh, holds.distinct⟩).perm (List.perm_append_singleton new.id _).symm
    rw [List.map_append]
    exact apart
  distinctQueue := holds.sound.distinct_queue new.side.opposite
  present := by simp
  lists := (holds.lists new.side.opposite).append_other (Side.ne_opposite new.side)
  sorted := (holds.sound.levels new.side.opposite).inPriority

/-- A new order makes the same trades in both, and the list holds the queues that they leave. -/
theorem Holds.add (holds : Holds live book.orders) (adds : book.Adds event new report next) :
    (trades (live ++ [book.arriving event.sequence new]) new.id).1 = (book.sweepOf event.sequence new).fills ∧
      Holds (trades (live ++ [book.arriving event.sequence new]) new.id).2 next.orders := by
  -- The trades of the list are those of the sweep.
  obtain ⟨fills, distinct, faced, own⟩ := (holds.facing adds).trades_eq_sweep
  have joined : Lists (live ++ [book.arriving event.sequence new]) new.side
      (Queue.join new.side (book.arriving event.sequence new) (book.orders.orders new.side)) :=
    (holds.lists new.side).append_own (holds.sound.levels new.side).inPriority
  -- What is left of the order has its price, and nobody on its side has its number.
  have samePrice : ∀ left, (book.sweepOf event.sequence new).left = some left →
      left.price = (book.arriving event.sequence new).price := by
    intro left rest
    rw [(sweep_left rest adds.positive).1]
  have others : ∀ order ∈ book.orders.orders new.side, order.id ≠ (book.arriving event.sequence new).id := by
    intro order member
    exact OrderBook.id_ne_of_fresh adds.fresh member
  have rejoined : Lists (trades (live ++ [book.arriving event.sequence new]) new.id).2 new.side
      ((Queue.join new.side (book.arriving event.sequence new) (book.orders.orders new.side)).filterMap
        (replaced (book.arriving event.sequence new).id (book.sweepOf event.sequence new).left)) := own _ joined
  rw [filterMap_replaced_join others samePrice] at rejoined
  refine ⟨fills, adds.queues.sound, distinct, fun side => ?_⟩
  rcases Side.eq_or_eq_opposite side new.side with rfl | rfl
  · rw [adds.queues.own]
    exact rejoined
  · rw [adds.queues.faced]
    exact faced

/-- When an order is deleted, the list holds the queues that are left without it. -/
theorem Holds.remove {side : Side} (holds : Holds live book.orders)
    (removes : book.Removes event side order report next) : Holds (live.filter (·.id ≠ order.id)) next.orders := by
  -- The queue of the order loses it, and the other one never had it.
  have lists : ∀ any, next.orders.orders any = (book.orders.orders any).filter (·.id ≠ order.id) := by
    intro any
    rcases Side.eq_or_eq_opposite any side with rfl | rfl
    · exact removes.queues.own
    · -- Nobody on the other side has the number, so nobody is missing there.
      rw [removes.queues.other]
      exact (filter_id_eq_self fun other faced => (holds.sound.id_ne_opposite removes.member faced).symm).symm
  refine ⟨removes.queues.sound, ?_, fun any => ?_⟩
  · exact holds.distinct.sublist (List.filter_sublist.map Order.id)
  · rw [lists any]
    exact (holds.lists any).remove order.id

/-- Both refuse the same actions for the same reasons. -/
theorem Mirrors.act_error (mirrors : Mirrors reference book) {action : Action} {error : BookError}
    (refused : book.actionRefusal? action = some error) (sequence : Sequence) :
    reference.act sequence action = .error error := by
  cases action with
  | add new =>
    -- The scans of the list put the same three questions to it that the queues answer.
    have taken : (∃ order ∈ reference.live, order.id = new.id) ↔ book.orders.Rests new.id :=
      mirrors.holds.rests_iff
    have size : sizeAt reference.live new.side new.price = book.restingAt new.side new.price :=
      (mirrors.holds.lists new.side).sizeAt_eq new.price
    show reference.add sequence new = .error error
    unfold add
    unfold Book.actionRefusal? at refused
    dsimp only at refused
    rw [size]
    simp only [taken]
    split at refused
    · next empty => rw [if_pos empty, Option.some.inj refused]
    · next positive =>
      rw [if_neg positive]
      -- The three questions are asked in the same order.
      split at refused
      · next rests => rw [if_pos rests, Option.some.inj refused]
      · next fresh =>
        rw [if_neg fresh]
        split at refused
        · next full => rw [if_pos full, Option.some.inj refused]
        · simp at refused
  | remove id =>
    -- The number is looked for in the list.
    unfold Book.actionRefusal? at refused
    dsimp only at refused
    split at refused
    · simp at refused
    · next absent =>
      -- No order of the list has the number, since none rests under it.
      have unknown : reference.live.find? (·.id = id) = none := by
        rw [List.find?_eq_none]
        intro order member number
        exact absent (mirrors.holds.rests_iff.mp ⟨order, member, of_decide_eq_true number⟩)
      show reference.remove sequence id = .error error
      unfold remove
      rw [unknown, Option.some.inj refused]

/-- Both refuse the same events for the same reasons. -/
theorem Mirrors.apply_error (mirrors : Mirrors reference book) {error : BookError}
    (refused : book.refusal? event = some error) : reference.apply event = .error error := by
  unfold Book.refusal? at refused
  unfold apply
  rw [mirrors.market, mirrors.next]
  -- Market and number are the same for both, so the same tests fail.
  split at refused
  · next foreign => rw [if_pos foreign, Option.some.inj refused]
  · next own =>
    rw [if_neg own]
    split at refused
    · next misplaced => rw [if_pos misplaced, Option.some.inj refused]
    · next inPlace =>
      rw [if_neg inPlace, mirrors.act_error refused]
      rfl

/-- A new order that the book takes in is taken in by the reference, with the same report. -/
theorem Mirrors.add_ok (mirrors : Mirrors reference book) (adds : book.Adds event new report next) :
    ∃ live, reference.add event.sequence new = .ok (report, { reference with live }) ∧ Holds live next.orders := by
  obtain ⟨fills, holds⟩ := mirrors.holds.add adds
  refine ⟨_, ?_, holds⟩
  -- None of the refusals applies, as the book has taken the order in.
  have fresh : ¬∃ order ∈ reference.live, order.id = new.id := mt mirrors.holds.rests_iff.mp adds.fresh
  have room : ¬UInt64.size ≤ sizeAt reference.live new.side new.price + new.size.toNat := by
    rw [(mirrors.holds.lists new.side).sizeAt_eq]
    exact Nat.not_le.mpr adds.room
  -- What the list leads to under the number of the new order is what is left of it.
  have left := (holds.find?_eq new.id).trans (Book.find?_eq_left adds.positive adds.fresh adds.queues)
  unfold add
  rw [if_neg adds.positive, if_neg fresh, if_neg room, mirrors.arriving_eq]
  simp only [fills, left, holds.top_eq, adds.reported]

/-- An order that the book gives up is given up by the reference, with the same report. -/
theorem Mirrors.remove_ok (mirrors : Mirrors reference book) {side : Side}
    (removes : book.Removes event side order report next) :
    ∃ live, reference.remove event.sequence order.id = .ok (report, { reference with live }) ∧
      Holds live next.orders := by
  have holds := mirrors.holds.remove removes
  refine ⟨_, ?_, holds⟩
  -- The order rests, so it is in the list and found there.
  have isLive : order ∈ reference.live := ((mirrors.holds.lists side).mem_iff.mp removes.member).1
  have found : reference.live.find? (·.id = order.id) = some order :=
    find?_id_eq_some mirrors.holds.distinct isLive
  unfold remove
  rw [found, removes.reported, ← holds.top_eq]

/-- An event that the book takes in is taken in by the reference, with the same report. -/
theorem Mirrors.apply_ok (mirrors : Mirrors reference book) (accepted : book.apply event = .ok (report, next)) :
    ∃ after, reference.apply event = .ok (report, after) ∧ Mirrors after next := by
  obtain ⟨-, takes⟩ := mirrors.sound.takes accepted
  have sound := takes.sound mirrors.sound
  -- Either a new order was brought in or one was taken out.
  have acts : ∃ live, reference.act event.sequence event.action = .ok (report, { reference with live }) ∧
      Holds live next.orders := by
    rcases takes.effect with ⟨new, adds⟩ | ⟨side, order, removes⟩
    · rw [adds.action]
      exact mirrors.add_ok adds
    · rw [removes.action]
      exact mirrors.remove_ok removes
  obtain ⟨live, acted, holds⟩ := acts
  have advanced := takes.advances.1
  -- The list moves on by one as well.
  refine ⟨{ reference with live, next := reference.next + 1 }, ?_, sound, ?_, ?_, holds⟩
  · unfold apply
    rw [mirrors.market, mirrors.next, if_neg (not_not_intro takes.market), if_neg (not_not_intro takes.sequence),
      acted]
    simp only [Except.map, mirrors.market, mirrors.next]
  · rw [mirrors.market, Book.market, Book.market, takes.key_eq]
  · rw [advanced, ← mirrors.next]

/-- Both answer a call alike, and go on as mirrors of each other. -/
theorem Mirrors.call (mirrors : Mirrors reference book) (call : Book.Call) :
    (reference.call call).1 = (book.call call).1 ∧ Mirrors (reference.call call).2 (book.call call).2 := by
  cases call with
  | apply event =>
    simp only [Reference.call, Book.call]
    cases refusal : book.refusal? event with
    | some error =>
      -- Refused by both, and both stay where they are.
      rw [mirrors.apply_error refusal, mirrors.sound.apply_error refusal]
      exact ⟨rfl, mirrors⟩
    | none =>
      obtain ⟨report, next, accepted, -⟩ := mirrors.sound.apply_ok refusal
      obtain ⟨after, followed, mirrors'⟩ := mirrors.apply_ok accepted
      rw [followed, accepted]
      exact ⟨rfl, mirrors'⟩
  | resync next => exact ⟨rfl, mirrors.sound.resync next, mirrors.market, rfl, mirrors.holds⟩

/-- Both give the same answers in a run of any length. -/
theorem Mirrors.run (mirrors : Mirrors reference book) (calls : List Book.Call) :
    (reference.run calls).1 = (book.run calls).1 := by
  -- The first call is answered alike, and the rest of the run starts from mirrors again.
  induction calls generalizing reference book with
  | nil => rfl
  | cons call calls ih =>
    obtain ⟨answer, after⟩ := mirrors.call call
    have answers := ih after
    simp only [Reference.run, Book.run]
    rw [answer, answers]

end Answers

/-- At the start of a stream nothing is live and nothing rests. -/
theorem mirrors_startingAt (key : BookKey) (origin : Sequence) :
    Mirrors (Reference.startingAt key.market origin) (Book.startingAt key origin) where
  -- Both books are empty and wait for the same number.
  sound := Book.sound_startingAt key origin
  market := rfl
  next := rfl
  holds := ⟨OrderBook.sound_empty key.market, .nil, fun side => by cases side <;> exact Lists.nil _⟩

end Reference

/-- In every run of calls from the start of a stream, a tracked book answers as the reference does. -/
theorem run_eq_reference (key : BookKey) (origin : Sequence) (calls : List Book.Call) :
    ((Book.startingAt key origin).run calls).1 = ((Reference.startingAt key.market origin).run calls).1 :=
  ((Reference.mirrors_startingAt key origin).run calls).symm

-- The buyer of the opening takes two of the five that the seller came with.
example : (((Reference.startingAt ⟨7⟩ 0).run Book.opening).2.live.map Order.remaining) = [3] := by
  decide +kernel

end LimitBook
