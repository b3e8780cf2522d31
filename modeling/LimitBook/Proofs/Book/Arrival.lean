import LimitBook.Proofs.Book.History
import LimitBook.Proofs.Book.Priority

/-!
Arrival numbers as time. While a book is never moved back in its stream, whoever comes in earlier arrives under a
smaller number, so that the queues, which nobody ever sorts, are sorted by price and arrival.
-/

namespace LimitBook

/-- One order of a side need not wait for another: its price is better, or the same and it arrived no later. -/
def Side.servesFirst (side : Side) (x y : Order) : Bool :=
  decide (side.Better x.price y.price ∨ x.price = y.price ∧ x.arrival ≤ y.arrival)

namespace Side

variable {side : Side} {x y z : Order}

/-- Who need not wait is settled by the ranks of the prices and then by the arrivals. -/
theorem servesFirst_iff : side.servesFirst x y = true ↔ side.rank x.price < side.rank y.price ∨
    side.rank x.price = side.rank y.price ∧ x.arrival.toNat ≤ y.arrival.toNat := by
  -- Equal ranks mean equal prices, so that the test compares pairs of numbers.
  have same : x.price = y.price ↔ side.rank x.price = side.rank y.price := ⟨congrArg _, eq_of_rank_eq⟩
  rw [servesFirst, decide_eq_true_iff, better_iff_rank_lt, same, UInt64.le_iff_toNat_le]

/-- Whoever need not wait for somebody need not wait for those who wait for it. -/
theorem servesFirst_trans (first : side.servesFirst x y = true) (second : side.servesFirst y z = true) :
    side.servesFirst x z = true := by
  -- Pairs of numbers are compared place by place.
  rw [servesFirst_iff] at first second ⊢
  omega

/-- Of two orders one need not wait for the other. -/
theorem servesFirst_total (side : Side) (x y : Order) : (side.servesFirst x y || side.servesFirst y x) = true := by
  -- Of two pairs of numbers one comes first, or they are equal.
  rw [Bool.or_eq_true, servesFirst_iff, servesFirst_iff]
  omega

/-- Orders that need not wait for each other arrived under one number. -/
theorem arrival_eq_of_servesFirst (first : side.servesFirst x y = true) (second : side.servesFirst y x = true) :
    x.arrival = y.arrival := by
  -- Neither arrival is before the other.
  rw [servesFirst_iff] at first second
  rw [← UInt64.toNat_inj]
  omega

end Side

namespace Book

/-- A call does not move the book back, and an event with the last number that there is is not accepted. -/
def GoesOn (book : Book) : Call → Prop
  | .apply event => (book.apply event).isOk = true → event.sequence.toNat + 1 < UInt64.size
  | .resync next => book.nextSequence ≤ next

/-- No call of a run moves the book back, and no accepted event carries the last number that there is. -/
def Onward (book : Book) : List Call → Prop
  | [] => True
  | call :: calls => book.GoesOn call ∧ (book.call call).2.Onward calls

/-- Whether a call moves the book back is settled by comparing numbers. -/
instance (book : Book) (call : Call) : Decidable (book.GoesOn call) :=
  match call with
  | .apply event =>
    inferInstanceAs (Decidable ((book.apply event).isOk = true → event.sequence.toNat + 1 < UInt64.size))
  | .resync next => inferInstanceAs (Decidable (book.nextSequence ≤ next))

/-- Whether a run moves the book back is settled by making the calls. -/
instance decidableOnward (book : Book) : (calls : List Call) → Decidable (book.Onward calls)
  | [] => .isTrue trivial
  | call :: calls =>
    have := decidableOnward (book.call call).2 calls
    inferInstanceAs (Decidable (book.GoesOn call ∧ (book.call call).2.Onward calls))

/-- The queues of a book follow from the prices and the arrivals of the orders that rest in it. -/
structure Timed (book : Book) : Prop where
  /-- No two resting orders arrived under one number. -/
  distinct : (book.orders.resting.map Order.arrival).Nodup
  /-- Everybody arrived under a number that the book has passed. -/
  passed : ∀ order ∈ book.orders.resting, order.arrival < book.nextSequence
  /-- Behind everybody at a level stand those who arrived there later. -/
  rising : ∀ side, ∀ level ∈ book.orders.levels side, level.orders.Pairwise fun x y => x.arrival < y.arrival
  /-- However the resting orders of a side are listed, sorting them gives its queue. -/
  sorted : ∀ (side : Side) (listed : List Order), listed.Perm (book.orders.resting.filter (·.side = side)) →
    listed.mergeSort side.servesFirst = book.orders.orders side

variable {start book next : Book} {event : Event} {report : Report} {order x y : Order} {side : Side} {id : OrderId}
  {calls front back : List Call} {call : Call} {i j : Nat}

section Onward

/-- A run goes on if both of its parts do. -/
theorem onward_append : book.Onward (front ++ back) ↔ book.Onward front ∧ (book.run front).2.Onward back := by
  -- The book varies along the calls in front.
  induction front generalizing book with
  | nil => simp [Onward, run]
  | cons call front ih => simp only [List.cons_append, Onward, run, ih, and_assoc]

/-- A call that does not move the book back leaves it where it was, or further on. -/
theorem Sound.next_le_call (sound : book.Sound) (goesOn : book.GoesOn call) :
    book.nextSequence.toNat ≤ (book.call call).2.nextSequence.toNat := by
  -- A resync goes on by assumption, and so does an event that is accepted; a refusal leaves the cursor.
  cases call with
  | resync next => exact UInt64.le_iff_toNat_le.mp goesOn
  | apply event =>
    simp only [Book.call]
    cases outcome : book.apply event with
    | error error => exact Nat.le_refl _
    | ok taken =>
      have moved := (sound.takes outcome).2.next_toNat (goesOn (by rw [outcome]; rfl))
      simp only
      omega

/-- A run that goes on leads to no earlier number. -/
theorem Sound.next_le_run (sound : book.Sound) (onward : book.Onward calls) :
    book.nextSequence.toNat ≤ (book.run calls).2.nextSequence.toNat := by
  -- The book varies along the calls.
  induction calls generalizing book with
  | nil => exact Nat.le_refl _
  | cons call calls ih => exact Nat.le_trans (sound.next_le_call onward.1) (ih (sound.call call) onward.2)

/-- The more calls of a run have been made, the further on is the book. -/
theorem Sound.next_le_take (sound : start.Sound) (onward : start.Onward calls) (earlier : i ≤ j) :
    (start.run (calls.take i)).2.nextSequence.toNat ≤ (start.run (calls.take j)).2.nextSequence.toNat := by
  have split : calls.take j = calls.take i ++ (calls.take j).drop i := by
    have whole := List.take_append_drop i (calls.take j)
    rw [List.take_take, Nat.min_eq_left earlier] at whole
    exact whole.symm
  -- The further calls go on from where the first have led.
  have parts : start.Onward (calls.take j) := by
    rw [← List.take_append_drop j calls] at onward
    exact (onward_append.mp onward).1
  rw [split] at parts ⊢
  rw [run_append]
  exact (sound_run sound _).next_le_run (onward_append.mp parts).2

end Onward

section Arrival

/-- Whoever rests when a run ends arrived under the number at which the book stood then, and which it has passed. -/
theorem CameInAt.arrival (sound : start.Sound) (onward : start.Onward calls) (cameIn : CameInAt start calls order.id i)
    (rests : order ∈ (start.run calls).2.orders.orders side) :
    order.arrival = (start.run (calls.take i)).2.nextSequence ∧
      order.arrival.toNat < (start.run (calls.take (i + 1))).2.nextSequence.toNat := by
  obtain ⟨front, event, back, new, rfl, rfl, action, number, accepted, since⟩ := cameIn
  have soundBefore := sound_run sound front
  have absent := soundBefore.absent_of_accepted action accepted
  obtain ⟨report, outcome⟩ := apply_eq_ok accepted
  have takes := (soundBefore.takes outcome).2
  have whole : front ++ Call.apply event :: back = (front ++ [.apply event]) ++ back := by simp
  have after : (start.run (front ++ [.apply event])).2 = ((start.run front).2.call (.apply event)).2 := by
    rw [run_append]
    rfl
  rw [whole, run_append, after] at rests
  rw [after] at since
  -- Right after its event the order rests as it came in, with less left perhaps.
  obtain ⟨middle, restsMiddle, same⟩ := since.rests (OrderBook.rests_of_mem rests)
  obtain ⟨any, member⟩ := OrderBook.mem_resting.mp restsMiddle
  have came : middle.arrival = (start.run front).2.nextSequence := by
    rcases takes.stood member with ⟨other, isAdd, -, isNew⟩ | ⟨stood, stands, isStood⟩
    · rw [isNew]
      exact takes.sequence
    · have taken : (start.run front).2.orders.Rests stood.id := OrderBook.rests_of_mem stands
      have numbers : stood.id = new.id := by rw [number, ← same, isStood]
      exact absurd (numbers ▸ taken) absent
  -- From there on it stays the order that it is.
  rw [← same] at since
  obtain ⟨-, isMiddle⟩ := (soundBefore.call _).run_stays member since rests same.symm
  have stays : order.arrival = middle.arrival := by rw [isMiddle]
  have moved := takes.next_toNat ((onward_append.mp onward).2.1 accepted)
  have before : (front ++ Call.apply event :: back).take front.length = front := List.take_left
  have through : (front ++ Call.apply event :: back).take (front.length + 1) = front ++ [.apply event] := by
    rw [whole]
    exact List.take_left' (by simp)
  rw [before, through, after, stays, came, moved]
  exact ⟨rfl, Nat.lt_succ_self _⟩

/-- Whoever came in earlier arrived under a smaller number. -/
theorem CameInAt.arrival_lt (sound : start.Sound) (onward : start.Onward calls) {any : Side}
    (firstIn : CameInAt start calls x.id i) (secondIn : CameInAt start calls y.id j) (earlier : i < j)
    (first : x ∈ (start.run calls).2.orders.orders side) (second : y ∈ (start.run calls).2.orders.orders any) :
    x.arrival < y.arrival := by
  -- The first order has come in before the later call, and arrivals follow the cursor.
  have passed := (firstIn.arrival sound onward first).2
  have further := sound.next_le_take onward (Nat.succ_le_of_lt earlier)
  rw [UInt64.lt_iff_toNat_lt, (secondIn.arrival sound onward second).1]
  exact Nat.lt_of_lt_of_le passed further

/-- No two orders come in with one call. -/
theorem CameInAt.unique {other : OrderId} (cameIn : CameInAt start calls id i)
    (otherIn : CameInAt start calls other i) : id = other := by
  -- The calls up to this place are the same, and so is the call that brought in both.
  obtain ⟨front, event, back, new, rfl, rfl, action, rfl, -⟩ := cameIn
  obtain ⟨front', event', back', new', split, position, action', rfl, -⟩ := otherIn
  obtain ⟨-, rest⟩ := List.append_inj split position.symm
  obtain rfl : event = event' := Call.apply.inj (List.cons.inj rest).1
  rw [action] at action'
  rw [Action.add.inj action']

end Arrival

section Timed

/-- In a run that goes on everybody stands behind those of a better price or of an earlier arrival at the same. -/
theorem served_run (key : BookKey) (origin : Sequence) (onward : (startingAt key origin).Onward calls) (side : Side) :
    (((startingAt key origin).run calls).2.orders.orders side).Pairwise fun x y =>
      side.Better x.price y.price ∨ x.price = y.price ∧ x.arrival < y.arrival := by
  have sound := sound_startingAt key origin
  refine (ranked_run key origin calls side).imp_of_mem fun isFirst isSecond ranked => ?_
  obtain ⟨i, firstIn⟩ := exists_cameInAt key origin calls (OrderBook.rests_of_mem isFirst)
  obtain ⟨j, secondIn⟩ := exists_cameInAt key origin calls (OrderBook.rests_of_mem isSecond)
  -- Who came in earlier is known, and so who arrived earlier.
  exact (ranked i j firstIn secondIn).imp id fun ⟨same, earlier⟩ =>
    ⟨same, firstIn.arrival_lt sound onward secondIn earlier isFirst isSecond⟩

/-- In a run that goes on no two orders that rest arrived under one number. -/
theorem arrival_inj (key : BookKey) (origin : Sequence) (onward : (startingAt key origin).Onward calls)
    (first : x ∈ ((startingAt key origin).run calls).2.orders.resting)
    (second : y ∈ ((startingAt key origin).run calls).2.orders.resting) (same : x.arrival = y.arrival) : x = y := by
  have sound := sound_startingAt key origin
  obtain ⟨side, isFirst⟩ := OrderBook.mem_resting.mp first
  obtain ⟨any, isSecond⟩ := OrderBook.mem_resting.mp second
  obtain ⟨i, firstIn⟩ := exists_cameInAt key origin calls (OrderBook.rests_of_mem isFirst)
  obtain ⟨j, secondIn⟩ := exists_cameInAt key origin calls (OrderBook.rests_of_mem isSecond)
  rcases Nat.lt_trichotomy i j with earlier | rfl | later
  · have less := firstIn.arrival_lt sound onward secondIn earlier isFirst isSecond
    exact absurd (same ▸ less) (UInt64.lt_irrefl _)
  · -- One call brings one order in, and a number belongs to one order.
    exact ((sound_run sound calls).orders.eq_of_id_eq isFirst isSecond (firstIn.unique secondIn)).2
  · have less := secondIn.arrival_lt sound onward firstIn later isSecond isFirst
    exact absurd (same ▸ less) (UInt64.lt_irrefl _)

/-- A run that goes on leads to a book whose queues follow from prices and arrivals. -/
theorem timed_run (key : BookKey) (origin : Sequence) (onward : (startingAt key origin).Onward calls) :
    ((startingAt key origin).run calls).2.Timed := by
  have start := sound_startingAt key origin
  have sound := sound_run start calls
  have served := served_run key origin onward
  refine ⟨?_, fun order rests => ?_, fun side level isLevel => ?_, fun side listed listing => ?_⟩
  · exact (List.Nodup.of_map _ sound.orders.distinct).map_on fun x first y second =>
      arrival_inj key origin onward first second
  · obtain ⟨side, member⟩ := OrderBook.mem_resting.mp rests
    obtain ⟨i, cameIn⟩ := exists_cameInAt key origin calls (OrderBook.rests_of_mem member)
    -- The book has passed the number with the call that brought the order in.
    have passed := (cameIn.arrival start onward member).2
    have further := start.next_le_take onward (Nat.succ_le_of_lt cameIn.lt_length)
    rw [List.take_length] at further
    exact UInt64.lt_iff_toNat_lt.mpr (Nat.lt_of_lt_of_le passed further)
  · -- At one price nobody is better, so whoever stands behind arrived later.
    have tidy := (sound.orders.levels side).level level isLevel
    refine ((served side).sublist (OrderBook.sublist_orders isLevel)).imp_of_mem fun first second before => ?_
    have here := (tidy.prices _ first).trans (tidy.prices _ second).symm
    exact (before.resolve_left fun better => Side.better_irrefl side _ (here ▸ better)).2
  · -- Both lists hold the same orders, each of them behind those that are served before it.
    rw [sound.orders.filter_side side] at listing
    have whole := (List.mergeSort_perm listed side.servesFirst).trans listing
    have ordered : (listed.mergeSort side.servesFirst).Pairwise fun x y => side.servesFirst x y = true := by
      apply List.pairwise_mergeSort
      · exact fun _ _ _ => Side.servesFirst_trans
      · exact Side.servesFirst_total side
    refine whole.eq_of_pairwise (fun x y first second before behind => ?_) ordered ((served side).imp ?_)
    · have rests := fun {order} (member : order ∈ ((startingAt key origin).run calls).2.orders.orders side) =>
        OrderBook.mem_resting.mpr ⟨side, member⟩
      exact arrival_inj key origin onward (rests (whole.mem_iff.mp first)) (rests second)
        (Side.arrival_eq_of_servesFirst before behind)
    · intro x y before
      exact decide_eq_true (before.imp id (And.imp id UInt64.le_of_lt))

end Timed

/--
As long as a book is not moved back in its stream, arrival numbers are the time by which its orders are served.

After any number of the calls, nobody shares an arrival with anybody on either side, all arrivals lie behind the book,
they rise along every level, and every queue is what sorting its orders by price and arrival gives.
-/
theorem timed_of_onward (key : BookKey) (origin : Sequence) (calls : List Call)
    (onward : (startingAt key origin).Onward calls) (n : Nat) :
    ((startingAt key origin).run (calls.take n)).2.Timed := by
  -- The first calls of a run that goes on are a run that goes on.
  rw [← List.take_append_drop n calls] at onward
  exact timed_run key origin (onward_append.mp onward).1

/-- Two sellers at one price, a third behind a gap, a buyer who takes all of the first and a part of the second. -/
def lapse : List Call :=
  [.apply ⟨⟨7⟩, 0, .add ⟨⟨1⟩, ⟨1⟩, 0, .sell, 3, ⟨100⟩⟩⟩, .apply ⟨⟨7⟩, 1, .add ⟨⟨2⟩, ⟨2⟩, 0, .sell, 4, ⟨100⟩⟩⟩,
    .resync 5, .apply ⟨⟨7⟩, 5, .add ⟨⟨3⟩, ⟨3⟩, 0, .sell, 5, ⟨100⟩⟩⟩,
    .apply ⟨⟨7⟩, 6, .add ⟨⟨4⟩, ⟨4⟩, 0, .buy, 5, ⟨100⟩⟩⟩]

/-- Before the buyer comes and after it the sellers stand as they arrived. -/
theorem timed_of_lapse :
    let start := startingAt ⟨⟨1⟩, ⟨7⟩⟩ 0
    start.Onward lapse ∧
      ((start.run (lapse.take 4)).2.orders.orders .sell).map Order.arrival = [0, 1, 5] ∧
      (start.run (lapse.take 4)).2.Timed ∧
      ((start.run (lapse.take 5)).2.orders.orders .sell).map Order.arrival = [1, 5] ∧
      (start.run (lapse.take 5)).2.Timed := by
  intro start
  -- Going on is decided by running the calls, and the order of time follows from it.
  have onward : start.Onward lapse := by decide +kernel
  exact ⟨onward, by decide +kernel, timed_of_onward ⟨⟨1⟩, ⟨7⟩⟩ 0 lapse onward 4, by decide +kernel,
    timed_of_onward ⟨⟨1⟩, ⟨7⟩⟩ 0 lapse onward 5⟩

end Book

end LimitBook
