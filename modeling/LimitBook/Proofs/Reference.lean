import LimitBook.Proofs.Book.Run

/-!
A reference for tracked books. It knows neither sides nor levels nor an index, but keeps one plain list of the
live orders, in the order in which they were accepted, and goes through the whole list for every question.
-/

namespace LimitBook

/-- The market that is followed, the number of its next event, and the live orders as they were accepted. -/
structure Reference where
  market : MarketId
  next : Sequence
  live : List Order

namespace Reference

/-- A reference in which nothing is live. -/
def startingAt (market : MarketId) (origin : Sequence) : Reference := ⟨market, origin, []⟩

/-- The best-priced order of a side, of equal ones the earliest. -/
def best? (live : List Order) (side : Side) : Option Order :=
  live.find? fun order =>
    order.side = side ∧ ∀ other ∈ live, other.side = side → ¬side.Better other.price order.price

/-- What all orders of a side have left at a price, as an exact number. -/
def sizeAt (live : List Order) (side : Side) (price : Price) : Nat :=
  restingSize (live.filter fun order => order.side = side ∧ order.price = price)

/-- The best prices and the sizes at them. -/
def top (live : List Order) : Top :=
  -- A side on which nobody is live has the size zero.
  let size := fun side => (best? live side).elim 0 fun best => UInt64.ofNat (sizeAt live side best.price)
  { bestBid := (best? live .buy).map Order.price
    bidSize := size .buy
    bestAsk := (best? live .sell).map Order.price
    askSize := size .sell }

/-- The smaller of two sizes is traded, at the price of the order that was there first. -/
def fillOf (incoming resting : Order) : Fill :=
  { maker := resting.id
    makerOwner := resting.owner
    taker := incoming.id
    takerOwner := incoming.owner
    takerSide := incoming.side
    price := resting.price
    quantity := if incoming.remaining ≤ resting.remaining then incoming.remaining else resting.remaining
    makerFilled := decide (resting.remaining ≤ incoming.remaining)
    takerFilled := decide (incoming.remaining ≤ resting.remaining) }

/-- An order after a fill: whoever takes part loses the traded size, and is deleted when it reaches zero. -/
def settled? (fill : Fill) (order : Order) : Option Order :=
  if order.id = fill.maker ∨ order.id = fill.taker then
    if order.remaining = fill.quantity then none else some { order with remaining := order.remaining - fill.quantity }
  else some order

/-- The next trade of a live order: while anybody opposite crosses it, it trades with the best of them. -/
def trade? (live : List Order) (taker : OrderId) : Option (Fill × List Order) := do
  let incoming ← live.find? (·.id = taker)
  if ∃ order ∈ live, order.side = incoming.side.opposite ∧ incoming.Crosses order.price then
    let resting ← best? live incoming.side.opposite
    let fill := fillOf incoming resting
    return (fill, live.filterMap (settled? fill))
  else none

/-- Every trade deletes one of its two orders, the smaller one. -/
theorem length_trade? {live after : List Order} {taker : OrderId} {fill : Fill}
    (trade : trade? live taker = some (fill, after)) : after.length < live.length := by
  unfold trade? at trade
  simp only [Option.bind_eq_bind, Option.bind_eq_some_iff] at trade
  obtain ⟨incoming, found, trade⟩ := trade
  split at trade
  · simp only [Option.bind_eq_some_iff, Option.pure_def, Option.some.injEq, Prod.mk.injEq] at trade
    obtain ⟨resting, best, rfl, rfl⟩ := trade
    -- Whoever had no more than the other is used up.
    -- The count goes down with either party.
    by_cases smaller : incoming.remaining ≤ resting.remaining
    · refine List.length_filterMap_lt_length_iff_exists.mpr ⟨incoming, List.mem_of_find?_eq_some found, ?_⟩
      simp [settled?, fillOf, smaller]
    · refine List.length_filterMap_lt_length_iff_exists.mpr ⟨resting, List.mem_of_find?_eq_some best, ?_⟩
      simp [settled?, fillOf, smaller]
  · simp at trade

/-- The trades of a live order one after another, and the list they leave. -/
def trades (live : List Order) (taker : OrderId) : List Fill × List Order :=
  match _trade : trade? live taker with
  | none => ([], live)
  | some (fill, after) =>
    -- What is traded next depends on what the trade before has left.
    let (fills, last) := trades after taker
    (fill :: fills, last)
termination_by live.length
decreasing_by exact length_trade? _trade

/-- The order that an event brings in. -/
def arriving (reference : Reference) (sequence : Sequence) (new : NewOrder) : Order :=
  { id := new.id
    market := reference.market
    owner := new.owner
    side := new.side
    price := new.price
    quantity := new.size
    remaining := new.size
    timestamp := new.timestamp
    arrival := sequence }

/-- An order is appended and trades for as long as it can. -/
def add (reference : Reference) (sequence : Sequence) (new : NewOrder) : Except BookError (Report × Reference) :=
  if new.size = 0 then .error (.invalidSize new.id)
  else if ∃ order ∈ reference.live, order.id = new.id then .error (.duplicateOrder new.id)
  else if UInt64.size ≤ sizeAt reference.live new.side new.price + new.size.toNat then
    .error (.levelOverflow new.id new.price)
  else
    -- The order is the last of the list, since it came last.
    let (fills, live) := trades (reference.live ++ [reference.arriving sequence new]) new.id
    .ok (⟨sequence, fills, live.find? (·.id = new.id), none, top live⟩, { reference with live })

/-- An order is looked for by its number and deleted. -/
def remove (reference : Reference) (sequence : Sequence) (id : OrderId) : Except BookError (Report × Reference) :=
  match reference.live.find? (·.id = id) with
  | none => .error (.orderNotFound id)
  | some order =>
    let live := reference.live.filter (·.id ≠ id)
    .ok (⟨sequence, [], none, some order, top live⟩, { reference with live })

/-- What an action does to the list of live orders. -/
def act (reference : Reference) (sequence : Sequence) : Action → Except BookError (Report × Reference)
  | .add new => reference.add sequence new
  | .remove id => reference.remove sequence id

/-- An event for the market that carries the next number is carried out. -/
def apply (reference : Reference) (event : Event) : Except BookError (Report × Reference) :=
  if event.market ≠ reference.market then .error (.marketMismatch reference.market event.market)
  else if event.sequence ≠ reference.next then .error (.sequence reference.next event.sequence)
  else (reference.act event.sequence event.action).map fun (report, after) =>
    (report, { after with next := after.next + 1 })

/-- What the reference answers to a call, if the call has an answer, and the reference afterwards. -/
def call (reference : Reference) : Book.Call → Option (Except BookError Report) × Reference
  | .apply event =>
    match reference.apply event with
    | .ok (report, after) => (some (.ok report), after)
    | .error error => (some (.error error), reference)
  | .resync next => (none, { reference with next })

/-- The answers to calls one after another, and the reference that they leave. -/
def run (reference : Reference) : List Book.Call → List (Option (Except BookError Report)) × Reference
  | [] => ([], reference)
  | call :: calls =>
    let (answer, after) := reference.call call
    let (answers, last) := after.run calls
    (answer :: answers, last)

end Reference

end LimitBook
