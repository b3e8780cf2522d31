import LimitBook.Digest
import LimitBook.Event
import LimitBook.OrderBook.Matching

/-!
A tracked book: it follows the stream of one market and keeps its resting orders and running totals. An event
is taken in completely, or refused with the book as it was.

Events are neither reordered nor kept for later: checking the place of an event in the stream and moving on are
separate steps, so that an event refused in between counts as never seen.
-/

namespace LimitBook

/-- The market that is followed and the number its next event must carry. -/
structure Cursor where
  market : MarketId
  next : Sequence
  deriving DecidableEq, Repr

namespace Cursor

/-- An event is in place if it is for this market and carries the next number. -/
def check (cursor : Cursor) (event : Event) : Except BookError Unit :=
  -- The market comes first: the numbers of another stream mean nothing here.
  if event.market ≠ cursor.market then .error (.marketMismatch cursor.market event.market)
  else if event.sequence ≠ cursor.next then .error (.sequence cursor.next event.sequence)
  else .ok ()

/-- One event has been taken in. -/
def advance (cursor : Cursor) : Cursor := { cursor with next := cursor.next + 1 }

/-- The stream continues from another number. -/
def resync (cursor : Cursor) (next : Sequence) : Cursor := { cursor with next }

/-- The event's number has been passed. -/
def isStale (cursor : Cursor) (event : Event) : Bool := decide (event.sequence < cursor.next)

end Cursor

/-- Whose book it is, where it stands in its stream, what rests in it, and its running totals. -/
structure Book where
  key : BookKey
  cursor : Cursor
  orders : OrderBook
  stats : Stats

namespace Book

/-- A fresh book whose first event must carry the given number. -/
def startingAt (key : BookKey) (origin : Sequence) : Book :=
  ⟨key, ⟨key.market, origin⟩, OrderBook.empty key.market, Stats.empty⟩

/-- A fresh book at the start of its stream. -/
def fresh (key : BookKey) : Book := startingAt key 0

/-- The market the book follows. -/
def market (book : Book) : MarketId := book.key.market

/-- The number the next event must carry. -/
def nextSequence (book : Book) : Sequence := book.cursor.next

/-- The order that an event brings in, before it has traded. -/
def arriving (book : Book) (sequence : Sequence) (new : NewOrder) : Order :=
  { id := new.id
    market := book.key.market
    owner := new.owner
    side := new.side
    price := new.price
    quantity := new.size
    remaining := new.size
    timestamp := new.timestamp
    arrival := sequence }

/-- An order comes in, trades for as long as it can, and rests with what is left. -/
def add (book : Book) (sequence : Sequence) (new : NewOrder) : Except BookError (Report × Book) := do
  if new.size = 0 then throw (.invalidSize new.id)
  -- It joins its queue before it trades: an order that is not in front of its side must not trade.
  let inserted ← book.orders.insert (book.arriving sequence new)
  let (fills, orders) := inserted.matchCrossed new.id
  let stats := (book.stats.recordAdded new.size).recordFills fills
  return (⟨sequence, fills, orders.find? new.id, none, orders.top⟩, { book with orders, stats })

/-- A resting order is taken out. -/
def remove (book : Book) (sequence : Sequence) (id : OrderId) : Except BookError (Report × Book) := do
  let (removed, orders) ← book.orders.cancel id
  -- Nothing can trade when an order leaves.
  let stats := book.stats.recordRemoved removed.remaining
  return (⟨sequence, [], none, some removed, orders.top⟩, { book with orders, stats })

/-- What an action does to the resting orders and the totals. -/
def act (book : Book) (sequence : Sequence) : Action → Except BookError (Report × Book)
  | .add new => book.add sequence new
  | .remove id => book.remove sequence id

/-- An event that is in place is carried out and counted. -/
def apply (book : Book) (event : Event) : Except BookError (Report × Book) := do
  book.cursor.check event
  let (report, book) ← book.act event.sequence event.action
  -- Only now has the event been taken in.
  return (report, { book with cursor := book.cursor.advance, stats := book.stats.recordEvent })

/-- The stream continues from another number; nothing else changes. -/
def resync (book : Book) (next : Sequence) : Book := { book with cursor := book.cursor.resync next }

/-- The event's number has been passed. -/
def isStale (book : Book) (event : Event) : Bool := book.cursor.isStale event

/-- The best prices and the sizes at them. -/
def top (book : Book) : Top := book.orders.top

/-- The middle between the best prices, as a binary fraction. -/
def midPrice? (book : Book) : Option Float := do
  let bid ← book.orders.bestBid?
  let ask ← book.orders.bestAsk?
  return (bid.ticks.toFloat + ask.ticks.toFloat) / 2.0

/-- So many best levels of each side. -/
def depth (book : Book) (levels : Nat) : Depth := book.orders.depth levels

/-- So many ticks outwards from the best prices; no more levels than ticks can be among them. -/
def ladder (book : Book) (ticks : Nat) : Ladder := Ladder.ofDepth (book.orders.depth ticks) ticks

/-- The fingerprint of the book. -/
def digest (book : Book) : List UInt8 := bookDigest book.key book.nextSequence book.orders

/-- How many ticks the text of a book shows. -/
def shownTicks : Nat := 5

/-- The book as text: a heading, then its ladder. -/
def render (book : Book) : String :=
  book.key.label ++ " next=" ++ decimal book.nextSequence ++ "\n" ++ (book.ladder shownTicks).render

end Book

end LimitBook
