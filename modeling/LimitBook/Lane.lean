import LimitBook.Book
import LimitBook.Config

/-!
Lanes: a book behind a mailbox. Commands are served one at a time in the order of the mailbox, and every
accepted event is published to subscribers. A subscriber that falls behind loses the oldest updates; the book
never waits.
-/

namespace LimitBook

/-- What a lane publishes about an accepted event. -/
structure Update where
  market : MarketId
  sequence : Sequence
  fills : List Fill
  top : Top
  deriving DecidableEq, Repr

/-- Published updates: how many there were in all, and the latest of them, oldest first. -/
structure Feed where
  room : Nat
  sent : Nat
  kept : List Update
  deriving DecidableEq, Repr

/-- A subscriber has seen, or lost, so many of the updates. -/
structure Subscriber where
  seen : Nat
  deriving DecidableEq, Repr

/-- What a subscriber is told. -/
inductive Received where
  | update (update : Update)
  /-- There is nothing new. -/
  | empty
  /-- There is nothing new and never will be. -/
  | closed
  /-- So many updates were lost. -/
  | lagged (count : Nat)
  deriving DecidableEq, Repr

namespace Feed

/-- A feed that has published nothing; its room is the next power of two. -/
def empty (capacity : Nat) : Feed := ⟨(max capacity 1).nextPowerOfTwo, 0, []⟩

/-- One more update is published, and the oldest is dropped if there is no room. -/
def publish (feed : Feed) (update : Update) : Feed :=
  -- At most one update is dropped, and only when the feed was full.
  let kept := feed.kept ++ [update]
  { feed with sent := feed.sent + 1, kept := kept.drop (kept.length - feed.room) }

/-- How many updates have been dropped. -/
def dropped (feed : Feed) : Nat := feed.sent - feed.kept.length

/-- A new subscriber sees what is published from now on. -/
def subscribe (feed : Feed) : Subscriber := ⟨feed.sent⟩

/-- The oldest update that a subscriber has not seen; it learns of lost ones first. -/
def receive (feed : Feed) (closed : Bool) (subscriber : Subscriber) : Received × Subscriber :=
  -- A subscriber is behind if something it has not seen is no longer kept.
  if subscriber.seen < feed.dropped then (.lagged (feed.dropped - subscriber.seen), ⟨feed.dropped⟩)
  else
    match feed.kept[subscriber.seen - feed.dropped]? with
    | some update => (.update update, ⟨subscriber.seen + 1⟩)
    | none => (if closed then .closed else .empty, subscriber)

end Feed

/-- What a lane can be asked. -/
inductive Command where
  | apply (event : Event)
  | top
  | depth (levels : Nat)
  | stats
  /-- The lane hands out its book and stops. -/
  | close
  deriving DecidableEq, Repr

/-- What a lane answers. -/
inductive Answer where
  | report (report : Report)
  | top (top : Top)
  | depth (depth : Depth)
  | stats (stats : Stats)
  | book (book : Book)

/-- A lane: its book while it runs, its updates, and how many handles there are to it. -/
structure Lane where
  market : MarketId
  book : Option Book
  feed : Feed
  handles : Nat

namespace Lane

/-- A lane starts with a book and one handle. The mailbox may be of any size: who finds it full waits. -/
def start (book : Book) (capacity : LaneCapacity) : Lane :=
  ⟨book.market, some book, .empty capacity.updates.toNat, 1⟩

/-- What a running lane answers to a command, its book afterwards if it goes on, and what it publishes. -/
def respond (book : Book) : Command → Except BookError Answer × Option Book × Option Update
  | .apply event =>
    match book.apply event with
    -- Only an accepted event is published.
    | .ok (report, next) =>
      (.ok (.report report), some next, some ⟨book.market, report.sequence, report.fills, report.top⟩)
    | .error error => (.error error, some book, none)
  | .top => (.ok (.top book.top), some book, none)
  | .depth levels => (.ok (.depth (book.depth levels)), some book, none)
  | .stats => (.ok (.stats book.stats), some book, none)
  | .close => (.ok (.book book), none, none)

/-- A command is served; a lane that has stopped serves none. -/
def serve (lane : Lane) (command : Command) : Except BookError Answer × Lane :=
  match lane.book with
  | none => (.error (.laneClosed lane.market), lane)
  | some book =>
    -- The update goes out whether or not somebody subscribes.
    let (answer, book, update) := respond book command
    let feed := update.elim lane.feed lane.feed.publish
    (answer, { lane with book, feed })

/-- The commands of a mailbox are served in order; those behind a close find the lane stopped. -/
def serveAll (lane : Lane) : List Command → List (Except BookError Answer) × Lane
  | [] => ([], lane)
  | command :: commands =>
    let (answer, lane) := lane.serve command
    let (answers, lane) := lane.serveAll commands
    (answer :: answers, lane)

/-- One more handle. -/
def clone (lane : Lane) : Lane := { lane with handles := lane.handles + 1 }

/-- One handle less; without handles no command can come any more and the lane stops. -/
def drop (lane : Lane) : Lane :=
  -- Updates already published stay within reach of subscribers.
  let handles := lane.handles - 1
  { lane with handles, book := if handles = 0 then none else lane.book }

/-- No update can come any more: the lane has stopped and no handle could publish. -/
def isSilent (lane : Lane) : Bool := lane.book.isNone && lane.handles == 0

/-- A new subscriber. -/
def subscribe (lane : Lane) : Subscriber := lane.feed.subscribe

/-- What a subscriber is told next. -/
def receive (lane : Lane) (subscriber : Subscriber) : Received × Subscriber :=
  lane.feed.receive lane.isSilent subscriber

end Lane

end LimitBook
