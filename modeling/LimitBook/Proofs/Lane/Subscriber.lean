import LimitBook.Proofs.Lane.Mailbox

/-!
What a subscriber of a lane is told. A feed keeps only the latest updates, but it answers as somebody would who kept
all of them and showed no more than there is room for. A subscriber that asks now and then, however the lane and its
clients take turns in between, is told the updates from its subscription on in their order, each at most once, and is
told of every update that it has lost.
-/

namespace LimitBook

open Relation (ReflTransGen)

namespace Feed

/-- A feed has counted all that was published, and keeps the latest of it, as much as there is room for. -/
structure Holds (feed : Feed) (published : List Update) : Prop where
  sent : feed.sent = published.length
  kept : feed.kept = published.drop (published.length - feed.room)

/--
What is told to a subscriber that has got past so many updates, and how far it has got then, if all that was published
is kept and only the latest updates are shown: what it has missed, or the next update, or that there is none.
-/
def tell (room : Nat) (published : List Update) (closed : Bool) (seen : Nat) : Received × Subscriber :=
  if seen + room < published.length then
    (.lagged (published.length - room - seen), ⟨published.length - room⟩)
  else
    match published[seen]? with
    | some update => (.update update, ⟨seen + 1⟩)
    | none => (if closed then .closed else .empty, ⟨seen⟩)

variable {feed : Feed} {published : List Update}

/-- A feed that has published nothing holds nothing. -/
theorem holds_empty (capacity : Nat) : (empty capacity).Holds [] := ⟨rfl, List.drop_nil.symm⟩

/-- A feed keeps the room that it started with. -/
theorem room_foldl (feed : Feed) (updates : List Update) : (updates.foldl publish feed).room = feed.room := by
  -- No update changes the room, whatever the feed has kept by then.
  induction updates generalizing feed with
  | nil => rfl
  | cons update updates ih => exact ih _

/-- One more update is counted and kept, and the oldest makes room for it if need be. -/
theorem Holds.publish (holds : feed.Holds published) (update : Update) :
    (feed.publish update).Holds (published ++ [update]) := by
  obtain ⟨sent, kept⟩ := holds
  refine ⟨?_, ?_⟩
  · rw [List.length_append, ← sent]
    rfl
  · -- What was kept and the update are the end of all; of this the oldest is dropped if it is too much.
    have latest : feed.kept ++ [update] = (published ++ [update]).drop (published.length - feed.room) := by
      rw [kept, List.drop_append_of_le_length (Nat.sub_le _ _)]
    show (feed.kept ++ [update]).drop ((feed.kept ++ [update]).length - feed.room) =
      (published ++ [update]).drop ((published ++ [update]).length - feed.room)
    rw [latest, List.drop_drop, List.length_drop, List.length_append, List.length_singleton]
    congr 1
    omega

/-- Updates that are published one after another are held in this order. -/
theorem Holds.foldl (holds : feed.Holds published) (updates : List Update) :
    (updates.foldl Feed.publish feed).Holds (published ++ updates) := by
  -- What has been published so far varies along the updates.
  induction updates generalizing feed published with
  | nil =>
    rw [List.append_nil]
    exact holds
  | cons update updates ih =>
    rw [List.append_cons]
    exact ih (holds.publish update)

/-- Whoever subscribes has got past all that was published so far. -/
theorem Holds.subscribe (holds : feed.Holds published) : feed.subscribe = ⟨published.length⟩ :=
  congrArg Subscriber.mk holds.sent

/-- A feed tells a subscriber what it would be told if nothing had been dropped. -/
theorem Holds.receive (holds : feed.Holds published) (closed : Bool) (seen : Nat) :
    feed.receive closed ⟨seen⟩ = tell feed.room published closed seen := by
  obtain ⟨sent, kept⟩ := holds
  have dropped : feed.dropped = published.length - feed.room := by
    rw [Feed.dropped, sent, kept, List.length_drop]
    omega
  unfold Feed.receive tell
  rw [dropped]
  by_cases behind : seen + feed.room < published.length
  · -- The next update is among those that have been dropped.
    have lost : seen < published.length - feed.room := by omega
    rw [if_pos lost, if_pos behind]
  · have within : ¬seen < published.length - feed.room := by omega
    -- The place of the next update among the kept ones is its place among all.
    have place : published.length - feed.room + (seen - (published.length - feed.room)) = seen := by omega
    cases next : published[seen]? with
    | some update => rw [if_neg within, if_neg behind, kept, List.getElem?_drop, place, next]
    | none => rw [if_neg within, if_neg behind, kept, List.getElem?_drop, place, next]

end Feed

/-- How many updates a subscriber gets past with what it is told. -/
def Received.count : Received → Nat
  | .update _ => 1
  | .lagged count => count
  | .empty | .closed => 0

/-- The update that a subscriber is told, if it is told one. -/
def Received.update? : Received → Option Update
  | .update news => some news
  | .lagged _ | .empty | .closed => none

/-- How many updates a subscriber gets past with all that it is told. -/
def passed (told : List Received) : Nat := told.foldr (fun received n => received.count + n) 0

namespace Lane

variable {lane : Lane} {book : Book} {published : List Update}

/-- The book of a lane, while there is one, is that of its market. -/
def IsOwn (lane : Lane) : Prop := ∀ book, lane.book = some book → book.market = lane.market

/-- Serving a command leaves a lane its market. -/
theorem market_serve (lane : Lane) (command : Command) : (lane.serve command).2.market = lane.market := by
  -- Whether there is a book or not, the market of the lane is not touched.
  unfold serve
  cases lane.book <;> rfl

/-- Serving a command leaves the lane a book of its market, if it leaves it one. -/
theorem IsOwn.serve (own : lane.IsOwn) (command : Command) : (lane.serve command).2.IsOwn := by
  intro next runs
  rw [market_serve]
  cases running : lane.book with
  | none =>
    simp [Lane.serve, running] at runs
  | some book =>
    -- The book goes on unless it is handed out, and commands do not change its market.
    rw [serve_of_running running] at runs
    have same := (Option.ite_none_left_eq_some.mp runs).2
    rw [← Option.some.inj same, market_bookAfter]
    exact own book running

/-- What a lane publishes about a command is what it reports in the answer. -/
theorem holds_serve (holds : lane.feed.Holds published) (own : lane.IsOwn) (command : Command) :
    (lane.serve command).2.feed.Holds
      (published ++ ((report? (lane.serve command).1).map (Update.about lane.market)).toList) := by
  cases running : lane.book with
  | none => simpa [serve, running, report?] using holds
  | some book =>
    rw [serve_of_running running, ← own book running]
    show ((updateOf book command).elim lane.feed lane.feed.publish).Holds
      (published ++ (updateOf book command).toList)
    -- Without an update nothing is reported either.
    cases updateOf book command with
    | none => simpa using holds
    | some update => exact holds.publish update

/-- What a lane publishes when it serves commands one after another is what its answers report. -/
theorem holds_serveAll (holds : lane.feed.Holds published) (own : lane.IsOwn) (commands : List Command) :
    (lane.serveAll commands).2.feed.Holds
      (published ++ ((lane.serveAll commands).1.filterMap report?).map (Update.about lane.market)) := by
  -- The induction is on the commands; the lane and what it has published vary along them.
  induction commands generalizing lane published with
  | nil => simpa [serveAll] using holds
  | cons command commands ih =>
    have later := ih (holds_serve holds own command) (own.serve command)
    rw [market_serve, List.append_assoc] at later
    show ((lane.serve command).2.serveAll commands).2.feed.Holds (published ++
      (((lane.serve command).1 :: ((lane.serve command).2.serveAll commands).1).filterMap report?).map
        (Update.about lane.market))
    -- A report in the first answer comes ahead of those in the others.
    cases reported : report? (lane.serve command).1 with
    | none => simpa [List.filterMap_cons, reported] using later
    | some report => simpa [List.filterMap_cons, reported] using later

/-- A subscriber of a lane that has served commands one after another is told what its answers report. -/
theorem receive_serveAll (book : Book) (capacity : LaneCapacity) (commands : List Command) (seen : Nat) :
    let (answers, lane) := (start book capacity).serveAll commands
    lane.receive ⟨seen⟩ = Feed.tell lane.feed.room ((answers.filterMap report?).map (Update.about book.market))
      lane.isSilent seen := by
  have own : (start book capacity).IsOwn := fun other running => by
    rw [← Option.some.inj running]
    rfl
  -- The lane starts with a feed that holds nothing.
  exact (holds_serveAll (Feed.holds_empty capacity.updates.toNat) own commands).receive _ seen

namespace Exchange

/-- No update can come any more: the task is gone, and so are all handles. -/
def isSilent (x : Exchange) : Bool :=
  match x.task with
  | .gone => x.handles == 0
  | .running _ | .leaving => false

/-- A new subscriber. -/
def subscribe (x : Exchange) : Subscriber := x.feed.subscribe

/-- What a subscriber is told next. -/
def receive (x : Exchange) (subscriber : Subscriber) : Received × Subscriber :=
  x.feed.receive x.isSilent subscriber

/-- A lane with its clients, and a subscriber among them: how far it has got, and what it has been told so far. -/
structure Listener where
  exchange : Exchange
  subscriber : Subscriber
  told : List Received

namespace Listener

/-- Whoever subscribes has not been told anything yet. -/
def start (x : Exchange) : Listener := ⟨x, x.subscribe, []⟩

/-- A subscriber has been told what was published from a place on, and knows what it has lost. -/
structure Follows (joined : Nat) (l : Listener) : Prop where
  /-- It has got past what it was told or has lost. -/
  seen : l.subscriber.seen = joined + passed l.told
  /-- It is not ahead of what was published. -/
  within : l.subscriber.seen ≤ l.exchange.published.length
  /-- Every update that it was told was published in this place. -/
  heard : ∀ before update after, l.told = before ++ .update update :: after →
    l.exchange.published[joined + passed before]? = some update
  /-- If it has lost nothing, it was told all updates one after another. -/
  complete : (∀ count, .lagged count ∉ l.told) →
    l.told.filterMap Received.update? = (l.exchange.published.drop joined).take (passed l.told)
  /-- If it was told that nothing comes any more, it has got past everything, and nothing will come. -/
  ended : .closed ∈ l.told → l.exchange.isSilent = true ∧ l.subscriber.seen = l.exchange.published.length

variable {book : Book} {market : MarketId} {x y : Exchange} {l m : Listener} {joined : Nat}
  {told before after : List Received} {last : Received} {update : Update}

end Listener

end Exchange

end Lane

end LimitBook
