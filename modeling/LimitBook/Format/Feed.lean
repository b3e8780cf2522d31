import LimitBook.Format.Report
import LimitBook.Lane
import LimitBook.Replay

/-! Views, ladders, replay summaries and published updates as JSON. -/

namespace LimitBook

open Json

/-- A line of a view by its parts. -/
def DepthLevel.codec : Codec DepthLevel :=
  .record "DepthLevel"
    (.cons (.required "price" Price.codec) <| .cons (.required "quantity" .word) <|
      .cons (.required "orders" .size) .nil)
    (fun level => (level.price, level.quantity, level.orders, ()))
    (fun (price, quantity, orders, ()) => ⟨price, quantity, orders⟩)

/-- A view by its sides. -/
def Depth.codec : Codec Depth :=
  .record "DepthView"
    (.cons (.required "bids" DepthLevel.codec.list) <| .cons (.required "asks" DepthLevel.codec.list) .nil)
    (fun depth => (depth.bids, depth.asks, ()))
    (fun (bids, asks, ()) => ⟨bids, asks⟩)

/-- A row of a ladder by its parts. -/
def LadderRow.codec : Codec LadderRow :=
  .record "LadderRow"
    (.cons (.required "price" Price.codec) <| .cons (.required "quantity" .word) .nil)
    (fun row => (row.price, row.quantity, ()))
    (fun (price, quantity, ()) => ⟨price, quantity⟩)

/-- A ladder by its sides. -/
def Ladder.codec : Codec Ladder :=
  .record "Ladder"
    (.cons (.required "bids" LadderRow.codec.list) <| .cons (.required "asks" LadderRow.codec.list) .nil)
    (fun ladder => (ladder.bids, ladder.asks, ()))
    (fun (bids, asks, ()) => ⟨bids, asks⟩)

/-- A summary by its counts. -/
def Summary.codec : Codec Summary :=
  .record "ReplaySummary"
    (.cons (.required "lines_read" .count) <| .cons (.required "events_applied" .count) <|
      .cons (.required "events_rejected" .count) <| .cons (.required "fills" .count) .nil)
    (fun summary => (summary.linesRead, summary.eventsApplied, summary.eventsRejected, summary.fills, ()))
    (fun (linesRead, eventsApplied, eventsRejected, fills, ()) =>
      ⟨linesRead, eventsApplied, eventsRejected, fills⟩)

/-- An update by its parts. -/
def Update.codec : Codec Update :=
  .record "BookUpdate"
    (.cons (.required "market" MarketId.codec) <| .cons (.required "sequence" .word) <|
      .cons (.required "fills" Fill.codec.list) <| .cons (.required "top" Top.codec) .nil)
    (fun update => (update.market, update.sequence, update.fills, update.top, ()))
    (fun (market, sequence, fills, top, ()) => ⟨market, sequence, fills, top⟩)

end LimitBook
