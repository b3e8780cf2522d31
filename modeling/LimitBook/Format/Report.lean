import LimitBook.Json.Record
import LimitBook.Report

/-! Orders, fills, reports and totals as JSON. Identifiers and prices are plain integers, sides are lower-case names. -/

namespace LimitBook

open Json

/-- A market by its number. -/
def MarketId.codec : Codec MarketId := Codec.word.map MarketId.mk MarketId.number

/-- An order by its number. -/
def OrderId.codec : Codec OrderId := Codec.word.map OrderId.mk OrderId.number

/-- An owner by its number. -/
def OwnerId.codec : Codec OwnerId := Codec.word.map OwnerId.mk OwnerId.number

/-- A price by its ticks. -/
def Price.codec : Codec Price := Codec.word.map Price.mk Price.ticks

/-- A side by its name. -/
def Side.codec : Codec Side :=
  .choice [("buy", .buy), ("sell", .sell)] fun
    | .buy => "buy"
    | .sell => "sell"

/-- A book's key by its parts. -/
def BookKey.codec : Codec BookKey :=
  .record "BookKey"
    (.cons (.required "owner" OwnerId.codec) <| .cons (.required "market" MarketId.codec) .nil)
    (fun key => (key.owner, key.market, ()))
    (fun (owner, market, ()) => ⟨owner, market⟩)

/-- A resting order by its parts. -/
def Order.codec : Codec Order :=
  .record "Order"
    (.cons (.required "id" OrderId.codec) <| .cons (.required "market" MarketId.codec) <|
      .cons (.required "owner" OwnerId.codec) <| .cons (.required "side" Side.codec) <|
      .cons (.required "price" Price.codec) <| .cons (.required "quantity" .word) <|
      .cons (.required "remaining" .word) <| .cons (.required "timestamp" .signedWord) <|
      .cons (.required "arrival" .word) .nil)
    (fun order => (order.id, order.market, order.owner, order.side, order.price, order.quantity,
      order.remaining, order.timestamp, order.arrival, ()))
    (fun (id, market, owner, side, price, quantity, remaining, timestamp, arrival, ()) =>
      ⟨id, market, owner, side, price, quantity, remaining, timestamp, arrival⟩)

/-- A fill by its parts. -/
def Fill.codec : Codec Fill :=
  .record "Fill"
    (.cons (.required "maker_order_id" OrderId.codec) <| .cons (.required "maker_owner" OwnerId.codec) <|
      .cons (.required "taker_order_id" OrderId.codec) <| .cons (.required "taker_owner" OwnerId.codec) <|
      .cons (.required "taker_side" Side.codec) <| .cons (.required "price" Price.codec) <|
      .cons (.required "quantity" .word) <| .cons (.required "maker_filled" .bool) <|
      .cons (.required "taker_filled" .bool) .nil)
    (fun fill => (fill.maker, fill.makerOwner, fill.taker, fill.takerOwner, fill.takerSide, fill.price,
      fill.quantity, fill.makerFilled, fill.takerFilled, ()))
    (fun (maker, makerOwner, taker, takerOwner, takerSide, price, quantity, makerFilled, takerFilled, ()) =>
      ⟨maker, makerOwner, taker, takerOwner, takerSide, price, quantity, makerFilled, takerFilled⟩)

/-- The best prices by their parts. -/
def Top.codec : Codec Top :=
  .record "TopOfBook"
    (.cons (.nullable "best_bid" Price.codec) <| .cons (.required "bid_size" .word) <|
      .cons (.nullable "best_ask" Price.codec) <| .cons (.required "ask_size" .word) .nil)
    (fun top => (top.bestBid, top.bidSize, top.bestAsk, top.askSize, ()))
    (fun (bestBid, bidSize, bestAsk, askSize, ()) => ⟨bestBid, bidSize, bestAsk, askSize⟩)

/-- A report by its parts. -/
def Report.codec : Codec Report :=
  .record "MatchReport"
    (.cons (.required "sequence" .word) <| .cons (.required "fills" Fill.codec.list) <|
      .cons (.nullable "resting" Order.codec) <| .cons (.nullable "removed" Order.codec) <|
      .cons (.required "top" Top.codec) .nil)
    (fun report => (report.sequence, report.fills, report.resting, report.removed, report.top, ()))
    (fun (sequence, fills, resting, removed, top, ()) => ⟨sequence, fills, resting, removed, top⟩)

/-- Running totals by their parts. -/
def Stats.codec : Codec Stats :=
  .record "BookStats"
    (.cons (.required "added_quantity" .wideTotal) <| .cons (.required "removed_quantity" .wideTotal) <|
      .cons (.required "executed_quantity" .wideTotal) <| .cons (.required "fill_count" .count) <|
      .cons (.required "volume" .wideTotal) <| .cons (.nullable "last_trade_price" Price.codec) <|
      .cons (.required "events_applied" .count) .nil)
    (fun stats => (stats.addedQuantity, stats.removedQuantity, stats.executedQuantity, stats.fillCount,
      stats.volume, stats.lastTradePrice, stats.eventsApplied, ()))
    (fun (added, removed, executed, fillCount, volume, lastTradePrice, eventsApplied, ()) =>
      ⟨added, removed, executed, fillCount, volume, lastTradePrice, eventsApplied⟩)

end LimitBook
