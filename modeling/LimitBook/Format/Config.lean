import LimitBook.Config
import LimitBook.Format.Report

/-! Settings as JSON. -/

namespace LimitBook

open Json

/-- A policy by its name. -/
def ErrorPolicy.codec : Codec ErrorPolicy :=
  .choice [("halt", .halt), ("skip", .skip)] fun
    | .halt => "halt"
    | .skip => "skip"

/-- A book to be followed by its parts; its first number may be left out. -/
def BookSpec.codec : Codec BookSpec :=
  .record "BookConfig"
    (.cons (.required "owner" OwnerId.codec) <| .cons (.required "market" MarketId.codec) <|
      .cons (.withDefault "sequence_origin" .word defaultOrigin) .nil)
    (fun spec => (spec.owner, spec.market, spec.origin, ()))
    (fun (owner, market, origin, ()) => ⟨owner, market, origin⟩)

/-- The room of a lane by its parts. -/
def LaneCapacity.codec : Codec LaneCapacity :=
  .record "LaneConfig"
    (.cons (.required "mailbox_capacity" .capacity) <| .cons (.required "update_capacity" .capacity) .nil)
    (fun lane => (lane.mailbox, lane.updates, ()))
    (fun (mailbox, updates, ()) => ⟨mailbox, updates⟩)

namespace TrackerConfig

/-- A tracker's settings by their parts; all but the owner and the books may be left out. -/
def codec : Codec TrackerConfig :=
  .record "TrackerConfig"
    (.cons (.required "owner" OwnerId.codec) <| .cons (.required "markets" BookSpec.codec.list) <|
      .cons (.withDefault "depth_levels" .capacity defaultDepthLevels) <|
      .cons (.withDefault "error_policy" ErrorPolicy.codec .halt) <|
      .cons (.withDefault "lane" LaneCapacity.codec .default) .nil)
    (fun config => (config.owner, config.books, config.depthLevels, config.errorPolicy, config.lane, ()))
    (fun (owner, books, depthLevels, errorPolicy, lane, ()) =>
      ⟨owner, books, depthLevels, errorPolicy, lane⟩)

/-- The configuration that a text holds, if it is fit for use. -/
def parse (text : String) : Except BookError TrackerConfig :=
  match codec.parse text with
  | .error reason => .error (.configuration (.unreadable reason))
  | .ok config => config.validate.map fun _ => config

end TrackerConfig

end LimitBook
