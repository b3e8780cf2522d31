import LimitBook.Error

/-! Settings of trackers, of the books they follow and of the lanes that serve them. -/

namespace LimitBook

/-- What a replay does with a refused line: stop there, or count it and go on. -/
inductive ErrorPolicy where
  | halt
  | skip
  deriving DecidableEq, Repr

/-- A book to be followed, and the number its first event must carry. -/
structure BookSpec where
  owner : OwnerId
  market : MarketId
  origin : Sequence
  deriving DecidableEq, Repr

namespace BookSpec

/-- The number of the first event, if nothing else is said. -/
def defaultOrigin : Sequence := 0

/-- The key of the book. -/
def key (spec : BookSpec) : BookKey := ⟨spec.owner, spec.market⟩

end BookSpec

/-- How much a lane holds: waiting commands, and updates kept for slow subscribers. -/
structure LaneCapacity where
  mailbox : UInt64
  updates : UInt64
  deriving DecidableEq, Repr

/-- The room of a lane, if nothing else is said. -/
def LaneCapacity.default : LaneCapacity := ⟨1024, 256⟩

/-- What a tracker follows and how it shows it. -/
structure TrackerConfig where
  owner : OwnerId
  books : List BookSpec
  depthLevels : UInt64
  errorPolicy : ErrorPolicy
  lane : LaneCapacity
  deriving DecidableEq, Repr

namespace TrackerConfig

/-- How many ladder rows are shown, if nothing else is said. -/
def defaultDepthLevels : UInt64 := 5

/-- A tracker of some markets, all books its owner's, with default settings. -/
def forMarkets (owner : OwnerId) (markets : List MarketId) : TrackerConfig :=
  { owner
    books := markets.map fun market => ⟨owner, market, BookSpec.defaultOrigin⟩
    depthLevels := defaultDepthLevels
    errorPolicy := .halt
    lane := .default }

/-- The first market that was met before, among those met already and those to come. -/
def firstRepeated? (met : List MarketId) : List MarketId → Option MarketId
  | [] => none
  -- A market that is met for the first time is remembered for those to come.
  | market :: markets => if met.contains market then some market else firstRepeated? (market :: met) markets

/-- What is wrong with a configuration, the first fault in a fixed order. -/
def fault? (config : TrackerConfig) : Option ConfigFault :=
  -- Each test stands behind those whose faults are named first.
  if config.books.isEmpty then some .noMarkets
  else
    match firstRepeated? [] (config.books.map (·.market)) with
    | some market => some (.repeatedMarket market)
    | none =>
      if config.depthLevels = 0 ∨ maxDepthLevels < config.depthLevels.toNat then
        some (.depthOutOfRange config.depthLevels)
      else if config.lane.mailbox = 0 ∨ config.lane.updates = 0 then some .noLaneCapacity
      else none

/-- A configuration is fit for use if nothing is wrong with it. -/
def validate (config : TrackerConfig) : Except BookError Unit :=
  match config.fault? with
  | some fault => .error (.configuration fault)
  | none => .ok ()

end TrackerConfig

end LimitBook
