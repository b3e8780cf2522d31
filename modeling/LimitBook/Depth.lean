import LimitBook.Order

/-!
Views of a book: aggregated, one line per price and best prices first, and as a ladder with a row for every tick away
from the best price, populated or not, and its text.
-/

namespace LimitBook

/-- The size and the number of orders at one price. -/
structure DepthLevel where
  price : Price
  quantity : Quantity
  orders : Nat
  deriving DecidableEq, Repr

/-- The best prices of both sides, best first. -/
structure Depth where
  bids : List DepthLevel
  asks : List DepthLevel
  deriving DecidableEq, Repr

namespace Depth

/-- No price is shown on either side. -/
def isEmpty (depth : Depth) : Bool := depth.bids.isEmpty && depth.asks.isEmpty

/-- The exact size over some lines, which may exceed a word. -/
def totalQuantity (levels : List DepthLevel) : Nat := levels.foldr (fun line n => line.quantity.toNat + n) 0

/-- The size shown on the buying side. -/
def bidQuantity (depth : Depth) : Nat := totalQuantity depth.bids

/-- The size shown on the selling side. -/
def askQuantity (depth : Depth) : Nat := totalQuantity depth.asks

/-- The size shown at one price on either side, as a word. -/
def quantityAt (depth : Depth) (price : Price) : Quantity :=
  -- A book's view lists a price at most once a side; of any other view all its lines count.
  ((depth.bids ++ depth.asks).filter (·.price = price)).foldr (fun line n => line.quantity + n) 0

end Depth

/-- The size resting at one tick. -/
structure LadderRow where
  price : Price
  quantity : Quantity
  deriving DecidableEq, Repr

/-- Rows of both sides, from the best price outwards. -/
structure Ladder where
  bids : List LadderRow
  asks : List LadderRow
  deriving DecidableEq, Repr

namespace Ladder

/-- The ticks met on the way outwards from a price, as far as prices go. -/
def outward (step? : Price → Nat → Option Price) (best : Price) (offset : Nat) : Nat → List Price
  | 0 => []
  | ticks + 1 =>
    -- Where prices end, so does the ladder.
    match step? best offset with
    | some price => price :: outward step? best (offset + 1) ticks
    | none => []

/-- One row for each tick from the best price of a side outwards. -/
def rows (depth : Depth) (levels : List DepthLevel) (step? : Price → Nat → Option Price) (ticks : Nat) :
    List LadderRow :=
  -- Every tick gets a row, and the view says what rests there.
  match levels.head? with
  | some level => (outward step? level.price 0 ticks).map fun price => ⟨price, depth.quantityAt price⟩
  | none => []

/-- A ladder of so many ticks on each side of a view. -/
def ofDepth (depth : Depth) (ticks : Nat) : Ladder :=
  -- Outwards means downwards for buyers and upwards for sellers.
  { bids := rows depth depth.bids Price.down? ticks
    asks := rows depth depth.asks Price.up? ticks }

/-- The width of a column. -/
def columnWidth : Nat := 4

/-- A number at the right end of its column. -/
def cell (n : UInt64) : String :=
  -- A longer number keeps all its digits and widens the line.
  let digits := decimal n
  String.ofList (List.replicate (columnWidth - digits.length) ' ') ++ digits

/-- The line of a tick at which nothing rests. -/
def blankRow (row : LadderRow) : String := "     | " ++ cell row.price.ticks ++ " |"

/-- The line of a tick on the selling side: the size stands right of the price. -/
def askLine (row : LadderRow) : String :=
  if row.quantity = 0 then blankRow row
  else "     | " ++ cell row.price.ticks ++ " | " ++ cell row.quantity

/-- The line of a tick on the buying side: the size stands left of the price. -/
def bidLine (row : LadderRow) : String :=
  if row.quantity = 0 then blankRow row
  else cell row.quantity ++ " | " ++ cell row.price.ticks ++ " |"

/-- The lines of a ladder: prices fall from top to bottom, with a rule between the sides. -/
def lines (ladder : Ladder) : List String :=
  -- The selling side is printed from its far end, so that the best prices face each other.
  ["bids | price| asks"] ++ ladder.asks.reverse.map askLine ++ ["-----+------+-----"] ++ ladder.bids.map bidLine

/-- The ladder as text, every line ended. -/
def render (ladder : Ladder) : String := String.join (ladder.lines.map (· ++ "\n"))

end Ladder

end LimitBook
