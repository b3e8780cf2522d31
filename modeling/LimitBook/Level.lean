import LimitBook.Order

/-! The queue of orders at one price, first come first served, with its total kept up to date. -/

namespace LimitBook

/-- Orders at one price in order of arrival, and the sum of what is left of them. -/
structure Level where
  price : Price
  orders : List Order
  total : Quantity
  deriving DecidableEq, Repr

namespace Level

/-- A level at which nobody waits. -/
def empty (price : Price) : Level := ⟨price, [], 0⟩

/-- Nobody waits. -/
def isEmpty (level : Level) : Bool := level.orders.isEmpty

/-- How many orders wait. -/
def size (level : Level) : Nat := level.orders.length

/-- The total has room for so much more. -/
def canAccept (level : Level) (quantity : Quantity) : Bool :=
  -- The sum is exact: added up as words it might wrap around.
  level.total.toNat + quantity.toNat < UInt64.size

/-- An order joins the queue at its end. -/
def push (level : Level) (order : Order) : Level :=
  { level with orders := level.orders ++ [order], total := level.total + order.remaining }

/-- The order that is served next. -/
def front? (level : Level) : Option Order := level.orders.head?

/-- The front order trades: what is left of it stays in front, and an order used up leaves. -/
def fillFront? (level : Level) (quantity : Quantity) : Option (Quantity × Level) :=
  match level.orders with
  | [] => none
  | front :: waiting =>
    -- The queue and its total lose the same amount.
    let left := front.remaining - quantity
    let orders := if left = 0 then waiting else { front with remaining := left } :: waiting
    some (left, { level with orders, total := level.total - quantity })

/-- The waiting order of a given number. -/
def find? (level : Level) (id : OrderId) : Option Order := level.orders.find? (·.id = id)

/-- An order leaves the queue from wherever it stands. -/
def remove? (level : Level) (id : OrderId) : Option (Order × Level) :=
  -- What is left of the order leaves the total with it.
  (level.find? id).map fun order =>
    (order, { level with orders := level.orders.eraseP (·.id = id), total := level.total - order.remaining })

end Level

end LimitBook
