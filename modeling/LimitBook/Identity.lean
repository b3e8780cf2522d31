/-! The numbers a venue assigns to markets, orders and owners, and the key of one tracked book. -/

namespace LimitBook

/-- A market, by the number the venue gave it. -/
structure MarketId where
  number : UInt64
  deriving DecidableEq, Repr

/-- An order, by the number the venue gave it. -/
structure OrderId where
  number : UInt64
  deriving DecidableEq, Repr

/-- An owner of orders or of a tracker, by the number the venue gave it. -/
structure OwnerId where
  number : UInt64
  deriving DecidableEq, Repr

/-- A tracked book belongs to one owner and follows one market. -/
structure BookKey where
  owner : OwnerId
  market : MarketId
  deriving DecidableEq, Repr

/-- A word in decimal, without leading zeros. -/
def decimal (n : UInt64) : String := n.toNat.repr

namespace MarketId

/-- The market as it is named in messages. -/
def label (market : MarketId) : String := "market:" ++ decimal market.number

/-- Markets are listed by rising number. -/
instance : Ord MarketId := ⟨fun a b => compare a.number b.number⟩

/-- Rising numbers order the markets. -/
instance : Std.TransOrd MarketId where
  eq_swap {a b} := Std.OrientedOrd.eq_swap (a := a.number) (b := b.number)
  isLE_trans {a b c} := Std.TransOrd.isLE_trans (a := a.number) (b := b.number) (c := c.number)

/-- Markets of the same number are the same market. -/
instance : Std.LawfulEqOrd MarketId where
  eq_of_compare {a b} same := by
    -- The number is the only field.
    cases a; cases b
    exact congrArg MarketId.mk (Std.LawfulEqOrd.eq_of_compare (α := UInt64) same)

end MarketId

namespace OrderId

/-- The order as it is named in messages. -/
def label (order : OrderId) : String := "order:" ++ decimal order.number

/-- Orders are looked up by number. -/
instance : Ord OrderId := ⟨fun a b => compare a.number b.number⟩

/-- Rising numbers order the orders. -/
instance : Std.TransOrd OrderId where
  eq_swap {a b} := Std.OrientedOrd.eq_swap (a := a.number) (b := b.number)
  isLE_trans {a b c} := Std.TransOrd.isLE_trans (a := a.number) (b := b.number) (c := c.number)

/-- Orders of the same number are the same order. -/
instance : Std.LawfulEqOrd OrderId where
  eq_of_compare {a b} same := by
    -- The number is the only field.
    cases a; cases b
    exact congrArg OrderId.mk (Std.LawfulEqOrd.eq_of_compare (α := UInt64) same)

end OrderId

namespace OwnerId

/-- The owner as it is named in messages. -/
def label (owner : OwnerId) : String := "owner:" ++ decimal owner.number

end OwnerId

namespace BookKey

/-- The book as it is named in messages: its market, then its owner. -/
def label (key : BookKey) : String := key.market.label ++ "@" ++ key.owner.label

/-- Books are ordered by owner, and those of one owner by market. -/
instance : Ord BookKey where
  compare a b := (compare a.owner.number b.owner.number).then (compare a.market.number b.market.number)

end BookKey

end LimitBook
