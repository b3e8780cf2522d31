import LimitBook.Digest.Sha256
import LimitBook.OrderBook

/-!
Fingerprints for comparing replicas. Fills and books are written as fixed-width little-endian bytes, resting
orders in the order in which they are served, and the bytes are hashed.
-/

namespace LimitBook

namespace Digest

/-- A word as eight bytes, lowest first. -/
def word (n : UInt64) : List UInt8 := (List.range 8).map fun i => (n >>> (8 * UInt64.ofNat i)).toUInt8

/-- A side as one byte. -/
def side : Side → UInt8
  | .buy => 0
  | .sell => 1

/-- The bytes that open the encoding of a list of fills. -/
def fillsTag : List UInt8 := "booktrack:fill_root:v1:".toUTF8.data.toList

/-- The bytes that open the encoding of a book. -/
def bookTag : List UInt8 := "booktrack:book:v1:".toUTF8.data.toList

/-- A fill as bytes: who traded, from which side, and for what. -/
def fill (f : Fill) : List UInt8 :=
  word f.maker.number ++ word f.makerOwner.number ++ word f.taker.number ++ word f.takerOwner.number
    ++ [side f.takerSide] ++ word f.price.ticks ++ word f.quantity

/-- A list of fills as bytes, its length first. -/
def fills (fs : List Fill) : List UInt8 :=
  -- Every fill takes up the same number of bytes, so the length alone tells where each ends.
  fillsTag ++ word (UInt64.ofNat fs.length) ++ fs.flatMap fill

/-- A resting order as bytes; its side and market are said elsewhere. -/
def order (o : Order) : List UInt8 :=
  word o.id.number ++ word o.owner.number ++ word o.price.ticks ++ word o.quantity ++ word o.remaining
    ++ word o.timestamp.toUInt64 ++ word o.arrival

/-- The orders of a side as bytes, the side and their number first. -/
def orders (s : Side) (os : List Order) : List UInt8 :=
  -- The number says where this side ends and the next one starts.
  side s :: word (UInt64.ofNat os.length) ++ os.flatMap order

/-- A book as bytes: whose it is, where it stands in its stream, and what rests in it. -/
def book (key : BookKey) (next : Sequence) (b : OrderBook) : List UInt8 :=
  -- Totals are left out: replicas agree if they will behave alike from here on.
  bookTag ++ word key.owner.number ++ word key.market.number ++ word next
    ++ orders .buy (b.orders .buy) ++ orders .sell (b.orders .sell)

/-- Bytes in hexadecimal, two lower-case digits each. -/
def hex (bytes : List UInt8) : String :=
  String.ofList (bytes.flatMap fun b => [Nat.digitChar (b.toNat / 16), Nat.digitChar (b.toNat % 16)])

end Digest

/-- The fingerprint of a list of fills. -/
def fillRoot (fills : List Fill) : List UInt8 := Sha256.hash (Digest.fills fills)

/-- A list of fills has the expected fingerprint. -/
def verifyFillRoot (fills : List Fill) (expected : List UInt8) : Bool := fillRoot fills == expected

/-- The fingerprint of the resting orders of a book at a place in its stream. -/
def bookDigest (key : BookKey) (next : Sequence) (book : OrderBook) : List UInt8 :=
  Sha256.hash (Digest.book key next book)

end LimitBook
