import LimitBook.Book
import LimitBook.Config

/-!
A registry of books, one for each market. Whoever registered or took out a book keeps a handle to it, and a
handle reaches its book whether or not the market is still listed.
-/

namespace LimitBook

/-- A way to one of the books that a registry has ever held. -/
structure BookHandle where
  place : Nat
  deriving DecidableEq, Repr

/-- All books ever registered in order, and for each listed market the handle of its book. -/
structure Registry where
  shelf : Array Book
  listed : Std.ExtTreeMap MarketId BookHandle

namespace Registry

/-- A registry that has never held a book. -/
def empty : Registry := ⟨#[], ∅⟩

/-- The book behind a handle. -/
def book? (registry : Registry) (handle : BookHandle) : Option Book := registry.shelf[handle.place]?

/-- A market is listed. -/
def contains (registry : Registry) (market : MarketId) : Bool := registry.listed.contains market

/-- A book is put on the shelf and its market listed, unless the market is listed already. -/
def register (registry : Registry) (book : Book) : Except BookError (BookHandle × Registry) :=
  -- Places on the shelf are never given out twice, so a handle means the same book forever.
  if registry.contains book.market then .error (.duplicateBook book.market)
  else
    let handle : BookHandle := ⟨registry.shelf.size⟩
    .ok (handle, ⟨registry.shelf.push book, registry.listed.insert book.market handle⟩)

/-- The handle of a listed market. -/
def find (registry : Registry) (market : MarketId) : Except BookError BookHandle :=
  match registry.listed[market]? with
  | some handle => .ok handle
  | none => .error (.bookNotFound market)

/-- A market is listed no more; its book stays within reach of its handle. -/
def deregister (registry : Registry) (market : MarketId) : Except BookError (BookHandle × Registry) := do
  let handle ← registry.find market
  return (handle, { registry with listed := registry.listed.erase market })

/-- The book behind a handle takes an event in; a handle of another registry reaches nothing. -/
def applyAt (registry : Registry) (handle : BookHandle) (event : Event) :
    Except BookError (Report × Registry) :=
  match registry.book? handle with
  | none => .error (.bookNotFound event.market)
  | some book => do
    -- A refusal leaves the shelf as it was, since the new book never gets there.
    let (report, book) ← book.apply event
    return (report, { registry with shelf := registry.shelf.setIfInBounds handle.place book })

/-- The listed book of the event's market takes it in. -/
def apply (registry : Registry) (event : Event) : Except BookError (Report × Registry) := do
  registry.applyAt (← registry.find event.market) event

/-- The listed markets by rising number. -/
def markets (registry : Registry) : List MarketId := registry.listed.keys

/-- The books of the listed markets by rising number of the market. -/
def books (registry : Registry) : List Book :=
  registry.listed.toList.filterMap fun (_, handle) => registry.book? handle

/-- How many markets are listed. -/
def size (registry : Registry) : Nat := registry.listed.size

/-- A fresh book as a configuration describes it. -/
def bookOf (spec : BookSpec) : Book := .startingAt spec.key spec.origin

/-- Several books are registered one after another. -/
def registerAll (registry : Registry) : List Book → Except BookError Registry
  | [] => .ok registry
  | book :: books => do
    let (_, registry) ← registry.register book
    registry.registerAll books

/-- A registry of fresh books as a configuration describes them. -/
def ofConfig (config : TrackerConfig) : Except BookError Registry := do
  -- A configuration that passes lists no market twice, so every registration succeeds.
  config.validate
  empty.registerAll (config.books.map bookOf)

end Registry

end LimitBook
