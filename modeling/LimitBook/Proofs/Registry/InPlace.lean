import LimitBook.Proofs.Book.Refusal
import LimitBook.Registry

/-!
The operations of a registry carried out in place, on the one map of markets and on books that are shared between
the map and everybody who holds a handle. A refusal keeps whatever had been written before it; the result is that
of the operation as a whole, so nothing had.
-/

namespace LimitBook

namespace Change

variable {State Answer Other : Type}

/-- Putting the answer of a change into another form puts that of the outcome into it. -/
theorem on_map (form : Answer → Other) (change : Change State Answer) (state : State) :
    (form <$> change).on state = ((change.on state).1.map form, (change.on state).2) := by
  -- An answer is put into its form only when there is one; the state that is left is not looked at.
  simp only [on, ExceptT.run, StateT.run, Functor.map, ExceptT.map, ExceptT.mk, StateT.bind, Bind.bind]
  obtain ⟨answer, next⟩ := change state
  cases answer <;> rfl

/-- A change that happens as a whole still does after its answer has been put into another form. -/
theorem on_map_of_whole (form : Answer → Other) {change : Change State Answer} {state : State}
    {outcome : Except BookError (Answer × State)} (changed : change.on state = whole state outcome) :
    (form <$> change).on state = whole state (outcome.map fun (answer, next) => (form answer, next)) := by
  -- The answer takes its form, and a refusal has none.
  rw [on_map, changed]
  cases outcome <;> rfl

end Change

namespace Registry

/-- What can be asked of a registry or of a handle that may change something. -/
inductive Operation where
  | register (book : Book)
  | deregister (market : MarketId)
  | apply (event : Event)
  | applyAt (handle : BookHandle) (event : Event)

/-- What is answered to an operation: the handle of a book, or the report about an event. -/
inductive Answer where
  | handle (handle : BookHandle)
  | report (report : Report)
  deriving DecidableEq

/-- An operation as a whole. -/
def attempt (registry : Registry) : Operation → Except BookError (Answer × Registry)
  | .register book => (registry.register book).map fun (handle, next) => (.handle handle, next)
  | .deregister market => (registry.deregister market).map fun (handle, next) => (.handle handle, next)
  | .apply event => (registry.apply event).map fun (report, next) => (.report report, next)
  | .applyAt handle event => (registry.applyAt handle event).map fun (report, next) => (.report report, next)

/-- A book is registered in place: it is shared first, then its market is listed. -/
def registerInPlace (book : Book) : Change Registry BookHandle := do
  let registry ← get
  if registry.contains book.market then throw (.duplicateBook book.market)
  let handle : BookHandle := ⟨registry.shelf.size⟩
  modify fun registry => { registry with shelf := registry.shelf.push book }
  modify fun registry => { registry with listed := registry.listed.insert book.market handle }
  return handle

/-- A market is deregistered in place: its entry is taken out, and only then looked at. -/
def deregisterInPlace (market : MarketId) : Change Registry BookHandle := do
  let found := (← get).listed[market]?
  modify fun registry => { registry with listed := registry.listed.erase market }
  let some handle := found | throw (.bookNotFound market)
  return handle

/-- An event is carried out in place on the book behind a handle. -/
def applyAtInPlace (handle : BookHandle) (event : Event) : Change Registry Report := fun registry =>
  match registry.book? handle with
  | none => (.error (.bookNotFound event.market), registry)
  | some book =>
    -- The book is shared: what the event leaves of it is there for everybody, refused or not.
    let (answer, left) := (Book.applyInPlace event).on book
    (answer, { registry with shelf := registry.shelf.setIfInBounds handle.place left })

/-- An event is carried out in place on the book that is listed for its market. -/
def applyInPlace (event : Event) : Change Registry Report := do
  let some handle := (← get).listed[event.market]? | throw (.bookNotFound event.market)
  applyAtInPlace handle event

/-- An operation in place. -/
def inPlace : Operation → Change Registry Answer
  | .register book => .handle <$> registerInPlace book
  | .deregister market => .handle <$> deregisterInPlace market
  | .apply event => .report <$> applyInPlace event
  | .applyAt handle event => .report <$> applyAtInPlace handle event

variable {registry : Registry}

/-- Registering in place is registering as a whole. -/
theorem on_registerInPlace (book : Book) :
    (registerInPlace book).on registry = Change.whole registry (registry.register book) := by
  unfold registerInPlace register
  rw [Change.on_get_bind]
  by_cases taken : registry.contains book.market = true
  · -- The market is listed, and nothing has been written yet.
    rw [if_pos taken, if_pos taken]
    rfl
  · -- The two writes touch different parts.
    rw [if_neg taken, if_neg taken]
    rfl

/-- Deregistering in place is deregistering as a whole. -/
theorem on_deregisterInPlace (market : MarketId) :
    (deregisterInPlace market).on registry = Change.whole registry (registry.deregister market) := by
  unfold deregisterInPlace deregister find
  rw [Change.on_get_bind]
  cases found : registry.listed[market]? with
  -- The market was listed, and taking it off is what the whole operation does.
  | some handle => rfl
  | none =>
    -- Something has been written here: an entry was erased, but there was none.
    have absent : registry.listed.erase market = registry.listed := by
      refine Std.ExtTreeMap.ext_getElem? fun other => ?_
      rw [Std.ExtTreeMap.getElem?_erase]
      split
      · next same => rw [← Std.LawfulEqCmp.compare_eq_iff_eq.mp same, found]
      · rfl
    show ((.error (.bookNotFound market), { registry with listed := registry.listed.erase market }) :
      Except BookError BookHandle × Registry) = (.error (.bookNotFound market), registry)
    rw [absent]

/-- Carrying an event out behind a handle is taking it in there as a whole. -/
theorem on_applyAtInPlace (handle : BookHandle) (event : Event) :
    (applyAtInPlace handle event).on registry = Change.whole registry (registry.applyAt handle event) := by
  show applyAtInPlace handle event registry = _
  unfold applyAtInPlace applyAt
  cases held : registry.book? handle with
  | none => rfl
  | some book =>
    -- What is written back is whatever the event leaves of the book.
    simp only [Book.on_applyInPlace]
    cases book.apply event with
    | ok pair => rfl
    | error error =>
      -- The refused event has left the book as it was, so the same book is written back.
      have kept : registry.shelf.setIfInBounds handle.place book = registry.shelf := by
        refine Array.ext_getElem? fun place => ?_
        rw [Array.getElem?_setIfInBounds]
        split
        · next here =>
          have inside : handle.place < registry.shelf.size := (Array.getElem?_eq_some_iff.mp held).1
          rw [if_pos inside, ← here]
          exact held.symm
        · rfl
      simp only [Change.whole, kept]
      rfl

/-- Carrying an event out on the listed book is taking it in there as a whole. -/
theorem on_applyInPlace (event : Event) :
    (applyInPlace event).on registry = Change.whole registry (registry.apply event) := by
  -- Sending an event by its market is sending it by the handle that is listed there, if any is.
  unfold applyInPlace apply find
  rw [Change.on_get_bind]
  cases found : registry.listed[event.market]? with
  | none => rfl
  | some handle => exact on_applyAtInPlace handle event

/-- Carrying an operation out in place is carrying it out as a whole: nothing is left behind by a refusal. -/
theorem on_inPlace (operation : Operation) :
    (inPlace operation).on registry = Change.whole registry (registry.attempt operation) := by
  -- Each operation has its own law; the form of an answer does not bear on the state.
  cases operation with
  | register book => exact Change.on_map_of_whole _ (on_registerInPlace book)
  | deregister market => exact Change.on_map_of_whole _ (on_deregisterInPlace market)
  | apply event => exact Change.on_map_of_whole _ (on_applyInPlace event)
  | applyAt handle event => exact Change.on_map_of_whole _ (on_applyAtInPlace handle event)

end Registry

end LimitBook
