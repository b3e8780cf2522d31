import LimitBook.Proofs.Book.Statistics
import LimitBook.Proofs.Registry.Step
import LimitBook.Proofs.Replay

/-!
The counts of a replay against the books that it has fed. Every line that holds something is taken in or refused;
every event that is taken in moves the book of its market on by one, and its fills are counted there; no other book
is touched. So what the replay has counted is what the counts of the listed books have grown by.
-/

namespace LimitBook

namespace Book

variable {book middle last : Book} {event : Event} {report : Report} {taken more : List (Event × Report)}

/-- An accepted event has its fills counted. -/
theorem Takes.fillCount (takes : book.Takes event report last) :
    last.stats.fillCount = book.stats.fillCount + report.fills.length := by
  -- An arrival counts its fills, and a removal has none.
  rcases takes.effect with ⟨new, adds⟩ | ⟨side, order, removes⟩
  · rw [adds.fills_eq, adds.kept]
    exact (Stats.recordFills_traded _ _).2.1
  · rw [removes.kept, removes.reported]
    rfl

/-- A book has become another one by taking in these events, and by nothing else. -/
structure Moved (taken : List (Event × Report)) (book last : Book) : Prop where
  /-- The events are counted. -/
  applied : last.stats.eventsApplied = book.stats.eventsApplied + taken.length
  /-- Their fills are counted. -/
  fills : last.stats.fillCount = book.stats.fillCount + (fillsOf taken).length
  /-- The number that is waited for has moved on as far, in words. -/
  word : last.nextSequence = book.nextSequence + UInt64.ofNat taken.length
  /-- So it has in numbers, unless the last number of all was taken in. -/
  number : (∀ entry ∈ taken, entry.1.sequence.toNat + 1 < UInt64.size) →
    last.nextSequence.toNat = book.nextSequence.toNat + taken.length
  /-- Without events nothing has happened. -/
  idle : taken = [] → last = book

/-- A book that takes nothing in stays where it is. -/
theorem moved_nil (book : Book) : book.Moved [] book where
  -- Over no events all counters stand still.
  applied := rfl
  fills := rfl
  word := (UInt64.add_zero _).symm
  number _ := rfl
  idle _ := rfl

/-- A book that takes an event in is moved by it. -/
theorem Takes.moved (takes : book.Takes event report last) : book.Moved [(event, report)] last where
  -- One event moves the counter of events and the cursor by one, and adds its fills.
  applied := takes.advances.2
  fills := by
    rw [takes.fillCount]
    simp [fillsOf]
  word := takes.advances.1
  number below := takes.next_toNat (below _ List.mem_cons_self)
  idle nothing := by simp at nothing

/-- A book that is moved twice has taken in what it took in then, and what it took in afterwards. -/
theorem Moved.trans (moved : book.Moved taken middle) (further : middle.Moved more last) :
    book.Moved (taken ++ more) last where
  -- What is counted over two stretches adds up, and so do the numbers of the words.
  applied := by rw [further.applied, moved.applied, List.length_append, Nat.add_assoc]
  fills := by rw [further.fills, moved.fills, fillsOf_append, List.length_append, Nat.add_assoc]
  word := by rw [further.word, moved.word, List.length_append, UInt64.ofNat_add, UInt64.add_assoc]
  number below := by
    obtain ⟨first, rest⟩ := List.forall_mem_append.mp below
    rw [further.number rest, moved.number first, List.length_append, Nat.add_assoc]
  idle nothing := by
    obtain ⟨first, rest⟩ := List.append_eq_nil_iff.mp nothing
    rw [further.idle rest, moved.idle first]

end Book

section Shares

variable {α Key : Type} [DecidableEq Key] {key : α → Key} {measure : List α → Nat}

end Shares

namespace Registry

/-- The listed books have taken in these events, each the events of its market; all else is as it was. -/
structure Advanced (taken : List (Event × Report)) (registry last : Registry) : Prop where
  listed : last.listed = registry.listed
  /-- Whatever was taken in belongs to a listed market. -/
  known : ∀ entry ∈ taken, entry.1.market ∈ registry.markets
  moved : ∀ market book, registry.lookup market = some book →
    ∃ after, last.lookup market = some after ∧ book.Moved (taken.filter fun entry => entry.1.market = market) after
  /-- Behind the handles that are listed for no market of these events the books are the same. -/
  others : ∀ handle, (∀ entry ∈ taken, registry.listed[entry.1.market]? ≠ some handle) →
    last.book? handle = registry.book? handle

variable {registry middle next last : Registry} {event : Event} {report : Report} {market : MarketId}
  {taken more : List (Event × Report)} {count : Book → Nat} {measure : List (Event × Report) → Nat}

/-- A market is listed exactly if it has a handle. -/
theorem mem_markets : market ∈ registry.markets ↔ ∃ handle, registry.listed[market]? = some handle := by
  -- A market is listed if a handle is known for it.
  unfold markets
  rw [Std.ExtTreeMap.mem_keys, Std.ExtTreeMap.mem_iff_isSome_getElem?, Option.isSome_iff_exists]

/-- An event that a registry takes in moves the listed book of its market, and nothing else. -/
theorem Tracks.advanced (tracks : registry.Tracks) (accepted : registry.apply event = .ok (report, next)) :
    registry.Advanced [(event, report)] next := by
  obtain ⟨handle, book, after, listed, held, follows, takes, rfl, -⟩ := tracks.apply_ok accepted
  refine ⟨rfl, ?_, fun market other found => ?_, fun elsewhere apart => ?_⟩
  · rw [List.forall_mem_singleton]
    exact mem_markets.mpr ⟨handle, listed⟩
  · by_cases own : event.market = market
    · -- It is the book of this market that has taken the event in.
      subst own
      obtain rfl := Option.some.inj (found.symm.trans ((lookup_eq_book? listed).trans held))
      have share : [(event, report)].filter (fun entry => entry.1.market = event.market) = [(event, report)] :=
        List.filter_cons_of_pos (decide_eq_true rfl)
      rw [share]
      exact ⟨after, lookup_put_self listed held after, takes.moved⟩
    · rw [List.filter_cons_of_neg (by simpa using own)]
      exact ⟨other, (tracks.lookup_put_of_ne held follows (Ne.symm own) after).trans found, other.moved_nil⟩
  · -- The handle is not the one that the event was routed to.
    have distinct : handle ≠ elsewhere := fun same => apart _ List.mem_cons_self (same ▸ listed)
    exact book?_put_of_ne distinct after

/-- A registry that advances twice has taken in what it took in then, and what it took in afterwards. -/
theorem Advanced.trans (advanced : registry.Advanced taken middle) (further : middle.Advanced more last) :
    registry.Advanced (taken ++ more) last := by
  -- No market is listed or taken off in between, so that both stretches speak of the same books.
  have markets : middle.markets = registry.markets := congrArg Std.ExtTreeMap.keys advanced.listed
  refine ⟨further.listed.trans advanced.listed, ?_, fun market book found => ?_, fun handle apart => ?_⟩
  · exact List.forall_mem_append.mpr ⟨advanced.known, markets ▸ further.known⟩
  · obtain ⟨between, found', moved⟩ := advanced.moved market book found
    obtain ⟨after, found'', moved'⟩ := further.moved market between found'
    rw [List.filter_append]
    exact ⟨after, found'', moved.trans moved'⟩
  · obtain ⟨first, rest⟩ := List.forall_mem_append.mp apart
    rw [further.others handle (advanced.listed ▸ rest), advanced.others handle first]

end Registry

namespace Replay

/-- Something is left of a line without the blanks at its ends. -/
def holds (line : List UInt8) : Bool := (lineText? line).any (!·.isEmpty)

variable {policy : ErrorPolicy} {registry next last : Registry} {summary total : Summary} {line : List UInt8}
  {lines : List (List UInt8)} {report : Report} {taken : List (Event × Report)}

/-- Two markets: in the first a seller waits with what is left of an order, and the other is fresh. -/
def pair : Registry :=
  ⟨#[Book.opened, Book.fresh ⟨⟨1⟩, ⟨8⟩⟩],
    ((∅ : Std.ExtTreeMap MarketId BookHandle).insert Book.opened.market ⟨0⟩).insert ⟨8⟩ ⟨1⟩⟩

/-- A line that holds nothing, a buyer for the first market, and a line that is no announcement. -/
def feed : List UInt8 :=
  (" \n\x7b\"type\":\"add\",\"market\":7,\"sequence\":2,\"timestamp\":3,\"user_id\":3,\"id\":3," ++
    "\"side\":\"buy\",\"size\":1,\"price\":100\x7d\nx\n").toUTF8.data.toList

/-- One market, which waits for the last number of all. -/
def single : Registry := ⟨#[Book.exhausted], (∅ : Std.ExtTreeMap MarketId BookHandle).insert ⟨7⟩ ⟨0⟩⟩

end Replay

end LimitBook
