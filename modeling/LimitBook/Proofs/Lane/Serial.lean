import LimitBook.Proofs.Lane.Subscriber

/-!
However clients and a lane take turns, the answers, the updates and the book handed out are those of one serial
history, the commands in the order of their arrival, subscribers are told the updates of this history, and the lane
gets through whatever waits.
-/

namespace LimitBook.Lane.Exchange

open Relation (ReflTransGen)

variable {book current : Book} {capacity : LaneCapacity} {market : MarketId} {x y : Exchange} {feed : Feed}
  {letter : Letter} {rest : List Letter} {served behind : List Command} {l : Listener}

/-- What was served before the first close is what had arrived before it. -/
theorem Closes.takeWhile_arrived (closes : x.Closes book served behind) :
    x.arrived.takeWhile (· ≠ .close) = served := by
  -- No command before the first close is one.
  rw [closes.arrived, List.takeWhile_append_of_pos, List.takeWhile_cons_of_neg (by simp), List.append_nil]
  intro command member
  have goesOn : command ≠ .close := fun close => closes.unclosed (close ▸ member)
  exact decide_eq_true goesOn

/-- Once a close has been served, the book of all commands before the first one is handed out. -/
theorem Closes.handedOut (closes : x.Closes book served behind) :
    .close ∈ x.arrived ∧ handedOut x.replies = [bookAfter book (x.arrived.takeWhile (· ≠ .close))] := by
  -- The commands ahead of the first command to close are those that were served.
  refine ⟨?_, ?_⟩
  · rw [closes.arrived]
    exact List.mem_append_right _ List.mem_cons_self
  · rw [closes.takeWhile_arrived]
    exact closes.handed

/-- At most one book is handed out, and it is that of all commands before the first close. -/
theorem Phase.handedOut (phase : x.Phase book) :
    handedOut x.replies = [] ∨
      .close ∈ x.arrived ∧ handedOut x.replies = [bookAfter book (x.arrived.takeWhile (· ≠ .close))] := by
  -- A book is handed out as soon as the task leaves, and not before.
  cases phase with
  | running _ runs => exact .inl runs.kept
  | leaving _ closes => exact .inr closes.handedOut
  | gone _ closes => exact .inr closes.handedOut
  | starved _ _ _ runs => exact .inl runs.kept

/-- The feed holds what was published, with the room that it started with. -/
theorem Publishes.holds (publishes : x.Publishes book (.empty capacity.updates.toNat)) :
    x.feed.Holds x.published ∧ x.feed.room = (Feed.empty capacity.updates.toNat).room := by
  -- It is the feed that has published all of it one after another.
  rw [publishes.feed]
  exact ⟨(Feed.holds_empty _).foldl x.published, Feed.room_foldl _ x.published⟩

end LimitBook.Lane.Exchange
