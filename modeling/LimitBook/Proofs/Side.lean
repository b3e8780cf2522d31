import LimitBook.Order

/-! Prices on a side are strictly ordered, best first, and crossing is that order seen across the book. -/

namespace LimitBook

namespace Price

/-- One price is below another exactly if its ticks are fewer. -/
theorem lt_iff_toNat_lt {p q : Price} : p < q ↔ p.ticks.toNat < q.ticks.toNat :=
  UInt64.lt_iff_toNat_lt

/-- One price is at most another exactly if its ticks are no more. -/
theorem le_iff_toNat_le {p q : Price} : p ≤ q ↔ p.ticks.toNat ≤ q.ticks.toNat :=
  UInt64.le_iff_toNat_le

/-- Prices of as many ticks are the same price. -/
theorem eq_of_toNat_eq {p q : Price} (same : p.ticks.toNat = q.ticks.toNat) : p = q := by
  -- The ticks are the only field.
  cases p; cases q
  exact congrArg Price.mk (UInt64.toNat_inj.mp same)

end Price

namespace Side

/-- Where a price stands among those of a side: the lower the rank, the better the price. -/
def rank : Side → Price → Int
  -- Buyers are served from the highest price down.
  | .buy, price => -price.ticks.toNat
  | .sell, price => price.ticks.toNat

variable {side : Side} {p q r : Price}

/-- A price is better than another exactly if it ranks below it. -/
theorem better_iff_rank_lt : side.Better p q ↔ side.rank p < side.rank q := by
  cases side <;> simp only [Better, rank, Price.lt_iff_toNat_lt] <;> omega

/-- A limit crosses every price that does not rank below it. -/
theorem crosses_iff_rank_le {limit price : Price} : side.Crosses limit price ↔ side.rank limit ≤ side.rank price := by
  cases side <;> simp only [Crosses, rank, Price.le_iff_toNat_le] <;> omega

/-- Prices of one rank are one price. -/
theorem eq_of_rank_eq (same : side.rank p = side.rank q) : p = q := by
  -- The rank is the price, up to its sign.
  apply Price.eq_of_toNat_eq
  cases side <;> simp only [rank] at same <;> omega

/-- No price is better than itself. -/
theorem better_irrefl (side : Side) (p : Price) : ¬side.Better p p := by
  -- No rank is below itself.
  rw [better_iff_rank_lt]
  omega

/-- A price better than a better one is better. -/
theorem better_trans (first : side.Better p q) (second : side.Better q r) : side.Better p r := by
  -- The better price has the smaller rank, and ranks are numbers.
  rw [better_iff_rank_lt] at first second ⊢
  omega

/-- Of two prices at most one is better. -/
theorem better_asymm (better : side.Better p q) : ¬side.Better q p := by
  -- Of two ranks only one is below the other.
  rw [better_iff_rank_lt] at better ⊢
  omega

/-- Of two different prices one is better. -/
theorem eq_of_not_better (notFirst : ¬side.Better p q) (notSecond : ¬side.Better q p) : p = q := by
  -- The rank of a price is the same number on both sides of the comparison, and neither price ranks ahead.
  rw [better_iff_rank_lt] at notFirst notSecond
  have same : side.rank p = side.rank q := by omega
  exact eq_of_rank_eq same

/-- A price no worse than a better one is better. -/
theorem better_of_not_better_of_better (notWorse : ¬side.Better q p) (better : side.Better q r) :
    side.Better p r := by
  -- The first rank is not above the second, which is below the third.
  rw [better_iff_rank_lt] at notWorse better ⊢
  omega

/-- A price better than one that is no worse is better. -/
theorem better_of_better_of_not_better (better : side.Better p q) (notWorse : ¬side.Better r q) :
    side.Better p r := by
  -- The first rank is below the second, which is not above the third.
  rw [better_iff_rank_lt] at better notWorse ⊢
  omega

/-- A limit crosses a price unless the price would be the better one to queue at. -/
theorem crosses_iff_not_better {limit price : Price} :
    side.Crosses limit price ↔ ¬side.Better price limit := by
  -- Both sides compare the two ranks.
  rw [crosses_iff_rank_le, better_iff_rank_lt]
  omega

/-- What is better on one side is worse on the other. -/
@[simp] theorem opposite_better : side.opposite.Better p q ↔ side.Better q p := by
  cases side <;> exact Iff.rfl

/-- A side differs from the one it faces. -/
theorem ne_opposite (side : Side) : side ≠ side.opposite := by
  cases side <;> decide

/-- Every side is a given one or the one facing it. -/
theorem eq_or_eq_opposite (other side : Side) : other = side ∨ other = side.opposite := by
  cases other <;> cases side <;> decide

end Side

end LimitBook
