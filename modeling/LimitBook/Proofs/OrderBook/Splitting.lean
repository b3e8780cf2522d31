import LimitBook.Proofs.Book.Statistics
import LimitBook.Proofs.OrderBook.Allocation

/-!
An order and its parts. What a sweep takes depends on the size of the incoming order and not on whose order it is, so
two orders one after the other sweep a queue as one order of their joint size would.
-/

namespace LimitBook

/-- What somebody at a price has traded in all. -/
structure Receipt where
  maker : OrderId
  price : Price
  quantity : Nat
  deriving DecidableEq, Repr

/-- What a fill gives its maker. -/
def Fill.receipt (fill : Fill) : Receipt := ⟨fill.maker, fill.price, fill.quantity.toNat⟩

/-- A receipt is added to what its maker has received at its price, or opens an account behind all others. -/
def credit : List Receipt → Receipt → List Receipt
  | [], new => [new]
  | account :: accounts, new =>
    if account.maker = new.maker ∧ account.price = new.price then
      { account with quantity := account.quantity + new.quantity } :: accounts
    else account :: credit accounts new

/-- Receipts one after another. -/
def credited (accounts : List Receipt) (receipts : List Receipt) : List Receipt := receipts.foldl credit accounts

/-- What each maker receives in all, in the order in which the makers are first traded with. -/
def received (fills : List Fill) : List Receipt := credited [] (fills.map Fill.receipt)

section Receipts

variable {accounts : List Receipt} {fills more : List Fill}

/-- Two receipts for one maker at one price are one receipt for both amounts. -/
theorem credit_credit (accounts : List Receipt) (maker : OrderId) (price : Price) (m n : Nat) :
    credit (credit accounts ⟨maker, price, m⟩) ⟨maker, price, n⟩ = credit accounts ⟨maker, price, m + n⟩ := by
  induction accounts with
  | nil => simp [credit]
  | cons account accounts ih =>
    -- Both go to the first account that fits, or pass it.
    by_cases own : account.maker = maker ∧ account.price = price
    · simp only [credit, if_pos own, Nat.add_assoc]
    · simp only [credit, if_neg own, ih]

/-- Whatever a receipt is worth, its account is worth that much more. -/
theorem foldr_credit (worth : Receipt → Nat) (accounts : List Receipt) (new : Receipt)
    (adds : ∀ account : Receipt, account.price = new.price →
      worth { account with quantity := account.quantity + new.quantity } = worth account + worth new) :
    (credit accounts new).foldr (fun account n => worth account + n) 0 =
      accounts.foldr (fun account n => worth account + n) 0 + worth new := by
  -- The receipt goes to the first account of its maker and its price, or opens one behind all.
  induction accounts with
  | nil => simp [credit]
  | cons account accounts ih =>
    unfold credit
    split
    · next own =>
      simp only [List.foldr_cons, adds account own.2]
      omega
    · simp only [List.foldr_cons, ih]
      omega

/-- All accounts together have what all receipts together have given them. -/
theorem foldr_credited (worth : Receipt → Nat) (accounts receipts : List Receipt)
    (adds : ∀ account new : Receipt, account.price = new.price →
      worth { account with quantity := account.quantity + new.quantity } = worth account + worth new) :
    (credited accounts receipts).foldr (fun account n => worth account + n) 0 =
      accounts.foldr (fun account n => worth account + n) 0 + receipts.foldr (fun new n => worth new + n) 0 := by
  -- The accounts vary along the receipts.
  induction receipts generalizing accounts with
  | nil => rfl
  | cons new receipts ih =>
    show (credited (credit accounts new) receipts).foldr _ 0 = _
    rw [ih, foldr_credit worth accounts new (adds · new), List.foldr_cons]
    omega

/-- Fills that give every maker the same trade the same size. -/
theorem executedQuantity_eq_of_received (same : received fills = received more) :
    executedQuantity fills = executedQuantity more := by
  -- What is executed is what the accounts add up to.
  have total : ∀ fills, (received fills).foldr (fun account n => account.quantity + n) 0 = executedQuantity fills := by
    intro fills
    unfold received
    rw [foldr_credited Receipt.quantity _ _ fun _ _ _ => rfl, List.foldr_nil, Nat.zero_add, List.foldr_map]
    rfl
  rw [← total, same, total]

/-- Fills that give every maker the same are worth the same. -/
theorem tradedVolume_eq_of_received (same : received fills = received more) :
    tradedVolume fills = tradedVolume more := by
  have total : ∀ fills, (received fills).foldr (fun account n => account.price.ticks.toNat * account.quantity + n) 0 =
      tradedVolume fills := by
    intro fills
    unfold received
    -- An account has one price, so amounts that are added to it add up in worth.
    rw [foldr_credited (fun account => account.price.ticks.toNat * account.quantity) _ _ fun account new here => by
      rw [← here]
      exact Nat.mul_add _ _ _, List.foldr_nil, Nat.zero_add, List.foldr_map]
    rfl
  rw [← total, same, total]

end Receipts

/-- Two incoming orders that look the same to whoever they face. -/
structure Order.Alike (first second : Order) : Prop where
  side : first.side = second.side
  price : first.price = second.price
  remaining : first.remaining = second.remaining

section Reduced

variable {order : Order} {quantity more whole : Quantity}

/-- Of an order that is larger than what it trades the difference is left. -/
theorem reduced?_of_lt (smaller : quantity.toNat < order.remaining.toNat) :
    order.reduced? quantity = some { order with remaining := order.remaining - quantity } := by
  -- Something is left, because the difference is not zero.
  have difference := UInt64.toNat_sub_of_le _ _ (UInt64.le_iff_toNat_le.mpr (Nat.le_of_lt smaller))
  refine if_neg fun zero => ?_
  rw [zero, UInt64.toNat_zero] at difference
  omega

/-- An order trades a size at once as it does in two parts. -/
theorem reduced?_add (order : Order) (parts : quantity.toNat + more.toNat = whole.toNat) :
    Order.reduced? { order with remaining := order.remaining - quantity } more = order.reduced? whole := by
  -- Both parts are taken away one after another, and their sum does not wrap.
  have sum : whole = quantity + more := by
    have word := whole.toNat_lt_size
    rw [← UInt64.toNat_inj, UInt64.toNat_add, Nat.mod_eq_of_lt (by rw [parts]; exact word), parts]
  have same : order.remaining - quantity - more = order.remaining - whole := by
    rw [sum]
    grind
  unfold Order.reduced?
  simp only [same]

end Reduced

section Sweep

variable {side : Side} {incoming resting first second whole : Order} {waiting queue : List Order}

/-- An incoming order that the first one it faces can fill is used up, and takes its own size off that order. -/
theorem sweep_of_enough (crossing : incoming.Crosses resting.price)
    (enough : incoming.remaining.toNat ≤ resting.remaining.toNat) :
    sweep side incoming (resting :: waiting) =
      ⟨[OrderBook.fillOf side incoming resting], none, (resting.reduced? incoming.remaining).toList ++ waiting⟩ := by
  -- The first resting order is enough, so that the fill is as large as the newcomer.
  have quantity : (OrderBook.fillOf side incoming resting).quantity = incoming.remaining := by
    rw [← UInt64.toNat_inj, OrderBook.fillOf_quantity_toNat]
    omega
  have usedUp : incoming.reduced? incoming.remaining = none :=
    (OrderBook.reduced?_eq_none_iff (UInt64.le_iff_toNat_le.mpr (Nat.le_refl _))).mpr rfl
  simp only [sweep, if_pos crossing, quantity, usedUp]

/-- An incoming order that is larger than the first one it faces takes the whole of it and goes on with the rest. -/
theorem sweep_of_more (crossing : incoming.Crosses resting.price)
    (more : resting.remaining.toNat < incoming.remaining.toNat) :
    sweep side incoming (resting :: waiting) =
      { sweep side { incoming with remaining := incoming.remaining - resting.remaining } waiting with
        fills := OrderBook.fillOf side incoming resting ::
          (sweep side { incoming with remaining := incoming.remaining - resting.remaining } waiting).fills } := by
  -- The first resting order is used up, and the newcomer goes on with what is left.
  have quantity : (OrderBook.fillOf side incoming resting).quantity = resting.remaining := by
    rw [← UInt64.toNat_inj, OrderBook.fillOf_quantity_toNat]
    omega
  simp only [sweep, if_pos crossing, quantity, reduced?_of_lt more]

/-- What a fill gives its maker is the smaller of the two sizes. -/
theorem receipt_fillOf (side : Side) (incoming resting : Order) :
    (OrderBook.fillOf side incoming resting).receipt =
      ⟨resting.id, resting.price, min incoming.remaining.toNat resting.remaining.toNat⟩ := by
  -- A receipt keeps the maker, the price, and the size as a number.
  unfold Fill.receipt
  rw [OrderBook.fillOf_quantity_toNat]
  rfl

/-- Orders that look the same sweep the same. -/
theorem sweep_of_alike (side : Side) (alike : first.Alike second) (queue : List Order) :
    (sweep side first queue).faced = (sweep side second queue).faced ∧
      (sweep side first queue).fills.map Fill.receipt = (sweep side second queue).fills.map Fill.receipt := by
  -- Along the queue both newcomers meet the same orders.
  induction queue generalizing first second with
  | nil => exact ⟨rfl, rfl⟩
  | cons resting waiting ih =>
    obtain ⟨sameSide, samePrice, sameSize⟩ := alike
    have crosses : first.Crosses resting.price ↔ second.Crosses resting.price := by
      unfold Order.Crosses
      rw [sameSide, samePrice]
    have receipt : (OrderBook.fillOf side first resting).receipt = (OrderBook.fillOf side second resting).receipt := by
      rw [receipt_fillOf, receipt_fillOf, sameSize]
    by_cases crossing : second.Crosses resting.price
    · rcases Nat.lt_or_ge resting.remaining.toNat second.remaining.toNat with more | enough
      · -- What is left of the two looks the same again.
        obtain ⟨faced, fills⟩ := @ih { first with remaining := first.remaining - resting.remaining }
          { second with remaining := second.remaining - resting.remaining } ⟨sameSide, samePrice, by rw [sameSize]⟩
        rw [sweep_of_more crossing more, sweep_of_more (crosses.mpr crossing) (sameSize ▸ more)]
        exact ⟨faced, by simp only [List.map_cons, receipt, fills]⟩
      · -- The first resting order has enough for either of them.
        rw [sweep_of_enough crossing enough, sweep_of_enough (crosses.mpr crossing) (sameSize ▸ enough)]
        exact ⟨by simp only [sameSize], by simp only [List.map_cons, receipt, List.map_nil]⟩
    · simp only [sweep, if_neg crossing, if_neg (mt crosses.mp crossing), List.map_nil, and_self]

/-- Two incoming orders, one after the other, ask for the same as one. -/
structure Order.Parts (first second whole : Order) : Prop where
  sideFirst : first.side = whole.side
  sideSecond : second.side = whole.side
  priceFirst : first.price = whole.price
  priceSecond : second.price = whole.price
  positive : 0 < second.remaining.toNat
  size : first.remaining.toNat + second.remaining.toNat = whole.remaining.toNat

/-- The first part crosses what the whole crosses. -/
theorem Order.Parts.crosses_first (parts : first.Parts second whole) {price : Price} :
    first.Crosses price ↔ whole.Crosses price := by
  -- Crossing depends on the side and the price only.
  unfold Order.Crosses
  rw [parts.sideFirst, parts.priceFirst]

/-- The second part crosses what the whole crosses. -/
theorem Order.Parts.crosses_second (parts : first.Parts second whole) {price : Price} :
    second.Crosses price ↔ whole.Crosses price := by
  -- Crossing depends on the side and the price only.
  unfold Order.Crosses
  rw [parts.sideSecond, parts.priceSecond]

/-- Two sweeps one after the other that come to the same as a single one. -/
structure Sweep.Joins (one two all : Sweep) : Prop where
  faced : two.faced = all.faced
  receipts : ∀ accounts, credited accounts ((one.fills ++ two.fills).map Fill.receipt) =
    credited accounts (all.fills.map Fill.receipt)

/-- The first part takes the whole of the order it faces, and goes on as a part of what is left of the whole. -/
theorem sweep_parts_of_more (parts : first.Parts second whole) (crossing : whole.Crosses resting.price)
    (more : resting.remaining.toNat < first.remaining.toNat)
    (further : ∀ {first whole : Order}, first.Parts second whole →
      Sweep.Joins (sweep side first waiting) (sweep side second (sweep side first waiting).faced)
        (sweep side whole waiting)) :
    Sweep.Joins (sweep side first (resting :: waiting))
      (sweep side second (sweep side first (resting :: waiting)).faced) (sweep side whole (resting :: waiting)) := by
  have size := parts.size
  have crossing₁ : first.Crosses resting.price := parts.crosses_first.mpr crossing
  have less : ∀ {order : Order}, resting.remaining.toNat < order.remaining.toNat →
      (order.remaining - resting.remaining).toNat = order.remaining.toNat - resting.remaining.toNat := fun smaller =>
    UInt64.toNat_sub_of_le _ _ (UInt64.le_iff_toNat_le.mpr (Nat.le_of_lt smaller))
  have lessFirst := less more
  have lessWhole := @less whole (by omega)
  -- The part and the whole have lost the same.
  have parts' : Order.Parts { first with remaining := first.remaining - resting.remaining } second
      { whole with remaining := whole.remaining - resting.remaining } :=
    ⟨parts.sideFirst, parts.sideSecond, parts.priceFirst, parts.priceSecond, parts.positive, by
      simp only [lessFirst, lessWhole]
      omega⟩
  -- Behind the first resting order the sweeps go on as they did.
  obtain ⟨faced, receipts⟩ := further parts'
  rw [sweep_of_more crossing₁ more, sweep_of_more crossing (by omega)]
  refine ⟨faced, fun accounts => ?_⟩
  have both : min first.remaining.toNat resting.remaining.toNat =
      min whole.remaining.toNat resting.remaining.toNat := by
    omega
  simp only [List.cons_append, List.map_cons, receipt_fillOf, both]
  exact receipts _

/-- The first part and the order it faces use each other up, so the second part is all that is left of the whole. -/
theorem sweep_parts_of_same (parts : first.Parts second whole) (crossing : whole.Crosses resting.price)
    (same : resting.remaining.toNat = first.remaining.toNat) :
    Sweep.Joins (sweep side first (resting :: waiting))
      (sweep side second (sweep side first (resting :: waiting)).faced) (sweep side whole (resting :: waiting)) := by
  -- The first part uses up the first resting order and itself; the second part starts behind it.
  have size := parts.size
  have positive := parts.positive
  have crossing₁ : first.Crosses resting.price := parts.crosses_first.mpr crossing
  have usedUp : resting.reduced? first.remaining = none :=
    (OrderBook.reduced?_eq_none_iff (UInt64.le_iff_toNat_le.mpr (Nat.le_of_eq same.symm))).mpr
      (UInt64.toNat_inj.mp same)
  have left : second.remaining = whole.remaining - resting.remaining := by
    rw [← UInt64.toNat_inj, UInt64.toNat_sub_of_le _ _ (UInt64.le_iff_toNat_le.mpr (by omega))]
    omega
  have alike : second.Alike { whole with remaining := whole.remaining - resting.remaining } :=
    ⟨parts.sideSecond, parts.priceSecond, left⟩
  obtain ⟨faced, fills⟩ := sweep_of_alike side alike waiting
  rw [sweep_of_enough crossing₁ (by omega), sweep_of_more crossing (by omega), usedUp]
  refine ⟨faced, fun accounts => ?_⟩
  have both : min first.remaining.toNat resting.remaining.toNat =
      min whole.remaining.toNat resting.remaining.toNat := by
    omega
  simp only [Option.toList_none, List.nil_append, List.cons_append, List.map_cons, receipt_fillOf, both, fills]

/-- The first part leaves something of the order it faces, which then trades with the second part too. -/
theorem sweep_parts_of_less (parts : first.Parts second whole) (crossing : whole.Crosses resting.price)
    (less : first.remaining.toNat < resting.remaining.toNat) :
    Sweep.Joins (sweep side first (resting :: waiting))
      (sweep side second (sweep side first (resting :: waiting)).faced) (sweep side whole (resting :: waiting)) := by
  have size := parts.size
  have crossing₁ : first.Crosses resting.price := parts.crosses_first.mpr crossing
  have difference := UInt64.toNat_sub_of_le _ _ (UInt64.le_iff_toNat_le.mpr (Nat.le_of_lt less))
  -- What is left of the order stands where it stood, so the second part crosses it.
  have crossing₂ : second.Crosses { resting with remaining := resting.remaining - first.remaining }.price :=
    parts.crosses_second.mpr crossing
  -- What the order gives the two parts is what it gives the whole.
  have both : min first.remaining.toNat resting.remaining.toNat +
      min second.remaining.toNat (resting.remaining - first.remaining).toNat =
        min whole.remaining.toNat resting.remaining.toNat := by
    omega
  rw [sweep_of_enough crossing₁ (Nat.le_of_lt less), reduced?_of_lt less, Option.toList_some, List.singleton_append]
  rcases Nat.lt_or_ge (resting.remaining - first.remaining).toNat second.remaining.toNat with more | enough
  · -- The second part takes the rest of it, and goes on with what is left of the whole.
    have left : second.remaining - (resting.remaining - first.remaining) = whole.remaining - resting.remaining := by
      rw [← UInt64.toNat_inj, UInt64.toNat_sub_of_le _ _ (UInt64.le_iff_toNat_le.mpr (Nat.le_of_lt more)),
        UInt64.toNat_sub_of_le whole.remaining _ (UInt64.le_iff_toNat_le.mpr (by omega))]
      omega
    have alike : Order.Alike { second with remaining := second.remaining - (resting.remaining - first.remaining) }
        { whole with remaining := whole.remaining - resting.remaining } :=
      ⟨parts.sideSecond, parts.priceSecond, left⟩
    obtain ⟨faced, fills⟩ := sweep_of_alike side alike waiting
    rw [sweep_of_more crossing₂ more, sweep_of_more crossing (by omega)]
    refine ⟨faced, fun accounts => ?_⟩
    simp only [List.cons_append, List.nil_append, List.map_cons, receipt_fillOf, fills, credited, List.foldl_cons,
      credit_credit, both]
  · -- The second part ends within the same order as the first.
    rw [sweep_of_enough crossing₂ enough, sweep_of_enough crossing (by omega)]
    refine ⟨by simp only [reduced?_add resting size], fun accounts => ?_⟩
    simp only [List.cons_append, List.nil_append, List.map_cons, List.map_nil, receipt_fillOf, credited,
      List.foldl_cons, credit_credit, both]

/--
Two orders sweep a queue one after the other as one order of their joint size would.

The first of them may run out in front of an order, within it, or together with it; and only in the second case does
somebody trade with both, in which case the amounts are credited to one account.
-/
theorem sweep_parts (side : Side) (parts : first.Parts second whole) (queue : List Order) :
    Sweep.Joins (sweep side first queue) (sweep side second (sweep side first queue).faced)
      (sweep side whole queue) := by
  -- The induction is on the queue; the first order and the whole one lose the same along it.
  induction queue generalizing first whole with
  | nil => exact ⟨rfl, fun _ => rfl⟩
  | cons resting waiting ih =>
    by_cases crossing : whole.Crosses resting.price
    · rcases Nat.lt_trichotomy resting.remaining.toNat first.remaining.toNat with more | same | less
      · exact sweep_parts_of_more parts crossing more ih
      · exact sweep_parts_of_same parts crossing same
      · exact sweep_parts_of_less parts crossing less
    · -- Nobody is in reach of any of them.
      simp only [sweep, if_neg crossing, if_neg (mt parts.crosses_first.mp crossing),
        if_neg (mt parts.crosses_second.mp crossing)]
      exact ⟨rfl, fun _ => rfl⟩

end Sweep

end LimitBook
