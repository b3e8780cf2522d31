import LimitBook.Digest

/-!
What the bytes of a fingerprint say. Words and orders take up a fixed number of bytes and a side is written after its
number of orders, so that the bytes can be read in one way only.
-/

namespace LimitBook.Digest

section Words

variable {m n : UInt64} {xs ys : List UInt8}

/-- The number that some bytes spell, lowest first. -/
def spelled : List UInt8 → Nat
  | [] => 0
  | byte :: bytes => byte.toNat + 256 * spelled bytes

/-- A word takes up eight bytes. -/
@[simp] theorem length_word (n : UInt64) : (word n).length = 8 := by
  -- There is one byte for each of the eight places.
  unfold word
  rw [List.length_map, List.length_range]

/-- The bytes of a word spell the word. -/
theorem spelled_word (n : UInt64) : spelled (word n) = n.toNat := by
  have bound : n.toNat < 18446744073709551616 := n.toNat_lt
  -- The bytes are the digits of the number to the base of 256.
  simp [word, List.range_succ, spelled, Nat.shiftRight_eq_div_pow]
  omega

/-- Behind a word the rest can be read. -/
theorem word_append_inj (same : word m ++ xs = word n ++ ys) : m = n ∧ xs = ys := by
  -- Both words take eight bytes, and eight bytes spell one word only.
  obtain ⟨words, rest⟩ := List.append_inj same (by rw [length_word, length_word])
  refine ⟨?_, rest⟩
  rw [← UInt64.toNat_inj, ← spelled_word, ← spelled_word, words]

end Words

section Orders

variable {x y : Order} {orders others : List Order} {s : Side} {xs ys : List UInt8}

/-- An order takes up seven words. -/
@[simp] theorem length_order (o : Order) : (order o).length = 56 := by
  simp [order]

/-- Behind an order the rest can be read, and the order itself if its side and its market are known. -/
theorem order_append_inj (sides : x.side = y.side) (markets : x.market = y.market)
    (same : order x ++ xs = order y ++ ys) : x = y ∧ xs = ys := by
  simp only [order, List.append_assoc] at same
  -- The fields are read one after another.
  obtain ⟨id, same⟩ := word_append_inj same
  obtain ⟨owner, same⟩ := word_append_inj same
  obtain ⟨price, same⟩ := word_append_inj same
  obtain ⟨quantity, same⟩ := word_append_inj same
  obtain ⟨remaining, same⟩ := word_append_inj same
  obtain ⟨timestamp, same⟩ := word_append_inj same
  obtain ⟨arrival, rest⟩ := word_append_inj same
  -- What is read from the same bytes is the same, field by field.
  refine ⟨?_, rest⟩
  obtain ⟨⟨_⟩, _, ⟨_⟩, _, ⟨_⟩, _, _, ⟨_⟩, _⟩ := x
  obtain ⟨⟨_⟩, _, ⟨_⟩, _, ⟨_⟩, _, _, ⟨_⟩, _⟩ := y
  simp_all

/-- As many orders take up as many bytes, in which each can be read. -/
theorem flatMap_order_append_inj (length : orders.length = others.length)
    (uniform : ∀ x ∈ orders, ∀ y ∈ others, x.side = y.side ∧ x.market = y.market)
    (same : orders.flatMap order ++ xs = others.flatMap order ++ ys) : orders = others ∧ xs = ys := by
  induction orders generalizing others with
  | nil =>
    -- There is nothing to read in either list.
    obtain rfl := List.length_eq_zero_iff.mp length.symm
    exact ⟨rfl, same⟩
  | cons x orders ih =>
    cases others with
    | nil => simp at length
    | cons y others =>
      simp only [List.flatMap_cons, List.append_assoc] at same
      -- The first orders are read, and then the others.
      obtain ⟨sides, markets⟩ := uniform x List.mem_cons_self y List.mem_cons_self
      obtain ⟨rfl, behind⟩ := order_append_inj sides markets same
      have uniform' : ∀ x ∈ orders, ∀ y ∈ others, x.side = y.side ∧ x.market = y.market := fun z further z' further' =>
        uniform z (List.mem_cons_of_mem _ further) z' (List.mem_cons_of_mem _ further')
      obtain ⟨rfl, rest⟩ := ih (by simpa using length) uniform' behind
      exact ⟨rfl, rest⟩

/-- A side takes up a byte, a word, and its orders. -/
@[simp] theorem length_orders (s : Side) (os : List Order) : (Digest.orders s os).length = 9 + 56 * os.length := by
  -- Every order is written in 56 bytes, behind the mark of the side and the count.
  have width : (os.flatMap order).length = 56 * os.length := by
    induction os with
    | nil => rfl
    | cons o os ih => rw [List.flatMap_cons, List.length_append, length_order, ih, List.length_cons]; omega
  simp [Digest.orders, width]
  omega

/-- Behind a side the rest can be read, and its orders too, if they are no more than a word counts. -/
theorem orders_append_inj (few : orders.length < UInt64.size) (few' : others.length < UInt64.size)
    (uniform : ∀ x ∈ orders, ∀ y ∈ others, x.side = y.side ∧ x.market = y.market)
    (same : Digest.orders s orders ++ xs = Digest.orders s others ++ ys) : orders = others ∧ xs = ys := by
  -- The counts agree, and so both lists are read off order by order, each in its own bytes.
  simp only [Digest.orders, List.cons_append, List.append_assoc, List.cons.injEq, true_and] at same
  obtain ⟨count, same⟩ := word_append_inj same
  have length : orders.length = others.length := by
    rw [← UInt64.toNat_ofNat_of_lt' few, ← UInt64.toNat_ofNat_of_lt' few', count]
  exact flatMap_order_append_inj length uniform same

end Orders

/--
The bytes of a book tell whose it is, where it stands in its stream, and what rests in it.

The orders must be on the side and in the market that are said elsewhere, and as few as a word can count.
-/
theorem book_inj {key key' : BookKey} {next next' : Sequence} {a b : OrderBook}
    (few : (a.orders .buy).length + (a.orders .sell).length < UInt64.size)
    (own : ∀ side, ∀ x ∈ a.orders side, x.side = side ∧ x.market = key.market)
    (own' : ∀ side, ∀ x ∈ b.orders side, x.side = side ∧ x.market = key'.market)
    (same : book key next a = book key' next' b) :
    key = key' ∧ next = next' ∧ ∀ side, a.orders side = b.orders side := by
  -- The whole length tells how many orders rest on both sides together, so in either book a word counts them.
  have total : (a.orders .buy).length + (a.orders .sell).length = (b.orders .buy).length + (b.orders .sell).length := by
    have lengths := congrArg List.length same
    simp [book] at lengths
    omega
  simp only [book, List.append_assoc] at same
  obtain ⟨owner, same⟩ := word_append_inj (List.append_cancel_left same)
  obtain ⟨market, same⟩ := word_append_inj same
  obtain ⟨sequence, sides⟩ := word_append_inj same
  obtain rfl : key = key' := by
    obtain ⟨⟨_⟩, ⟨_⟩⟩ := key
    obtain ⟨⟨_⟩, ⟨_⟩⟩ := key'
    simp_all
  have uniform : ∀ side, ∀ x ∈ a.orders side, ∀ y ∈ b.orders side, x.side = y.side ∧ x.market = y.market :=
    fun side x member y member' => ⟨(own side x member).1.trans (own' side y member').1.symm,
      (own side x member).2.trans (own' side y member').2.symm⟩
  -- The bids come first, and the asks are the rest.
  obtain ⟨bids, rest⟩ := orders_append_inj (by omega) (by omega) (uniform .buy) sides
  rw [← List.append_nil (orders .sell (a.orders .sell)), ← List.append_nil (orders .sell (b.orders .sell))] at rest
  obtain ⟨asks, -⟩ := orders_append_inj (by omega) (by omega) (uniform .sell) rest
  exact ⟨rfl, sequence, fun side => by cases side <;> assumption⟩

end LimitBook.Digest
