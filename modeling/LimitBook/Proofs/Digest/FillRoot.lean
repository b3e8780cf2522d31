import LimitBook.Proofs.Digest
import Mathlib.Data.List.Forall2

/-!
What the fingerprint of a list of fills commits to. Every fill takes up the same number of bytes, in which everything
about the trade can be read but whether it used up its orders. So the bytes of two lists agree exactly if the lists are
as long as each other and tell of the same trades in the same order.
-/

namespace LimitBook

/-- Two fills agree on who traded with whom, from which side, and for what. -/
structure Fill.SameDeal (f g : Fill) : Prop where
  maker : f.maker = g.maker
  makerOwner : f.makerOwner = g.makerOwner
  taker : f.taker = g.taker
  takerOwner : f.takerOwner = g.takerOwner
  takerSide : f.takerSide = g.takerSide
  price : f.price = g.price
  quantity : f.quantity = g.quantity

/-- Agreement on a trade goes both ways. -/
theorem Fill.SameDeal.symm {f g : Fill} (same : f.SameDeal g) : g.SameDeal f :=
  -- Every part of the deal is the same the other way round.
  ⟨same.maker.symm, same.makerOwner.symm, same.taker.symm, same.takerOwner.symm, same.takerSide.symm, same.price.symm,
    same.quantity.symm⟩

/-- Two lists of fills tell of the same trades, position by position. -/
abbrev SameDeals (fs gs : List Fill) : Prop := List.Forall₂ Fill.SameDeal fs gs

/-- Hashing does not make the bytes of two lists of fills collide. -/
def KeptApart (fs gs : List Fill) : Prop := fillRoot fs = fillRoot gs → Digest.fills fs = Digest.fills gs

/-- Whether two lists are kept apart is settled by hashing both. -/
instance (fs gs : List Fill) : Decidable (KeptApart fs gs) :=
  inferInstanceAs (Decidable (fillRoot fs = fillRoot gs → Digest.fills fs = Digest.fills gs))

namespace Digest

variable {f g : Fill} {fs gs : List Fill} {xs ys : List UInt8}

/-- Different sides are written as different bytes. -/
theorem side_inj {s t : Side} (same : side s = side t) : s = t := by
  cases s <;> cases t <;> first | rfl | exact absurd same (by decide)

/-- A fill takes up six words and a byte. -/
@[simp] theorem length_fill (f : Fill) : (fill f).length = 49 := by
  simp [fill]

/-- A list of fills takes up as much as its fills together, behind its tag and its length. -/
theorem length_fills (fs : List Fill) : (fills fs).length = fillsTag.length + 8 + 49 * fs.length := by
  -- Every fill is written in 49 bytes, behind the tag and the count.
  have width : (fs.flatMap fill).length = 49 * fs.length := by
    induction fs with
    | nil => rfl
    | cons f fs ih => rw [List.flatMap_cons, List.length_append, length_fill, ih, List.length_cons]; omega
  simp only [fills, List.length_append, length_word, width]

/-- Behind a fill the rest can be read, and the trade itself. -/
theorem fill_append_inj (same : fill f ++ xs = fill g ++ ys) : f.SameDeal g ∧ xs = ys := by
  simp only [fill, List.append_assoc] at same
  -- The fields are read one after another, the side as a single byte among the words.
  obtain ⟨maker, same⟩ := word_append_inj same
  obtain ⟨makerOwner, same⟩ := word_append_inj same
  obtain ⟨taker, same⟩ := word_append_inj same
  obtain ⟨takerOwner, same⟩ := word_append_inj same
  obtain ⟨takerSide, same⟩ := List.cons.inj same
  obtain ⟨price, same⟩ := word_append_inj same
  obtain ⟨quantity, rest⟩ := word_append_inj same
  exact ⟨⟨congrArg OrderId.mk maker, congrArg OwnerId.mk makerOwner, congrArg OrderId.mk taker,
    congrArg OwnerId.mk takerOwner, side_inj takerSide, congrArg Price.mk price, quantity⟩, rest⟩

/-- Fills of the same trade are written alike, whichever orders they say were used up. -/
theorem fill_eq_of_sameDeal (same : f.SameDeal g) : fill f = fill g := by
  -- Only the parts of the deal are written.
  unfold fill
  rw [same.maker, same.makerOwner, same.taker, same.takerOwner, same.takerSide, same.price, same.quantity]

/-- As many fills are written alike only if they are the same trades. -/
theorem sameDeals_of_flatMap_eq (length : fs.length = gs.length) (same : fs.flatMap fill = gs.flatMap fill) :
    SameDeals fs gs := by
  induction fs generalizing gs with
  | nil =>
    obtain rfl := List.length_eq_zero_iff.mp length.symm
    exact .nil
  | cons f fs ih =>
    cases gs with
    | nil => simp at length
    | cons g gs =>
      simp only [List.flatMap_cons] at same
      -- The first fills are read, and then the others.
      obtain ⟨first, others⟩ := fill_append_inj same
      exact .cons first (ih (by simpa using length) others)

/-- Lists of the same trades are written alike. -/
theorem fills_eq_of_sameDeals (same : SameDeals fs gs) : fills fs = fills gs := by
  -- Fills of the same deal are written alike, one by one.
  have written : fs.flatMap fill = gs.flatMap fill := by
    induction same with
    | nil => rfl
    | cons first _ ih => rw [List.flatMap_cons, List.flatMap_cons, fill_eq_of_sameDeal first, ih]
  simp only [fills, written, same.length_eq]

/-- The bytes of a list of fills tell its trades and nothing else. -/
theorem fills_eq_iff : fills fs = fills gs ↔ SameDeals fs gs := by
  refine ⟨fun same => ?_, fills_eq_of_sameDeals⟩
  -- The whole length tells how many fills there are, even if they are more than the word in front could count.
  have length : fs.length = gs.length := by
    have lengths := congrArg List.length same
    rw [length_fills, length_fills] at lengths
    omega
  refine sameDeals_of_flatMap_eq length ?_
  simp only [fills, length] at same
  exact List.append_cancel_left same

end Digest

section Verification

variable {fs gs before between after : List Fill} {f g : Fill}

/-- A list has the fingerprint of another if both tell of the same trades, unless their bytes collide. -/
theorem verifyFillRoot_iff (apart : KeptApart gs fs) : verifyFillRoot gs (fillRoot fs) = true ↔ SameDeals gs fs := by
  -- The roots are compared as they are, and they are the hashes of what is written.
  unfold verifyFillRoot
  rw [beq_iff_eq, ← Digest.fills_eq_iff]
  exact ⟨apart, congrArg Sha256.hash⟩

/-- Behind the same beginning the next trades are the same as well. -/
theorem sameDeal_of_sameDeals_append {fs gs : List Fill}
    (same : SameDeals (before ++ f :: fs) (before ++ g :: gs)) : f.SameDeal g := by
  -- The fills before are taken away from both lists alike.
  induction before with
  | nil => exact (List.forall₂_cons.mp same).1
  | cons first before ih => exact ih (List.forall₂_cons.mp same).2

end Verification

/--
The fingerprint of a list of fills commits to its trades, in their order and number, and to nothing else.

The bytes of two lists agree exactly if the lists agree position by position in everything but which orders were used
up. Where hashing does not collide, a list is accepted for the fingerprint of another exactly in this case, so it is
refused if two different trades have changed places, or if a fill was put in or left out anywhere.
-/
theorem fillRoot_commits :
    (∀ fs gs : List Fill, Digest.fills fs = Digest.fills gs ↔ SameDeals fs gs) ∧
      (∀ fs gs : List Fill, KeptApart gs fs → (verifyFillRoot gs (fillRoot fs) = true ↔ SameDeals gs fs)) ∧
      (∀ (before between after : List Fill) (f g : Fill), ¬f.SameDeal g →
        KeptApart (before ++ g :: (between ++ f :: after)) (before ++ f :: (between ++ g :: after)) →
          verifyFillRoot (before ++ g :: (between ++ f :: after))
            (fillRoot (before ++ f :: (between ++ g :: after))) = false) ∧
      ∀ (before after : List Fill) (f : Fill),
        (KeptApart (before ++ f :: after) (before ++ after) →
          verifyFillRoot (before ++ f :: after) (fillRoot (before ++ after)) = false) ∧
        (KeptApart (before ++ after) (before ++ f :: after) →
          verifyFillRoot (before ++ after) (fillRoot (before ++ f :: after)) = false) := by
  refine ⟨fun fs gs => Digest.fills_eq_iff, fun fs gs => verifyFillRoot_iff, ?reordered, fun before after f => ?counted⟩
  case reordered =>
    intro before between after f g differ apart
    rw [Bool.eq_false_iff, ne_eq, verifyFillRoot_iff apart]
    intro same
    -- Behind what comes before them, the two that changed places would be the same trade.
    exact differ (sameDeal_of_sameDeals_append same).symm
  case counted =>
    constructor
    all_goals
      intro apart
      rw [Bool.eq_false_iff, ne_eq, verifyFillRoot_iff apart]
      intro same
      -- The same trades would be as many.
      have length := same.length_eq
      simp only [List.length_append, List.length_cons] at length
      omega

/-- A list is accepted for the fingerprint of the same trades with another flag, and refused where a fill is missing. -/
theorem fillRoot_commits_of_two :
    let f : Fill := ⟨⟨1⟩, ⟨1⟩, ⟨2⟩, ⟨2⟩, .buy, ⟨100⟩, 3, true, false⟩
    let g : Fill := ⟨⟨3⟩, ⟨1⟩, ⟨2⟩, ⟨2⟩, .buy, ⟨101⟩, 4, true, true⟩
    verifyFillRoot [{ f with makerFilled := false }, g] (fillRoot [f, g]) = true ∧
      verifyFillRoot [] (fillRoot [f]) = false := by
  intro f g
  obtain ⟨-, verified, -, counted⟩ := fillRoot_commits
  constructor
  · have sameTrade : ({ f with makerFilled := false } : Fill).SameDeal f := ⟨rfl, rfl, rfl, rfl, rfl, rfl, rfl⟩
    have unchanged : g.SameDeal g := ⟨rfl, rfl, rfl, rfl, rfl, rfl, rfl⟩
    -- The flag is not among the bytes, so there is nothing that could collide.
    have apart : KeptApart [{ f with makerFilled := false }, g] [f, g] := fun _ => by decide +kernel
    exact (verified _ _ apart).mpr (.cons sameTrade (.cons unchanged .nil))
  · have apart : KeptApart [] [f] := by decide +kernel
    exact (counted [] [] f).2 apart

end LimitBook
