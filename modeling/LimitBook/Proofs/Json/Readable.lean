import LimitBook.Proofs.Json.Draft
import Mathlib.Data.List.Perm.Basic

/-!
Which texts are kept as values. Everything in the text must stand for something, and the text must not nest too deep;
beyond that it does not matter for a member of an object what stands around it.
-/

namespace LimitBook.Json

namespace Draft

mutual

/-- How deep a value nests: a container is one level deeper than what is in it. -/
def depth : Draft → Nat
  | arr items _ => itemsDepth items + 1
  | obj members _ => membersDepth members + 1
  | _ => 0

/-- How deep the deepest item nests. -/
def itemsDepth : List Draft → Nat
  | [] => 0
  | item :: items => max item.depth (itemsDepth items)

/-- How deep the deepest value of a member nests. -/
def membersDepth : List (Draft × Draft) → Nat
  | [] => 0
  | (_, value) :: members => max value.depth (membersDepth members)

end

mutual

/-- Everything in a value stands for something, down to its strings and numbers. -/
def IsReadable : Draft → Prop
  | broken => False
  | unreadable => False
  | arr items closed => closed = true ∧ AreReadable items
  | obj members closed => closed = true ∧ AreReadableMembers members
  | _ => True

/-- Everything in all items stands for something. -/
def AreReadable : List Draft → Prop
  | [] => True
  | item :: items => item.IsReadable ∧ AreReadable items

/-- Everything in all members stands for something, and their keys are strings. -/
def AreReadableMembers : List (Draft × Draft) → Prop
  | [] => True
  | (.str _, value) :: members => value.IsReadable ∧ AreReadableMembers members
  | _ :: _ => False

end

/-- A text of this value can be read: everything in it stands for something, and it does not nest too deep. -/
def CanBeRead (root : Draft) : Prop := root.IsReadable ∧ root.depth < depthLimit

/-- A container is kept exactly if it is closed and its parts are kept with one level less. -/
theorem isSome_container {α : Type} {parts : Option α} {wrap : α → Value} {readable : Prop} {inner limit : Nat}
    (closed : Bool) (kept : 1 < limit → (parts.isSome ↔ readable ∧ inner < limit - 1)) :
    (if closed && 1 < limit then parts.map wrap else none).isSome ↔ (closed = true ∧ readable) ∧ inner + 1 < limit := by
  -- A container is kept if it is closed, if there is room for one more level, and if its parts are kept there.
  have room : inner + 1 < limit ↔ 1 < limit ∧ inner < limit - 1 := by omega
  by_cases closes : closed = true ∧ 1 < limit
  · rw [if_pos (by simpa using closes), Option.isSome_map, kept closes.2, room]
    simp [closes]
  · rw [if_neg (by simpa using closes), room]
    simp only [Option.isSome_none, Bool.false_eq_true, false_iff]
    exact fun whole => closes ⟨whole.1.1, whole.2.1⟩

mutual

/-- A value is kept exactly if everything in it stands for something and it nests less deep than the limit. -/
theorem isSome_toValue? (root : Draft) {limit : Nat} (positive : 0 < limit) :
    (root.toValue? limit).isSome ↔ root.IsReadable ∧ root.depth < limit := by
  -- A scalar needs room for itself only, and a container hands on one level less to its parts.
  match root with
  | broken => simp [toValue?, IsReadable]
  | unreadable => simp [toValue?, IsReadable]
  | null => simp [toValue?, IsReadable, depth, positive]
  | bool _ => simp [toValue?, IsReadable, depth, positive]
  | int negative magnitude =>
    simp only [toValue?, IsReadable, depth, positive]
    cases integer64? negative magnitude <;> simp
  | decimal _ _ => simp [toValue?, IsReadable, depth, positive]
  | str _ => simp [toValue?, IsReadable, depth, positive]
  | arr items closed => exact isSome_container closed fun room => isSome_itemsToValues? items (by omega)
  | obj members closed => exact isSome_container closed fun room => isSome_membersToValues? members (by omega)

/-- Items are kept exactly if all of them are. -/
theorem isSome_itemsToValues? (items : List Draft) {limit : Nat} (positive : 0 < limit) :
    (itemsToValues? limit items).isSome ↔ AreReadable items ∧ itemsDepth items < limit := by
  -- All items get the same room, and the deepest of them decides.
  match items with
  | [] => simp [itemsToValues?, AreReadable, itemsDepth, positive]
  | item :: items =>
    have first := isSome_toValue? item positive
    have others := isSome_itemsToValues? items positive
    simp only [itemsToValues?, AreReadable, itemsDepth, Nat.max_lt]
    rw [and_and_and_comm, ← first, ← others]
    cases item.toValue? limit <;> cases itemsToValues? limit items <;> simp

/-- Members are kept exactly if all of them are. -/
theorem isSome_membersToValues? (members : List (Draft × Draft)) {limit : Nat} (positive : 0 < limit) :
    (membersToValues? limit members).isSome ↔ AreReadableMembers members ∧ membersDepth members < limit := by
  -- All members get the same room, and a key that is no string is never read.
  match members with
  | [] => simp [membersToValues?, AreReadableMembers, membersDepth, positive]
  | (.str _, value) :: members =>
    have first := isSome_toValue? value positive
    have others := isSome_membersToValues? members positive
    simp only [membersToValues?, AreReadableMembers, membersDepth, Nat.max_lt]
    rw [and_and_and_comm, ← first, ← others]
    cases value.toValue? limit <;> cases membersToValues? limit members <;> simp
  | (.broken, _) :: _ | (.unreadable, _) :: _ | (.null, _) :: _ | (.bool _, _) :: _ | (.int _ _, _) :: _
  | (.decimal _ _, _) :: _ | (.arr _ _, _) :: _ | (.obj _ _, _) :: _ => simp [membersToValues?, AreReadableMembers]

end

section Members

/-- An object can be read exactly if its members are kept with a level less than there is for the text. -/
theorem canBeRead_obj {members : List (Draft × Draft)} :
    (obj members true).CanBeRead ↔ (membersToValues? (depthLimit - 1) members).isSome := by
  -- The object is kept as soon as its members are, since it is closed and there is room for it.
  have kept : (obj members true).toValue? depthLimit = (membersToValues? (depthLimit - 1) members).map .obj := rfl
  rw [CanBeRead, ← isSome_toValue? _ (by decide), kept, Option.isSome_map]

/-- No value of a member nests deeper than the deepest. -/
theorem depth_le_membersDepth (before after : List (Draft × Draft)) (key value : Draft) :
    value.depth ≤ membersDepth (before ++ (key, value) :: after) := by
  -- The members ahead of this one can only add to the depth.
  induction before with
  | nil => exact Nat.le_max_left _ _
  | cons member before ih => exact Nat.le_trans ih (Nat.le_max_right _ _)

variable {limit : Nat} {members others : List (Draft × Draft)} {values : List (String × Value)}

/-- A member is kept as its key with its value. -/
def IsKept (limit : Nat) (member : Draft × Draft) (kept : String × Value) : Prop :=
  member.1 = .str kept.1 ∧ member.2.toValue? limit = some kept.2

/-- Members are kept one by one. -/
theorem membersToValues?_eq_some :
    membersToValues? limit members = some values ↔ List.Forall₂ (IsKept limit) members values := by
  -- Members are kept one by one, each under its own key.
  induction members generalizing values with
  | nil => simp [membersToValues?, eq_comm]
  | cons member members ih =>
    obtain ⟨key, value⟩ := member
    rw [List.forall₂_cons_left_iff]
    cases key with
    | str key =>
      simp only [membersToValues?, Option.bind_eq_bind, Option.bind_eq_some_iff, Option.pure_def, Option.some.injEq, ih,
        IsKept, str.injEq]
      -- The first member is kept, and so are the others.
      constructor
      · rintro ⟨kept, isKept, others, areKept, rfl⟩
        exact ⟨(key, kept), others, ⟨rfl, isKept⟩, areKept, rfl⟩
      · rintro ⟨⟨_, kept⟩, others, ⟨rfl, isKept⟩, areKept, rfl⟩
        exact ⟨kept, isKept, others, areKept, rfl⟩
    | _ => simp [membersToValues?, IsKept]

/-- Members in another order are kept in this order. -/
theorem membersToValues?_perm (same : others.Perm members) (kept : membersToValues? limit members = some values) :
    ∃ values', membersToValues? limit others = some values' ∧ values'.Perm values := by
  -- Members are kept one by one, so that the kept ones are in the order of the given ones.
  obtain ⟨values', kept', same'⟩ := List.perm_comp_forall₂ same (membersToValues?_eq_some.mp kept)
  exact ⟨values', membersToValues?_eq_some.mpr kept', same'⟩

/-- Members and further members are kept together if both are. -/
theorem membersToValues?_append (members others : List (Draft × Draft)) :
    membersToValues? limit (members ++ others) =
      (membersToValues? limit members).bind fun first => (membersToValues? limit others).map (first ++ ·) := by
  -- Members are kept in their order, so that a stop among the first ones is a stop of the whole.
  induction members with
  | nil => cases kept : membersToValues? limit others <;> simp [membersToValues?, kept]
  | cons member members ih =>
    obtain ⟨key, value⟩ := member
    cases key with
    | str key =>
      simp only [List.cons_append, membersToValues?, ih]
      cases value.toValue? limit <;> cases membersToValues? limit members <;>
        cases membersToValues? limit others <;> rfl
    | _ => rfl

/-- A member is kept between others if it is kept itself. -/
theorem membersToValues?_between (limit : Nat) (before after : List (Draft × Draft)) (key : String) (value : Draft) :
    membersToValues? limit (before ++ (.str key, value) :: after) =
      (membersToValues? limit before).bind fun first => (value.toValue? limit).bind fun kept =>
        (membersToValues? limit after).map fun last => first ++ (key, kept) :: last := by
  -- The members are those before, this one, and those behind, and the first that is not kept stops the reading.
  rw [membersToValues?_append]
  cases membersToValues? limit before with
  | none => rfl
  | some first =>
    simp only [membersToValues?, Option.bind_some]
    cases value.toValue? limit <;> cases membersToValues? limit after <;> rfl

/-- Members are not kept if one of them goes by something that cannot be read as a key. -/
theorem membersToValues?_nameless (limit : Nat) (before after : List (Draft × Draft)) {key : Draft} (value : Draft)
    (nameless : ∀ name, key ≠ .str name) : membersToValues? limit (before ++ (key, value) :: after) = none := by
  rw [membersToValues?_append]
  -- The reading stops at this key, whatever was kept before.
  have stops : membersToValues? limit ((key, value) :: after) = none := by
    cases key with
    | str name => exact absurd rfl (nameless name)
    | _ => rfl
  rw [stops]
  cases membersToValues? limit before <;> rfl

/-- The keys of members, as far as they can be read. -/
def keys (members : List (Draft × Draft)) : List String :=
  members.filterMap fun (key, _) => match key with
    | .str key => some key
    | _ => none

/-- Members are kept under their keys. -/
theorem map_fst_of_kept (kept : membersToValues? limit members = some values) :
    values.map Prod.fst = keys members := by
  -- Keeping a member changes its value only.
  have areKept := membersToValues?_eq_some.mp kept
  clear kept
  induction areKept with
  | nil => rfl
  | @cons member _ _ _ isKept _ ih =>
    obtain ⟨key, value⟩ := member
    obtain ⟨rfl, -⟩ : key = .str _ ∧ _ := isKept
    rw [List.map_cons, ih]
    rfl

end Members

end Draft

/-- The text of an object is read as its members are kept, with a level less than there is for the text. -/
theorem Value.parse?_of_isText {members : List (Draft × Draft)} {text : String}
    (isText : (Draft.obj members true).IsText text) :
    Value.parse? text = (Draft.membersToValues? (depthLimit - 1) members).map .obj := by
  -- Whoever has read the text as an object has read its members one level further in.
  unfold Value.parse?
  rw [Draft.ofText_eq_iff.mpr isText]
  rfl

/-- A text is read as a value exactly if it is the text of something readable that nests less deep than the limit. -/
theorem Value.isSome_parse? (text : String) :
    (Value.parse? text).isSome ↔ ∃ root : Draft, root.IsText text ∧ root.IsReadable ∧ root.depth < depthLimit := by
  -- The text spells one draft, and this is kept if it is readable and not too deep.
  have kept (root : Draft) := root.isSome_toValue? (by decide : 0 < depthLimit)
  simp only [← kept, ← Draft.ofText_eq_iff]
  unfold Value.parse?
  generalize Draft.ofText text = read
  obtain ⟨root, _ | _⟩ := read <;> simp

end LimitBook.Json
