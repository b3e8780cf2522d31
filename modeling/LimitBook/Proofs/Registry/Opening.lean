import Mathlib.Data.List.Perm.Basic
import LimitBook.Proofs.Config
import LimitBook.Proofs.Registry.Step

/-!
Registries that are opened as a configuration describes them. Registering books one after another refuses a market
exactly where the configuration is found to repeat it, so a configuration that passes always leads to a registry; it
lists one empty book for each entry, by rising number of the market.
-/

namespace LimitBook

/-- A book in which nothing has happened yet, as an entry of a configuration describes it. -/
structure Book.OpenedFor (book : Book) (entry : BookSpec) : Prop where
  owner : book.key.owner = entry.owner
  market : book.market = entry.market
  /-- Its stream and its orders are those of the market too. -/
  follows : book.cursor.market = entry.market ∧ book.orders.market = entry.market
  /-- The first event must carry the number that the entry gives. -/
  awaits : book.nextSequence = entry.origin
  /-- There is no level on either side, and no order is known. -/
  rests : (∀ side, book.orders.levels side = []) ∧ book.orders.isEmpty = true
  stats : book.stats = Stats.empty

namespace Registry

/-- A book is put on the shelf and listed for its market. -/
def shelve (registry : Registry) (book : Book) : Registry :=
  ⟨registry.shelf.push book, registry.listed.insert book.market ⟨registry.shelf.size⟩⟩

/-- A market is listed with exactly the handles behind which a book follows it. -/
def Indexed (registry : Registry) : Prop :=
  ∀ market handle, registry.listed[market]? = some handle ↔
    ∃ book, registry.book? handle = some book ∧ book.market = market

variable {registry : Registry} {book : Book} {market : MarketId}

/-- A registry contains the markets that it lists. -/
theorem contains_iff_mem_markets : registry.contains market = true ↔ market ∈ registry.markets := by
  rw [markets, contains, Std.ExtTreeMap.mem_keys, Std.ExtTreeMap.contains_iff_mem]

/-- A book that is put on the shelf adds its market to those that are listed. -/
theorem mem_markets_shelve : market ∈ (registry.shelve book).markets ↔ market ∈ book.market :: registry.markets := by
  -- Shelving a book lists its market besides those that are listed already.
  rw [List.mem_cons, ← contains_iff_mem_markets, ← contains_iff_mem_markets, contains, contains, shelve,
    Std.ExtTreeMap.contains_insert, Bool.or_eq_true, beq_iff_eq, Std.LawfulEqCmp.compare_eq_iff_eq, eq_comm]

/-- Registering several books puts them all on the shelf, or refuses the first market that is listed again. -/
theorem registerAll_eq (registry : Registry) (books : List Book) :
    registry.registerAll books =
      match TrackerConfig.firstRepeated? registry.markets (books.map Book.market) with
      | some market => .error (.duplicateBook market)
      | none => .ok (books.foldl shelve registry) := by
  -- The search for a repeated market goes along with the registrations, and has met what is listed.
  induction books generalizing registry with
  | nil => rfl
  | cons book books ih =>
    simp only [List.map_cons, TrackerConfig.firstRepeated?, List.contains_iff_mem, ← contains_iff_mem_markets]
    unfold registerAll register
    by_cases taken : registry.contains book.market = true
    · -- Both stop here, with this market.
      rw [if_pos taken, if_pos taken]
      rfl
    · -- The book is listed, and for the others its market is one that was met.
      rw [if_neg taken, if_neg taken, ← TrackerConfig.firstRepeated?_congr _ fun _ => mem_markets_shelve]
      exact ih (registry.shelve book)

/-- A book of a market that is not listed may be put on the shelf. -/
theorem Indexed.shelve (indexed : registry.Indexed) (free : registry.contains book.market = false) :
    (registry.shelve book).Indexed := by
  intro market handle
  have unlisted : registry.listed[book.market]? = none := by
    rwa [contains, Std.ExtTreeMap.contains_eq_isSome_getElem?, Option.isSome_eq_false_iff,
      Option.isNone_iff_eq_none] at free
  have entry : (registry.shelve book).listed[market]? =
      if book.market = market then some ⟨registry.shelf.size⟩ else registry.listed[market]? := by
    simp only [Registry.shelve, Std.ExtTreeMap.getElem?_insert, Std.LawfulEqCmp.compare_eq_iff_eq]
  have behind : (registry.shelve book).book? handle =
      if handle.place = registry.shelf.size then some book else registry.book? handle := Array.getElem?_push
  rw [entry, behind]
  by_cases last : handle.place = registry.shelf.size
  · -- In the last place is the new book, and no other market is listed with it.
    obtain rfl : handle = ⟨registry.shelf.size⟩ := congrArg BookHandle.mk last
    by_cases same : book.market = market
    · simp [same]
    · -- Nothing was in that place before, so nothing was listed with it.
      have nobody : registry.book? ⟨registry.shelf.size⟩ = none := Array.getElem?_eq_none (Nat.le_refl _)
      have elsewhere := indexed market ⟨registry.shelf.size⟩
      rw [if_neg same, if_pos rfl, elsewhere, nobody]
      simp [same]
  · -- In the other places are the books of before, and none of them follows the market of the new one.
    rw [if_neg last, ← indexed market handle]
    by_cases same : book.market = market
    · -- The market of the new book was not listed, and now is with the last place only.
      subst same
      have apart : (⟨registry.shelf.size⟩ : BookHandle) ≠ handle := fun eq => last (congrArg BookHandle.place eq).symm
      rw [if_pos rfl, unlisted]
      simp [apart]
    · rw [if_neg same]

/-- Books of different markets, none of them listed, may be put on the shelf one after another. -/
theorem Indexed.foldl_shelve {books : List Book} (indexed : registry.Indexed)
    (free : TrackerConfig.firstRepeated? registry.markets (books.map Book.market) = none) :
    (books.foldl Registry.shelve registry).Indexed := by
  induction books generalizing registry with
  | nil => exact indexed
  | cons book books ih =>
    simp only [List.map_cons, TrackerConfig.firstRepeated?, List.contains_iff_mem, ← contains_iff_mem_markets] at free
    by_cases taken : registry.contains book.market = true
    · simp [taken] at free
    · -- The first book is free to be listed, and the others are once it has been.
      rw [if_neg taken, ← TrackerConfig.firstRepeated?_congr _ fun _ => mem_markets_shelve] at free
      exact ih (indexed.shelve (Bool.eq_false_iff.mpr taken)) free

/-- The books that are put on the shelf stand there in order. -/
theorem shelf_foldl_shelve (registry : Registry) (books : List Book) :
    (books.foldl shelve registry).shelf.toList = registry.shelf.toList ++ books := by
  -- The registry varies along the books, and every book is put behind those that stand on the shelf.
  induction books generalizing registry with
  | nil => simp
  | cons book books ih =>
    rw [List.foldl_cons, ih, shelve, Array.toList_push, List.append_assoc]
    rfl

/-- Markets are listed by rising number. -/
theorem markets_rising (registry : Registry) : registry.markets.Pairwise (fun a b => a.number < b.number) := by
  have ordered : registry.markets.Pairwise (fun a b => compare a b = .lt) := Std.ExtTreeMap.ordered_keys
  refine ordered.imp ?_
  -- Markets are compared by their numbers.
  intro a b before
  exact Std.compare_eq_lt.mp before

/-- Each listed market has one book, which follows it. -/
theorem Indexed.map_market_books (indexed : registry.Indexed) :
    registry.books.map Book.market = registry.markets := by
  rw [books, markets, ← Std.ExtTreeMap.map_fst_toList_eq_keys, List.map_filterMap, ← List.filterMap_eq_map]
  refine List.filterMap_congr fun (market, handle) member => ?_
  -- Behind a listed handle there is a book, so none is left out.
  have listed := Std.ExtTreeMap.mem_toList_iff_getElem?_eq_some.mp member
  obtain ⟨book, held, follows⟩ := (indexed market handle).mp listed
  simp [held, follows]

/-- A book on the shelf is found under its market. -/
theorem Indexed.listed_of_mem (indexed : registry.Indexed) (member : book ∈ registry.shelf.toList) :
    ∃ handle, registry.listed[book.market]? = some handle ∧ registry.book? handle = some book := by
  -- A place on the shelf is one that some handle points at, and the index knows every such handle.
  obtain ⟨place, there⟩ := List.mem_iff_getElem?.mp member
  have held : registry.book? ⟨place⟩ = some book := by rwa [Array.getElem?_toList] at there
  exact ⟨⟨place⟩, (indexed book.market ⟨place⟩).mpr ⟨book, held, rfl⟩, held⟩

/-- The listed books are those on the shelf. -/
theorem Indexed.mem_books (indexed : registry.Indexed) : book ∈ registry.books ↔ book ∈ registry.shelf.toList := by
  -- A listed book is found through its handle, and so it stands on the shelf; the other way round every book is listed.
  simp only [books, List.mem_filterMap, Prod.exists, Std.ExtTreeMap.mem_toList_iff_getElem?_eq_some]
  constructor
  · rintro ⟨market, handle, -, held⟩
    exact List.mem_iff_getElem?.mpr ⟨handle.place, by rwa [Array.getElem?_toList]⟩
  · intro member
    obtain ⟨handle, listed, held⟩ := indexed.listed_of_mem member
    exact ⟨book.market, handle, listed, held⟩

/-- No book stands on the shelf twice. -/
theorem Indexed.nodup_shelf (indexed : registry.Indexed) : registry.shelf.toList.Nodup := by
  rw [List.nodup_iff_getElem?_ne_getElem?]
  intro place other before inside same
  rw [Array.getElem?_toList, Array.getElem?_toList] at same
  -- The book's market would be listed with two handles.
  have held : registry.book? ⟨other⟩ = some registry.shelf[other] := Array.getElem?_eq_getElem inside
  have also : registry.book? ⟨place⟩ = some registry.shelf[other] := same.trans held
  have listed := (indexed _ ⟨other⟩).mpr ⟨_, held, rfl⟩
  have listed' := (indexed _ ⟨place⟩).mpr ⟨_, also, rfl⟩
  have eq : place = other := congrArg BookHandle.place (Option.some.inj (listed'.symm.trans listed))
  omega

/-- The listed books are those on the shelf in another order. -/
theorem Indexed.books_perm (indexed : registry.Indexed) : registry.books.Perm registry.shelf.toList := by
  have distinct : (registry.books.map Book.market).Nodup := by
    rw [indexed.map_market_books]
    -- The listed books follow different markets, so they differ.
    exact Std.ExtTreeMap.nodup_keys
  exact (List.perm_ext_iff_of_nodup (.of_map _ distinct) indexed.nodup_shelf).mpr fun _ => indexed.mem_books

/-- An empty registry lists no market, and has no book. -/
theorem indexed_empty : empty.Indexed := by
  -- Nothing is listed and nothing is held.
  intro market handle
  simp [empty, book?]

/-- A registry holds one empty book for each entry and nothing else. -/
structure OpenedFor (registry : Registry) (entries : List BookSpec) : Prop where
  /-- The books stand in the order of their markets' numbers, each with an entry of its own. -/
  listed : ∃ rising : List BookSpec, rising.Perm entries ∧
    rising.Pairwise (fun a b => a.market.number < b.market.number) ∧
    registry.markets = rising.map (·.market) ∧ List.Forall₂ Book.OpenedFor registry.books rising
  /-- Whoever asks for the market of an entry finds the book of that entry. -/
  found : ∀ entry ∈ entries, ∃ handle book,
    registry.find entry.market = .ok handle ∧ registry.book? handle = some book ∧ book.OpenedFor entry

/-- In a fresh book nothing has happened yet. -/
theorem openedFor_bookOf (entry : BookSpec) : (bookOf entry).OpenedFor entry where
  -- The book is the one that is started for the entry, so that each field says what the start gives it.
  owner := rfl
  market := rfl
  follows := ⟨rfl, rfl⟩
  awaits := rfl
  rests := ⟨fun side => by cases side <;> rfl, Std.ExtTreeMap.isEmpty_empty⟩
  stats := rfl

/-- A registry with the fresh books of some entries on its shelf holds one empty book for each entry. -/
theorem Indexed.openedFor (indexed : registry.Indexed) {entries : List BookSpec}
    (shelved : registry.shelf.toList = entries.map bookOf) : registry.OpenedFor entries := by
  have opened : List.Forall₂ Book.OpenedFor (entries.map bookOf) entries :=
    List.forall₂_map_left_iff.mpr (List.forall₂_same.mpr fun entry _ => openedFor_bookOf entry)
  -- The entries are put in the order in which their books are listed.
  obtain ⟨rising, each, perm⟩ := List.perm_comp_forall₂ (shelved ▸ indexed.books_perm) opened
  have markets : registry.markets = rising.map (·.market) := by
    rw [← indexed.map_market_books, ← List.forall₂_eq_eq_eq, List.forall₂_map_left_iff, List.forall₂_map_right_iff]
    exact each.imp fun book entry opened => opened.market
  have ordered := registry.markets_rising
  rw [markets, List.pairwise_map] at ordered
  refine ⟨⟨rising, perm, ordered, markets, each⟩, fun entry member => ?_⟩
  -- The book of an entry is on the shelf, and so it is listed for the entry's market.
  obtain ⟨handle, listed, held⟩ := indexed.listed_of_mem (shelved ▸ List.mem_map_of_mem member)
  have found : registry.find entry.market = .ok handle := by
    rw [find, show registry.listed[entry.market]? = some handle from listed]
  exact ⟨handle, bookOf entry, found, held, openedFor_bookOf entry⟩

/-- Entries of different markets are free to be registered where nothing is listed. -/
theorem firstRepeated?_entries {entries : List BookSpec} (distinct : (entries.map (·.market)).Nodup) :
    TrackerConfig.firstRepeated? empty.markets ((entries.map bookOf).map Book.market) = none := by
  -- Nothing is listed in the empty registry, and so only the entries themselves could repeat a market.
  rw [List.map_map]
  refine TrackerConfig.firstRepeated?_eq_none_iff.mpr ⟨distinct, fun market _ listed => ?_⟩
  simp [← contains_iff_mem_markets, contains, empty] at listed

/-- A configuration that passes leads to the registry with its books on the shelf, and registering refuses none. -/
theorem ofConfig_eq (config : TrackerConfig) :
    ofConfig config = config.validate.map fun _ => (config.books.map bookOf).foldl shelve empty := by
  unfold ofConfig
  cases passed : config.validate with
  | error error => rfl
  | ok _ =>
    -- The markets differ, so the search for a repeated one finds none, and no registration is refused.
    have free := firstRepeated?_entries (TrackerConfig.validate_eq_ok_iff.mp passed).distinct
    have registered := registerAll_eq empty (config.books.map bookOf)
    rw [free] at registered
    exact registered

/-- A configuration that is fit for use leads to a registry with one empty book for each of its entries. -/
theorem ofConfig_of_fit {config : TrackerConfig} (fit : config.Fit) :
    ∃ registry, ofConfig config = .ok registry ∧ registry.OpenedFor config.books := by
  -- The checks are passed, and so the books are shelved one after another in a registry that is empty.
  have passed := TrackerConfig.validate_eq_ok_iff.mpr fit
  refine ⟨(config.books.map bookOf).foldl shelve empty, by rw [ofConfig_eq, passed]; rfl, ?_⟩
  have indexed := indexed_empty.foldl_shelve (firstRepeated?_entries fit.distinct)
  exact indexed.openedFor (shelf_foldl_shelve empty _)

/-- Opening a registry is refused for what the configuration is refused for. -/
theorem ofConfig_eq_error_iff {config : TrackerConfig} {error : BookError} :
    ofConfig config = .error error ↔ config.validate = .error error := by
  -- Only the validation refuses.
  rw [ofConfig_eq]
  cases config.validate <;> simp [Except.map]

/--
A configuration leads to a registry exactly if it is fit for use.

It passes if it lists something, no market twice, between one and a thousand rows, and a lane with room. Otherwise it is
refused for the first concern that has a fault: the list of entries, the earliest entry whose market occurred before
(and that market is named), the depth, or the lane. Opening a registry is refused for the same reason, and never for a
book that is there already. If it succeeds, then the registry holds one empty book for each entry, by rising number of
the market.
-/
theorem opens_exactly_if_fit (config : TrackerConfig) :
    (config.validate = .ok () ↔ config.Fit) ∧
    (∀ error, config.validate = .error error ↔ ∃ fault, config.FirstFault fault ∧ error = .configuration fault) ∧
    (∀ market, (BookError.configuration (.repeatedMarket market)).message =
      "BT_ERR_902: Configuration error: " ++ market.label ++ " is configured more than once") ∧
    (∀ error, ofConfig config = .error error ↔ config.validate = .error error) ∧
    (∀ market, ofConfig config ≠ .error (.duplicateBook market)) ∧
    (config.validate = .ok () ↔ ∃ registry, ofConfig config = .ok registry ∧ registry.OpenedFor config.books) := by
  refine ⟨TrackerConfig.validate_eq_ok_iff, fun error => TrackerConfig.validate_eq_error_iff, fun market => ?_,
    fun error => ofConfig_eq_error_iff, fun market duplicate => ?_, ?_, ?_⟩
  · rw [TrackerConfig.message_configuration rfl, String.append_assoc]
  · -- Every refusal is for a fault of the configuration.
    obtain ⟨fault, -, other⟩ := TrackerConfig.validate_eq_error_iff.mp (ofConfig_eq_error_iff.mp duplicate)
    simp at other
  · -- A configuration that is fit opens, and one that has been opened was fit.
    intro passed
    exact ofConfig_of_fit (TrackerConfig.validate_eq_ok_iff.mp passed)
  · rintro ⟨registry, opened, -⟩
    rw [ofConfig_eq] at opened
    cases passed : config.validate with
    | ok _ => rfl
    | error error => simp [passed, Except.map] at opened

/-- Three markets out of order, with different owners and first numbers, and as many rows as there may be. -/
def shuffled : TrackerConfig :=
  { owner := ⟨1⟩
    books := [⟨⟨1⟩, ⟨9⟩, 3⟩, ⟨⟨2⟩, ⟨4⟩, 0⟩, ⟨⟨1⟩, ⟨6⟩, 18446744073709551615⟩]
    depthLevels := 1000
    errorPolicy := .halt
    lane := ⟨1, 1⟩ }

/-- The first market comes again behind another that does, and neither the depth nor the lane is right. -/
def muddled : TrackerConfig :=
  { shuffled with
    books := [⟨⟨1⟩, ⟨4⟩, 0⟩, ⟨⟨1⟩, ⟨9⟩, 0⟩, ⟨⟨2⟩, ⟨9⟩, 5⟩, ⟨⟨1⟩, ⟨4⟩, 0⟩]
    depthLevels := 1001
    lane := ⟨0, 1⟩ }

/-- Markets out of order lead to a registry; of several faults the earliest entry that comes again is named. -/
theorem opens_exactly_if_fit_shuffled :
    shuffled.Fit ∧ (∃ registry, ofConfig shuffled = .ok registry ∧ registry.OpenedFor shuffled.books) ∧
      muddled.FirstFault (.repeatedMarket ⟨9⟩) ∧
      ofConfig muddled = .error (.configuration (.repeatedMarket ⟨9⟩)) := by
  -- Both outcomes are computed, and what they say about the two configurations follows.
  have passed : shuffled.validate = .ok () := rfl
  have refused : muddled.validate = .error (.configuration (.repeatedMarket ⟨9⟩)) := rfl
  obtain ⟨fit, -, -, -, -, opens⟩ := opens_exactly_if_fit shuffled
  obtain ⟨-, faults, -, same, -⟩ := opens_exactly_if_fit muddled
  obtain ⟨fault, first, named⟩ := (faults _).mp refused
  obtain rfl := BookError.configuration.inj named
  exact ⟨fit.mp passed, opens.mp passed, first, (same _).mpr refused⟩

end Registry

end LimitBook
