import Mathlib.Data.List.Nodup
import Mathlib.Tactic.Common
import LimitBook.Config

/-!
What can be wrong with a configuration, and what is named if several things are. A configuration is fit for use exactly
if nothing is wrong with it; otherwise the fault that is named is that of the first concern that has one, where the
concerns are the list of entries, each entry in turn, the depth and the lane.
-/

namespace LimitBook.TrackerConfig

/-- What makes a configuration fit for use. -/
structure Fit (config : TrackerConfig) : Prop where
  /-- There is something to track. -/
  tracks : config.books ≠ []
  /-- No market is listed twice. -/
  distinct : (config.books.map (·.market)).Nodup
  /-- At least one row is shown, and at most a thousand are. -/
  depth : 1 ≤ config.depthLevels.toNat ∧ config.depthLevels.toNat ≤ 1000
  /-- A lane takes in commands, and keeps updates. -/
  lane : 0 < config.lane.mailbox ∧ 0 < config.lane.updates

/-- What is looked at in a configuration. -/
inductive Concern where
  | entries
  | entry (place : Nat)
  | depth
  | lane

/-- The list of entries is looked at first, then each entry in turn, then the depth, and the lane last. -/
def Concern.Before : Concern → Concern → Prop
  | .entries, .entries => False
  | .entries, _ => True
  | .entry place, .entry other => place < other
  | .entry _, .depth | .entry _, .lane | .depth, .lane => True
  | _, _ => False

/-- A concern has a fault, whatever is wrong with the others. -/
inductive Faulty (config : TrackerConfig) : Concern → ConfigFault → Prop
  | nothing (none : config.books = []) : Faulty config .entries .noMarkets
  | repeated {place : Nat} {market : MarketId} (here : (config.books.map (·.market))[place]? = some market)
    (before : market ∈ (config.books.map (·.market)).take place) :
    Faulty config (.entry place) (.repeatedMarket market)
  | outside (wrong : ¬(1 ≤ config.depthLevels.toNat ∧ config.depthLevels.toNat ≤ 1000)) :
    Faulty config .depth (.depthOutOfRange config.depthLevels)
  | closed (wrong : ¬(0 < config.lane.mailbox ∧ 0 < config.lane.updates)) : Faulty config .lane .noLaneCapacity

/-- A fault is that of the first concern that has one. -/
def FirstFault (config : TrackerConfig) (fault : ConfigFault) : Prop :=
  ∃ concern, config.Faulty concern fault ∧ ∀ other fault', config.Faulty other fault' → ¬other.Before concern

/-- The market at a place was met before, or stands at an earlier place. -/
def Repeats (met markets : List MarketId) (place : Nat) (market : MarketId) : Prop :=
  markets[place]? = some market ∧ market ∈ met ++ markets.take place

variable {met met' markets : List MarketId} {market : MarketId}

/-- The first market is repeated if it was met before. -/
theorem repeats_zero (first : MarketId) : Repeats met (first :: markets) 0 market ↔ first = market ∧ market ∈ met := by
  simp [Repeats]

/-- The markets behind the first are repeated as if it had been met. -/
theorem repeats_succ (first : MarketId) (place : Nat) :
    Repeats met (first :: markets) (place + 1) market ↔ Repeats (first :: met) markets place market := by
  -- What stands ahead is what was met before, the first one, and those in between.
  simp only [Repeats, List.getElem?_cons_succ, List.take_succ_cons, List.mem_append, List.mem_cons]
  rw [or_left_comm, or_assoc]

/-- Which market is repeated first depends only on which have been met, not on the order in which they were. -/
theorem firstRepeated?_congr (markets : List MarketId) (same : ∀ market, market ∈ met ↔ market ∈ met') :
    firstRepeated? met markets = firstRepeated? met' markets := by
  -- What has been met grows along the list, on both sides by the same markets.
  induction markets generalizing met met' with
  | nil => rfl
  | cons first markets ih =>
    have further : ∀ market, market ∈ first :: met ↔ market ∈ first :: met' := by
      intro market
      rw [List.mem_cons, List.mem_cons, same market]
    simp only [firstRepeated?, List.contains_iff_mem, same first, ih further]

/-- No market is repeated exactly if all differ from each other and from those met before. -/
theorem firstRepeated?_eq_none_iff :
    firstRepeated? met markets = none ↔ markets.Nodup ∧ ∀ market ∈ markets, market ∉ met := by
  -- Every market that has been passed is one of those met, so these stay open.
  induction markets generalizing met with
  | nil => simp [firstRepeated?]
  | cons first markets ih =>
    simp only [firstRepeated?, List.contains_iff_mem, List.nodup_cons, List.forall_mem_cons]
    by_cases seen : first ∈ met
    · -- The first market is found at once, and it is not one that has not been met.
      simp [seen]
    · -- The first market counts as met for those behind it.
      rw [if_neg seen, ih]
      grind

/-- Where all markets differ none stands at an earlier place too. -/
theorem notMem_take_of_nodup (distinct : markets.Nodup) {place : Nat} (here : markets[place]? = some market) :
    market ∉ markets.take place := by
  intro before
  obtain ⟨inside, there⟩ := List.getElem?_eq_some_iff.mp here
  obtain ⟨earlier, bounds, also⟩ := List.mem_take_iff_getElem.mp before
  -- The same market stands at two places, so the places are the same.
  have same : earlier = place := distinct.getElem_inj_iff.mp (also.trans there.symm)
  omega

/-- The market that is found stands at the first place whose market is repeated. -/
theorem repeats_of_firstRepeated? (found : firstRepeated? met markets = some market) :
    ∃ place, Repeats met markets place market ∧ ∀ earlier < place, ∀ other, ¬Repeats met markets earlier other := by
  -- The search goes one place further with each market, and takes it along as one that was met.
  induction markets generalizing met with
  | nil => simp [firstRepeated?] at found
  | cons first markets ih =>
    simp only [firstRepeated?, List.contains_iff_mem] at found
    by_cases seen : first ∈ met
    · -- The first market was met already.
      rw [if_pos seen] at found
      obtain rfl := Option.some.inj found
      exact ⟨0, (repeats_zero first).mpr ⟨rfl, seen⟩, nofun⟩
    · -- It was not, so it is one more that has been met when the others are looked at.
      rw [if_neg seen] at found
      obtain ⟨place, repeats, least⟩ := ih found
      refine ⟨place + 1, (repeats_succ first place).mpr repeats, fun earlier before other => ?_⟩
      cases earlier with
      | zero =>
        -- At the first place nothing is repeated, since its market is new.
        intro repeated
        obtain ⟨rfl, met⟩ := (repeats_zero first).mp repeated
        exact seen met
      | succ earlier =>
        rw [repeats_succ]
        exact least earlier (Nat.lt_of_succ_lt_succ before) other

variable {config : TrackerConfig} {concern other : Concern} {fault fault' : ConfigFault}

/-- Of two concerns one comes first. -/
theorem Concern.before_trichotomy (concern other : Concern) :
    concern.Before other ∨ concern = other ∨ other.Before concern := by
  cases concern with
  | entry place =>
    cases other with
    -- Two entries are compared by their places.
    | entry place' => simpa [Concern.Before] using Nat.lt_trichotomy place place'
    | _ => simp [Concern.Before]
  | _ => cases other <;> simp [Concern.Before]

/-- A concern has one fault at most. -/
theorem Faulty.unique (faulty : config.Faulty concern fault) (also : config.Faulty concern fault') :
    fault = fault' := by
  -- Each concern has one kind of fault, and only an entry leaves open what is named.
  cases faulty with
  | nothing => cases also; rfl
  | repeated here before =>
    -- At one place there is one market.
    cases also with
    | repeated here' before' => rw [Option.some.inj (here.symm.trans here')]
  | outside => cases also; rfl
  | closed => cases also; rfl

/-- One fault at most is named. -/
theorem FirstFault.unique (first : config.FirstFault fault) (also : config.FirstFault fault') : fault = fault' := by
  obtain ⟨concern, faulty, least⟩ := first
  obtain ⟨other, faulty', least'⟩ := also
  -- Neither of the two concerns comes before the other, so they are the same.
  rcases concern.before_trichotomy other with before | rfl | before
  · exact absurd before (least' concern fault faulty)
  · exact faulty.unique faulty'
  · exact absurd before (least other fault' faulty')

/-- The list of entries has no fault if there is one. -/
theorem not_faulty_entries (tracks : config.books ≠ []) : ¬config.Faulty .entries fault := by
  -- The entries as such are at fault only if there are none.
  intro faulty
  cases faulty with
  | nothing none => exact tracks none

/-- An entry has a fault exactly if its market is that of an entry before it. -/
theorem faulty_entry_iff {place : Nat} :
    config.Faulty (.entry place) fault ↔
      ∃ market, fault = .repeatedMarket market ∧ Repeats [] (config.books.map (·.market)) place market := by
  -- The only fault of one entry is that its market stands ahead of it too.
  constructor
  · intro faulty
    cases faulty with
    | repeated here before => exact ⟨_, rfl, here, before⟩
  · rintro ⟨market, rfl, here, before⟩
    exact .repeated here before

/-- No entry has a fault if all markets differ. -/
theorem not_faulty_entry (distinct : (config.books.map (·.market)).Nodup) (place : Nat) :
    ¬config.Faulty (.entry place) fault := by
  -- Without repetition no market stands ahead of its own place.
  rw [faulty_entry_iff]
  rintro ⟨market, -, here, before⟩
  exact notMem_take_of_nodup distinct here before

/-- The depth has no fault if it is in range. -/
theorem not_faulty_depth (fits : 1 ≤ config.depthLevels.toNat ∧ config.depthLevels.toNat ≤ 1000) :
    ¬config.Faulty .depth fault := by
  -- The depth is at fault only if it is outside of its bounds.
  intro faulty
  cases faulty with
  | outside wrong => exact wrong fits

/-- The lane has no fault if it has room. -/
theorem not_faulty_lane (room : 0 < config.lane.mailbox ∧ 0 < config.lane.updates) :
    ¬config.Faulty .lane fault := by
  -- The capacities of the lanes are at fault only if one of them is zero.
  intro faulty
  cases faulty with
  | closed wrong => exact wrong room

/-- A configuration that is fit for use has no fault. -/
theorem Fit.not_faulty (fit : config.Fit) (concern : Concern) : ¬config.Faulty concern fault := by
  -- Every concern asks for one part of being fit.
  cases concern with
  | entries => exact not_faulty_entries fit.tracks
  | entry place => exact not_faulty_entry fit.distinct place
  | depth => exact not_faulty_depth fit.depth
  | lane => exact not_faulty_lane fit.lane

/-- Without entries nothing else is looked at. -/
theorem firstFault_noMarkets (nothing : config.books = []) : config.FirstFault .noMarkets := by
  refine ⟨.entries, .nothing nothing, fun other fault' _ => ?_⟩
  -- No concern comes before the list of entries.
  cases other <;> exact id

/-- A repeated market is named for the first entry that repeats one. -/
theorem firstFault_repeatedMarket (tracks : config.books ≠ [])
    (found : firstRepeated? [] (config.books.map (·.market)) = some market) :
    config.FirstFault (.repeatedMarket market) := by
  obtain ⟨place, repeats, least⟩ := repeats_of_firstRepeated? found
  refine ⟨.entry place, faulty_entry_iff.mpr ⟨market, rfl, repeats⟩, fun other fault' faulty before => ?_⟩
  cases other with
  | entries => exact not_faulty_entries tracks faulty
  | entry earlier =>
    -- An earlier entry would have been found instead.
    obtain ⟨again, -, repeated⟩ := faulty_entry_iff.mp faulty
    exact least earlier before again repeated
  | depth => exact before
  | lane => exact before

/-- The depth is at fault if it is out of range, and the entries are not. -/
theorem firstFault_depthOutOfRange (tracks : config.books ≠ []) (distinct : (config.books.map (·.market)).Nodup)
    (wrong : ¬(1 ≤ config.depthLevels.toNat ∧ config.depthLevels.toNat ≤ 1000)) :
    config.FirstFault (.depthOutOfRange config.depthLevels) := by
  -- Whatever comes before the depth concerns the entries, and these are as they should be.
  refine ⟨.depth, .outside wrong, fun other fault' faulty before => ?_⟩
  cases other with
  | entries => exact not_faulty_entries tracks faulty
  | entry place => exact not_faulty_entry distinct place faulty
  | depth => exact before
  | lane => exact before

/-- The lane is at fault if it has no room, and nothing else is. -/
theorem firstFault_noLaneCapacity (tracks : config.books ≠ []) (distinct : (config.books.map (·.market)).Nodup)
    (fits : 1 ≤ config.depthLevels.toNat ∧ config.depthLevels.toNat ≤ 1000)
    (wrong : ¬(0 < config.lane.mailbox ∧ 0 < config.lane.updates)) : config.FirstFault .noLaneCapacity := by
  -- The lanes come last, so that everything else has been found to be right by then.
  refine ⟨.lane, .closed wrong, fun other fault' faulty before => ?_⟩
  cases other with
  | entries => exact not_faulty_entries tracks faulty
  | entry place => exact not_faulty_entry distinct place faulty
  | depth => exact not_faulty_depth fits faulty
  | lane => exact before

/-- The depth that is refused is the one out of range. -/
theorem depth_refused_iff (levels : UInt64) :
    (levels = 0 ∨ maxDepthLevels < levels.toNat) ↔ ¬(1 ≤ levels.toNat ∧ levels.toNat ≤ 1000) := by
  -- The bounds are the same, told by numbers instead of words.
  rw [← UInt64.toNat_inj, UInt64.toNat_zero, maxDepthLevels]
  omega

/-- The lane that is refused is the one without room. -/
theorem lane_refused_iff (lane : LaneCapacity) :
    (lane.mailbox = 0 ∨ lane.updates = 0) ↔ ¬(0 < lane.mailbox ∧ 0 < lane.updates) := by
  -- A word is zero or above zero.
  simp only [UInt64.pos_iff_ne_zero]
  tauto

/-- Either a configuration is fit for use, or the fault of its first concern that has one is named. -/
theorem fault?_spec (config : TrackerConfig) :
    match config.fault? with
    | none => config.Fit
    | some fault => config.FirstFault fault := by
  -- The cases are those of the checks, and each of them has the ones before it behind it.
  unfold fault?
  -- Nothing at all would come first.
  by_cases nothing : config.books = []
  · rw [if_pos (List.isEmpty_iff.mpr nothing)]
    exact firstFault_noMarkets nothing
  rw [if_neg (mt List.isEmpty_iff.mp nothing)]
  -- Then comes the first market that stands ahead of itself.
  cases found : firstRepeated? [] (config.books.map (·.market)) with
  | some market => exact firstFault_repeatedMarket nothing found
  | none =>
    have distinct := (firstRepeated?_eq_none_iff.mp found).1
    simp only [depth_refused_iff, lane_refused_iff]
    -- The entries are fine, so that the depth and the lanes are judged.
    by_cases fits : 1 ≤ config.depthLevels.toNat ∧ config.depthLevels.toNat ≤ 1000
    · rw [if_neg (not_not_intro fits)]
      by_cases room : 0 < config.lane.mailbox ∧ 0 < config.lane.updates
      · rw [if_neg (not_not_intro room)]
        exact ⟨nothing, distinct, fits, room⟩
      · rw [if_pos room]
        exact firstFault_noLaneCapacity nothing distinct fits room
    · rw [if_pos fits]
      exact firstFault_depthOutOfRange nothing distinct fits

/-- Nothing is named exactly if the configuration is fit for use. -/
theorem fault?_eq_none_iff : config.fault? = none ↔ config.Fit := by
  have spec := config.fault?_spec
  cases named : config.fault? with
  | none =>
    rw [named] at spec
    exact iff_of_true rfl spec
  | some fault =>
    -- Whatever is fit for use has no fault to name.
    rw [named] at spec
    obtain ⟨concern, faulty, -⟩ := spec
    exact iff_of_false nofun fun fit => fit.not_faulty concern faulty

/-- A fault is named exactly if it is that of the first concern that has one. -/
theorem fault?_eq_some_iff : config.fault? = some fault ↔ config.FirstFault fault := by
  have spec := config.fault?_spec
  cases named : config.fault? with
  | none =>
    rw [named] at spec
    exact iff_of_false nofun fun ⟨concern, faulty, _⟩ => spec.not_faulty concern faulty
  | some fault' =>
    -- There is one such fault only.
    rw [named] at spec
    constructor
    · rintro ⟨⟩
      exact spec
    · intro first
      rw [spec.unique first]

/-- Exactly the configurations that are fit for use pass. -/
theorem validate_eq_ok_iff : config.validate = .ok () ↔ config.Fit := by
  -- The checks are passed if no fault is found.
  rw [← fault?_eq_none_iff, validate]
  cases config.fault? <;> simp

/-- Any other is refused for the fault of its first concern that has one. -/
theorem validate_eq_error_iff {error : BookError} :
    config.validate = .error error ↔ ∃ fault, config.FirstFault fault ∧ error = .configuration fault := by
  -- The first fault is the only thing that a refusal tells.
  simp only [← fault?_eq_some_iff, validate]
  cases config.fault? with
  | none => simp
  | some fault => simp [eq_comm]

/-- A refusal of a configuration says what is wrong with it. -/
theorem message_configuration {text : String} (told : fault.message? = some text) :
    (BookError.configuration fault).message = "BT_ERR_902: Configuration error: " ++ text := by
  -- The text is put together from the code, the heading of the kind, and what the fault says.
  have code : (BookError.configuration fault).codeText = "BT_ERR_902" := by cbv
  have detail : (BookError.configuration fault).detail = "Configuration error: " ++ text := by
    unfold BookError.detail
    simp only [told]
  have heading : "BT_ERR_902" ++ ": " ++ "Configuration error: " = "BT_ERR_902: Configuration error: " := by decide
  rw [BookError.message, code, detail, ← String.append_assoc, heading]

end LimitBook.TrackerConfig
