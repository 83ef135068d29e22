import Mathlib.Algebra.Order.BigOperators.Group.List
import FluxTrade.Library.Words
import FluxTrade.Matching.Ownership

/-!
# Traded statistics

The engine counts its matches, their quantities and their quantities times prices
in three 64-bit words. The words are the integer totals modulo 2^64 after every
run without a reset. With prices and quantities below 2^40 and fewer than 2^20
matches the first two totals stay in range. The third does not: one match can
exceed it.
-/

namespace FluxTrade

open Execution Words List

/-- Quantities of some matches, added over the integers. -/
def tradedShares (calls : List MatchCall) : Nat :=
  (calls.map fun call => call.record.qty.toNat).sum

/-- Quantities times prices of some matches, added over the integers. -/
def tradedVolume (calls : List MatchCall) : Int :=
  (calls.map fun call => (call.record.qty.toNat : Int) * call.record.price.toInt).sum

/-- Quantities times prices of some fills, added over the integers. -/
def fillVolume (fills : List Fill) : Int :=
  (fills.map fun fill => (fill.qty.toNat : Int) * fill.maker.price.toInt).sum

/-- Quantities add up. -/
theorem tradedShares_append (front back : List MatchCall) :
    tradedShares (front ++ back) = tradedShares front + tradedShares back := by
  rw [tradedShares, map_append, sum_append]
  rfl

/-- Volumes add up. -/
theorem tradedVolume_append (front back : List MatchCall) :
    tradedVolume (front ++ back) = tradedVolume front + tradedVolume back := by
  rw [tradedVolume, map_append, sum_append]
  rfl

/-! ## The counters -/

namespace MatchingStatistics

/-- The counters hold the totals of the matches modulo 2^64. -/
structure Counts (stats : MatchingStatistics) (calls : List MatchCall) : Prop where
  trades : stats.tradesExecuted = UInt64.ofInt calls.length
  shares : stats.sharesExecuted = UInt64.ofInt (tradedShares calls)
  volume : stats.totalTradedVolume = UInt64.ofInt (tradedVolume calls)

variable {stats : MatchingStatistics} {calls : List MatchCall}

variable (counts : stats.Counts calls)
include counts

/-- Latencies are not counted. -/
theorem Counts.recordLatency (ns : UInt64) :
    (stats.recordLatency ns).Counts calls := by
  obtain ⟨trades, shares, volume⟩ := counts
  unfold MatchingStatistics.recordLatency
  dsimp only
  split_ifs <;> exact ⟨trades, shares, volume⟩

/-- One more match is counted. -/
theorem Counts.recordMatch (call : MatchCall) :
    (stats.recordMatch call.record.qty call.record.price).Counts (calls ++ [call]) where
  trades := by
    change stats.tradesExecuted + 1 = _
    rw [counts.trades, length_append, length_singleton, Nat.cast_add, UInt64.ofInt_add]
    rfl
  shares := by
    change stats.sharesExecuted + call.record.qty = _
    rw [counts.shares, tradedShares_append, Nat.cast_add, UInt64.ofInt_add]
    simp [tradedShares, ofInt_toNat_word]
  volume := by
    change stats.totalTradedVolume + call.record.qty * call.record.price.toUInt64 = _
    rw [counts.volume, tradedVolume_append, UInt64.ofInt_add]
    simp [tradedVolume, UInt64.ofInt_mul, ofInt_toNat_word, ofInt_toInt]

/-- A run of matches is counted. -/
theorem Counts.recordAll (more : List MatchCall) :
    (more.foldl (fun stats call => stats.recordMatch call.record.qty call.record.price)
      stats).Counts (calls ++ more) := by
  induction more generalizing stats calls with
  | nil =>
    rw [append_nil]
    exact counts
  | cons call rest ih =>
    rw [append_cons]
    exact ih (counts.recordMatch call)

/-- The counters hold the totals exactly if these are in range. -/
theorem Counts.exact_iff :
    ((stats.tradesExecuted.toNat = calls.length ↔ calls.length < 2 ^ 64) ∧
      (stats.sharesExecuted.toNat = tradedShares calls ↔ tradedShares calls < 2 ^ 64)) ∧
      ((stats.totalTradedVolume.toNat : Int) = tradedVolume calls ↔
        0 ≤ tradedVolume calls ∧ tradedVolume calls < 2 ^ 64) := by
  rw [counts.trades, counts.shares, counts.volume, toNat_ofInt_eq_iff]
  have trades := toNat_ofInt_eq_iff calls.length
  have shares := toNat_ofInt_eq_iff (tradedShares calls)
  refine ⟨⟨?_, ?_⟩, Iff.rfl⟩ <;> omega

end MatchingStatistics

/-- Settling the remainder leaves the counters of trades. -/
theorem Crossing.settle_counts {crossing settled : Crossing} {order : Order} {timestamp : UInt64}
    {status : MatchingStatus} {calls : List MatchCall}
    (settles : crossing.settle order timestamp = .ok (settled, status))
    (counts : crossing.stats.Counts calls) :
    settled.calls = crossing.calls ∧ settled.stats.Counts calls := by
  unfold Crossing.settle at settles
  split at settles
  · cases settles
    exact ⟨rfl, counts.trades, counts.shares, counts.volume⟩
  · cases kind : order.type with
    | limit =>
      rw [kind] at settles
      obtain ⟨_, _, rest⟩ := bind_eq_ok settles
      cases rest
      exact ⟨rfl, counts⟩
    | market =>
      rw [kind] at settles
      cases settles
      exact ⟨rfl, counts⟩
    | stop =>
      rw [kind] at settles
      cases settles
      exact ⟨rfl, counts⟩

/-- A submission counts its matches. -/
theorem Sane.submitOrder_counts {engine : MatchingEngine} {view : BookView} {order : Order}
    {ctx : ExecutionContext} {clock : ClockReadings} {submission : Submission}
    {calls : List MatchCall} (sane : Sane engine.book view)
    (submits : engine.submitOrder order ctx clock = .ok submission)
    (counts : engine.stats.Counts calls) :
    submission.engine.stats.Counts (calls ++ submission.calls) := by
  obtain ⟨crossing, ran, crossed, _⟩ := sane.cross order ctx clock.now
  obtain ⟨made, extend, _⟩ := crossed.extend
  have log : crossing.calls = made := extend.log
  have begun : (engine.beginSubmit order ctx clock.now).stats.Counts calls :=
    ⟨counts.trades, counts.shares, counts.volume⟩
  have counted : crossing.stats.Counts (calls ++ made) := by
    rw [extend.stats]
    exact begun.recordAll made
  obtain ⟨other, same, rest⟩ := bind_eq_ok submits
  rw [ran] at same
  cases same
  obtain ⟨⟨settled, status⟩, settles, rest⟩ := bind_eq_ok rest
  cases rest
  obtain ⟨same, after⟩ := Crossing.settle_counts settles counted
  change (settled.stats.recordLatency _).Counts (calls ++ settled.calls)
  rw [same, log]
  exact after.recordLatency _

/-- A cancellation trades nothing. -/
theorem MatchingEngine.cancelOrder_counts {engine after : MatchingEngine} {orderId : OrderId}
    {clientId : ClientId} {accountId : AccountId} {symbolId : SymbolId}
    {ctx ctx' : ExecutionContext} {clock : ClockReadings} {cancelled : Bool}
    {calls : List MatchCall}
    (cancels : engine.cancelOrder orderId clientId accountId symbolId ctx clock =
      .ok (cancelled, after, ctx')) (counts : engine.stats.Counts calls) :
    after.stats.Counts calls := by
  unfold MatchingEngine.cancelOrder at cancels
  cases found : engine.book.findOrder orderId with
  | none =>
    rw [found] at cancels
    cases cancels
    exact ⟨counts.trades, counts.shares, counts.volume⟩
  | some slot =>
    rw [found] at cancels
    obtain ⟨_, _, rest⟩ := bind_eq_ok cancels
    cases rest
    apply MatchingStatistics.Counts.recordLatency
    exact ⟨counts.trades, counts.shares, counts.volume⟩

/-- Nor does a modification. -/
theorem MatchingEngine.modifyOrder_counts {engine after : MatchingEngine} {orderId : OrderId}
    {newQty : Quantity} {clock : ClockReadings} {modified : Bool} {calls : List MatchCall}
    (modifies : engine.modifyOrder orderId newQty clock = .ok (modified, after))
    (counts : engine.stats.Counts calls) : after.stats.Counts calls := by
  obtain ⟨_, _, rest⟩ := bind_eq_ok modifies
  cases rest
  exact counts.recordLatency _

/-! ## Prices -/

/-- A cancellation adds no price. -/
theorem CancelView.pricesWithin {found : Option Nat} {view view' : BookView}
    (cancelled : CancelView found view view') : PricesWithin view' view := by
  cases cancelled with
  | taken split _ _ => exact pricesWithin_replaced split
  | unknown _ => exact PricesWithin.refl view

/-- Nor does a modification. -/
theorem ModifyView.pricesWithin {orderId : OrderId} {newQty : Quantity} {prioritySeq : UInt64}
    {view view' : BookView} (modified : ModifyView orderId newQty prioritySeq view view') :
    PricesWithin view' view := by
  cases modified with
  | unknown => exact PricesWithin.refl view
  | @amended side front back level _ _ _ split _ _ =>
    apply PricesWithin.update
    intro other member
    rw [split]
    rcases mem_append.mp member with ahead | behind
    · exact ⟨other, mem_append_left _ ahead, rfl⟩
    · rcases mem_cons.mp behind with rfl | later
      · exact ⟨level, mem_append_right _ mem_cons_self, rfl⟩
      · exact ⟨other, mem_append_right _ (mem_cons_of_mem _ later), rfl⟩

namespace EngineRun

variable {run next : EngineRun} {input : EngineInput}

/-- Every level has a positive price. -/
def PositivePrices (run : EngineRun) : Prop :=
  ∀ side, ∀ level ∈ run.engine.book.levelsOf side, 0 < level.price.toInt

/-- A call keeps the prices positive if it submits none that is not. -/
theorem PositivePrices.step (positive : run.PositivePrices) (invariant : run.Invariant)
    (priced : ∀ order, input.call = .submit order → 0 < order.price.toInt)
    (taken : run.step input = .ok next) : next.PositivePrices := by
  have within {view : BookView} (within : PricesWithin view run.engine.book.levelsOf) (side : Side)
      (level : LevelView) (member : level ∈ view side) : 0 < level.price.toInt := by
    obtain ⟨old, listed, same⟩ := within side level member
    exact same ▸ positive side old listed
  cases invariant.moved taken with
  | @submit order _ _ _ outcome =>
    intro side level member
    change level ∈ _ at member
    rcases order.side.eq_or_opposite side with rfl | rfl
    · by_cases rests : order.type = .limit ∧ openAfter order run.engine.book.levelsOf ≠ 0
      · obtain ⟨slot, node, placed⟩ := outcome.views.rests rests.1 rests.2
        rw [placed] at member
        rcases mem_placeOrder member with ⟨_, _, new, _⟩ | old
        · rw [new]
          exact priced order rfl
        · exact positive _ level old
      · rw [not_and_or, not_not] at rests
        rw [outcome.views.leaves rests] at member
        exact positive _ level member
    · rw [outcome.views.opposite] at member
      obtain ⟨_, old, listed, same⟩ := mem_sweepLevels (invariant.sane.proper _) member
      exact same ▸ positive _ old listed
  | cancel _ views _ => exact within views.pricesWithin
  | modify _ views _ => exact within views.pricesWithin
  | reset sane _ =>
    intro side level member
    rw [← sane.view_eq] at member
    cases member

/-! ## Runs -/

/-- The matches of a run, the first one first. -/
def matchCalls (run : EngineRun) : List MatchCall := run.matched.map Prod.snd

/-- The traded statistics are the totals of the matches over the integers. -/
structure StatsExact (run : EngineRun) : Prop where
  trades : run.engine.stats.tradesExecuted.toNat = run.matchCalls.length
  shares : run.engine.stats.sharesExecuted.toNat = tradedShares run.matchCalls
  volume : (run.engine.stats.totalTradedVolume.toNat : Int) = tradedVolume run.matchCalls

/-- Quantity times price of the resting orders that the reference takes for a call. -/
def sweptVolume (run : EngineRun) (input : EngineInput) : Int :=
  match input.call with
  | .submit order =>
    fillVolume (sweep order order.qty
      (restingOrders (run.engine.book.levelsOf order.side.opposite))).1
  | _ => 0

/-- The volume counter has room for what a call takes from the book. -/
def VolumeFits (run : EngineRun) (input : EngineInput) : Prop :=
  run.engine.stats.totalTradedVolume.toNat + run.sweptVolume input < 2 ^ 64
  deriving Decidable

end EngineRun

/-- A submission, cancellation or modification whose price and quantity are positive and below
2^40. -/
def EngineCall.Small : EngineCall → Prop
  | .submit order => (0 < order.price.toInt ∧ order.price.toInt < 2 ^ 40) ∧
      0 < order.qty.toNat ∧ order.qty.toNat < 2 ^ 40
  | .cancel .. => True
  | .modify _ newQty => 0 < newQty.toNat ∧ newQty.toNat < 2 ^ 40
  | .reset => False

instance (call : EngineCall) : Decidable call.Small := by
  cases call <;> dsimp only [EngineCall.Small] <;> infer_instance

section Submission

variable {engine : MatchingEngine} {order : Order} {ctx : ExecutionContext}
  {clock : ClockReadings} {view view' : BookView} {submission : Submission}

/-- Fills of levels with positive prices have a volume. -/
theorem fillVolume_nonneg {resting : List OrderView} (remaining : Quantity)
    (positive : ∀ entry ∈ resting, 0 < entry.price.toInt) :
    0 ≤ fillVolume (sweep order remaining resting).1 := by
  apply sum_nonneg
  intro amount member
  obtain ⟨fill, filled, rfl⟩ := mem_map.mp member
  have price := positive fill.maker (maker_mem_of_sweep filled)
  exact Int.mul_nonneg (Int.natCast_nonneg _) (Int.le_of_lt price)

variable (submitted : Submitted engine order ctx clock view submission view')
include submitted

/-- The volume of a submission is the one of the reference. -/
theorem Submitted.volume (sane : Sane engine.book view) :
    tradedVolume submission.calls =
      fillVolume (sweep order order.qty (restingOrders (view order.side.opposite))).1 := by
  have listed := congrArg (map fun entry : OrderId × Quantity × Price =>
    (entry.2.1.toNat : Int) * entry.2.2.toInt) submitted.matches_eq
  rw [submitted.sweep_eq sane, tradedVolume, fillVolume]
  simp only [map_map] at listed ⊢
  exact congrArg sum listed

/-- A submission below 2^40 trades less than that for each match. -/
theorem Submitted.shares_le (small : order.qty.toNat < 2 ^ 40) :
    tradedShares submission.calls ≤ submission.calls.length * 2 ^ 40 := by
  have total := submitted.total
  change tradedShares submission.calls + _ = _ at total
  cases made : submission.calls with
  | nil => exact Nat.le_refl _
  | cons call rest =>
    rw [made] at total
    rw [length_cons]
    omega

end Submission

namespace EngineRun

variable {run next : EngineRun} {input : EngineInput}

/-- Resting prices are positive. -/
theorem PositivePrices.resting (positive : run.PositivePrices) (invariant : run.Invariant)
    (side : Side) :
    ∀ entry ∈ restingOrders (run.engine.book.levelsOf side), 0 < entry.price.toInt := by
  intro entry member
  obtain ⟨level, listed, queued⟩ := mem_restingOrders.mp member
  rw [invariant.sane.rep.priced side level listed entry queued]
  exact positive side level listed

/-- What a call adds to the matches of a run and to the counters. -/
structure Adds (run : EngineRun) (input : EngineInput) (next : EngineRun)
    (made : List MatchCall) : Prop where
  matched : next.matchCalls = run.matchCalls ++ made
  counts : run.engine.stats.Counts run.matchCalls →
    next.engine.stats.Counts (run.matchCalls ++ made)
  shares : tradedShares made ≤ made.length * 2 ^ 40
  volume : tradedVolume made = run.sweptVolume input
  gain : 0 ≤ run.sweptVolume input

/-- A call without a match. -/
theorem Adds.nothing (matched : next.matched = run.matched)
    (counts : run.engine.stats.Counts run.matchCalls → next.engine.stats.Counts run.matchCalls)
    (idle : run.sweptVolume input = 0) : run.Adds input next [] where
  matched := by rw [matchCalls, matched, append_nil, matchCalls]
  counts := by
    rw [append_nil]
    exact counts
  shares := Nat.zero_le _
  volume := idle.symm
  gain := Int.le_of_eq idle.symm

/-- A call adds its matches. -/
theorem Invariant.adds (invariant : run.Invariant) (positive : run.PositivePrices)
    (small : input.call.Small) (taken : run.step input = .ok next) :
    ∃ made, run.Adds input next made := by
  obtain ⟨call, ctx, clock⟩ := input
  cases call with
  | submit order =>
    simp only [EngineRun.step] at taken
    cases submits : run.engine.submitOrder order ctx clock with
    | error fault =>
      rw [submits] at taken
      cases taken
    | ok submission =>
      rw [submits] at taken
      cases taken
      have outcome := invariant.submitted submits
      refine ⟨submission.calls, ?_, invariant.sane.submitOrder_counts submits,
        outcome.shares_le small.2.2, outcome.volume invariant.sane,
        fillVolume_nonneg _ (positive.resting invariant _)⟩
      simp [matchCalls]
  | cancel orderId clientId accountId symbolId =>
    simp only [EngineRun.step] at taken
    cases cancels : run.engine.cancelOrder orderId clientId accountId symbolId ctx clock with
    | error fault =>
      rw [cancels] at taken
      cases taken
    | ok result =>
      rw [cancels] at taken
      cases taken
      exact ⟨[], .nothing rfl (MatchingEngine.cancelOrder_counts cancels) rfl⟩
  | modify orderId newQty =>
    simp only [EngineRun.step] at taken
    cases modifies : run.engine.modifyOrder orderId newQty clock with
    | error fault =>
      rw [modifies] at taken
      cases taken
    | ok result =>
      rw [modifies] at taken
      cases taken
      exact ⟨[], .nothing rfl (MatchingEngine.modifyOrder_counts modifies) rfl⟩
  | reset => exact small.elim

/-- What holds of a run of small calls, whether its volume fits or not. -/
structure Accounted (run : EngineRun) : Prop where
  invariant : run.Invariant
  positive : run.PositivePrices
  counts : run.engine.stats.Counts run.matchCalls
  shares : tradedShares run.matchCalls ≤ run.matchCalls.length * 2 ^ 40
  volume : 0 ≤ tradedVolume run.matchCalls

/-- Nothing is counted yet. -/
theorem Accounted.start (listener : Option (List BookEvent)) :
    (EngineRun.start listener).Accounted where
  invariant := .start listener
  positive := fun _ _ member => nomatch member
  counts := ⟨rfl, rfl, rfl⟩
  shares := Nat.zero_le _
  volume := Int.le_refl _

/-- The statistics of a short run of small calls are exact if the volume is in range. -/
theorem Accounted.exact_iff (accounted : run.Accounted) (few : run.matched.length < 2 ^ 20) :
    run.StatsExact ↔ tradedVolume run.matchCalls < 2 ^ 64 := by
  obtain ⟨⟨trades, shares⟩, volume⟩ := accounted.counts.exact_iff
  have length : run.matchCalls.length = run.matched.length := length_map _
  have bound := accounted.shares
  constructor
  · intro exact'
    exact (volume.mp exact'.volume).2
  · intro fits
    exact ⟨trades.mpr (by omega), shares.mpr (by omega), volume.mpr ⟨accounted.volume, fits⟩⟩

/-- A small call adds the volume that the reference takes for it. -/
theorem Accounted.step (accounted : run.Accounted) (small : input.call.Small)
    (taken : run.step input = .ok next) :
    next.Accounted ∧
      tradedVolume next.matchCalls = tradedVolume run.matchCalls + run.sweptVolume input := by
  obtain ⟨made, adds⟩ := accounted.invariant.adds accounted.positive small taken
  have priced (order : Order) (isSubmit : input.call = .submit order) :
      0 < order.price.toInt := by
    rw [isSubmit] at small
    exact small.1.1
  have volume : tradedVolume next.matchCalls =
      tradedVolume run.matchCalls + run.sweptVolume input := by
    rw [adds.matched, tradedVolume_append, adds.volume]
  refine ⟨⟨(accounted.invariant.step taken).1,
    accounted.positive.step accounted.invariant priced taken, ?_, ?_, ?_⟩, volume⟩
  · rw [adds.matched]
    exact adds.counts accounted.counts
  · have before := accounted.shares
    have here := adds.shares
    rw [adds.matched, tradedShares_append, length_append]
    omega
  · have before := accounted.volume
    have here := adds.gain
    omega

/-- Matches are never withdrawn. -/
theorem matched_grows (taken : run.step input = .ok next) :
    run.matched.length ≤ next.matched.length := by
  obtain ⟨call, ctx, clock⟩ := input
  cases call with
  | submit order =>
    simp only [EngineRun.step] at taken
    split at taken
    · cases taken
      simp
    · cases taken
  | cancel | modify | reset =>
    simp only [EngineRun.step] at taken
    split at taken
    · cases taken
      exact Nat.le_refl _
    · cases taken

/-- In every run of small calls with fewer than 2^20 matches, the traded statistics are exact
throughout exactly if every call finds room in the volume counter for what it takes from the
book. -/
theorem statsExact_iff {listener : Option (List BookEvent)} {inputs : List EngineInput}
    {final : EngineRun} (small : ∀ input ∈ inputs, input.call.Small)
    (ran : runAll step (start listener) inputs = .ok final)
    (few : final.matched.length < 2 ^ 20) :
    Throughout StatsExact step (start listener) inputs ↔
      Along VolumeFits step (start listener) inputs := by
  have begun := Accounted.start listener
  have lawful := (Along.of_mem (start listener) small).and
    (Along.of_final (fun _ _ _ taken => matched_grows taken) ran few)
  have fresh : (start listener).StatsExact :=
    (begun.exact_iff (Nat.two_pow_pos 20)).mpr (Int.pow_pos (by decide))
  refine Throughout.iff_along (motive := fun run => run.Accounted ∧ run.StatsExact)
    ⟨begun, fresh⟩ (fun _ kept => kept.2) ?_ ?_ lawful ran
  · rintro run input next ⟨accounted, exact'⟩ ⟨small, few⟩ fits taken
    obtain ⟨after, volume⟩ := accounted.step small taken
    refine ⟨after, (after.exact_iff (few next taken)).mpr ?_⟩
    rw [volume, ← exact'.volume]
    exact fits
  · rintro run input next ⟨accounted, exact'⟩ ⟨small, few⟩ taken later
    obtain ⟨after, volume⟩ := accounted.step small taken
    have bound := (after.exact_iff (few next taken)).mp later
    rw [volume, ← exact'.volume] at bound
    exact bound

/-- A partial fill and a cancellation are counted exactly. -/
theorem statsExact_iff_partial :
    Throughout StatsExact step (start none)
      [submitInput (limitOrder 1 .sell 100 5), submitInput (limitOrder 2 .buy 100 3),
        ⟨.cancel 1 1 1 1, .empty, ⟨0, 0, 0⟩⟩] := by
  obtain ⟨final, ran, few⟩ : ∃ final, runAll step (start none)
      [submitInput (limitOrder 1 .sell 100 5), submitInput (limitOrder 2 .buy 100 3),
        ⟨.cancel 1 1 1 1, .empty, ⟨0, 0, 0⟩⟩] = .ok final ∧ final.matched.length = 1 :=
    Returns.exists (by decide +kernel)
  exact (statsExact_iff (by decide) ran (by omega)).mpr (by decide +kernel)

/-- Twenty units at a price of ten thousand, in lots of 10^-6 and ticks of 10^-8. -/
def bigTrade : List EngineInput :=
  [submitInput (limitOrder 1 .sell 1000000000000 20000000),
    submitInput (limitOrder 2 .buy 1000000000000 20000000)]

/-- One match of such an order has a volume beyond 2^64. -/
theorem volume_wraps :
    (∀ input ∈ bigTrade, input.call.Small) ∧
      ∃ final, runAll step (start none) bigTrade = .ok final ∧ final.matched.length = 1 ∧
        tradedVolume final.matchCalls = 20000000000000000000 ∧
        final.engine.stats.totalTradedVolume = 1553255926290448384 ∧ ¬final.StatsExact := by
  obtain ⟨final, ran, single, volume, counter⟩ : ∃ final,
      runAll step (start none) bigTrade = .ok final ∧ final.matched.length = 1 ∧
        tradedVolume final.matchCalls = 20000000000000000000 ∧
        final.engine.stats.totalTradedVolume = 1553255926290448384 :=
    Returns.exists (by decide +kernel)
  refine ⟨by decide, final, ran, single, volume, counter, fun exact' => ?_⟩
  have same := exact'.volume
  rw [volume, counter] at same
  exact absurd same (by decide)

end EngineRun

end FluxTrade
