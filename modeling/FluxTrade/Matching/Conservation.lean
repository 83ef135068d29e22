import FluxTrade.Matching.PriceTime

/-!
# Conservation of order quantity

The ledger of a run: how much of each submitted order has been matched, as
taker or as maker. A limit order that is matched in part rests with its full
quantity, because `submit_order` passes the original order to `insert`; from
then on it can trade more than it asked for. In runs where no limit order is
matched in part, the ledger balances after every call.
-/

namespace FluxTrade

open Execution MatchCall List

/-! ## The ledger of a sweep -/

/-- Quantity that a list of fills takes from a maker. -/
def takenFrom (fills : List Fill) (orderId : OrderId) : Nat :=
  (fills.map fun fill => if fill.maker.key.orderId = orderId then fill.qty.toNat else 0).sum

/-- Identifiers of a list of orders. -/
abbrev orderIds (resting : List OrderView) : List OrderId :=
  resting.map fun entry => entry.key.orderId

/-- Total open quantity over the integers. -/
def openVolume (resting : List OrderView) : Nat :=
  (resting.map fun entry => entry.remainingQty.toNat).sum

/-- Nothing is taken. -/
@[simp]
theorem takenFrom_nil (orderId : OrderId) : takenFrom [] orderId = 0 := rfl

/-- One fill more. -/
@[simp]
theorem takenFrom_cons (fill : Fill) (rest : List Fill) (orderId : OrderId) :
    takenFrom (fill :: rest) orderId =
      (if fill.maker.key.orderId = orderId then fill.qty.toNat else 0) +
        takenFrom rest orderId := by
  simp [takenFrom]

/-- Nothing is taken from an order that is not in the list. -/
theorem takenFrom_absent {remaining : Quantity} {resting : List OrderView} {orderId : OrderId}
    (absent : orderId ∉ orderIds resting) :
    takenFrom (fillEach remaining resting).1 orderId = 0 := by
  induction resting generalizing remaining with
  | nil => simp [fillEach]
  | cons maker rest ih =>
    simp only [map_cons, mem_cons, not_or] at absent
    by_cases zero : remaining = 0
    · simp [zero]
    · simp only [fillEach, zero, if_false, takenFrom_cons, if_neg (Ne.symm absent.1),
        ih absent.2]

/-- Each order that stays has lost exactly what was taken from it. -/
theorem fillEach_balance {remaining : Quantity} {resting : List OrderView}
    (distinct : (orderIds resting).Nodup) {entry : OrderView}
    (member : entry ∈ (fillEach remaining resting).2) :
    ∃ old ∈ resting, old.key = entry.key ∧
      entry.remainingQty.toNat + takenFrom (fillEach remaining resting).1 old.key.orderId =
        old.remainingQty.toNat := by
  induction resting generalizing remaining with
  | nil => simp [fillEach] at member
  | cons maker rest ih =>
    obtain ⟨outside, tail⟩ := nodup_cons.mp distinct
    by_cases zero : remaining = 0
    · rw [zero, fillEach_zero] at member ⊢
      exact ⟨entry, member, rfl, by simp⟩
    · simp only [fillEach, zero, if_false, mem_append] at member ⊢
      rcases member with here | later
      · refine ⟨maker, mem_cons_self, ?_⟩
        unfold reduced at here
        split at here
        · cases here
        · have fits := matchQty_le_maker remaining maker.remainingQty
          have bound := UInt64.le_iff_toNat_le.mp fits
          obtain rfl := mem_singleton.mp here
          refine ⟨rfl, ?_⟩
          simp only [takenFrom_cons, if_true, takenFrom_absent outside]
          rw [UInt64.toNat_sub_of_le _ _ fits]
          omega
      · obtain ⟨old, listed, key, balance⟩ := ih tail later
        refine ⟨old, mem_cons_of_mem _ listed, key, ?_⟩
        have other : maker.key.orderId ≠ old.key.orderId := by
          intro same
          exact outside (mem_map.mpr ⟨old, listed, same.symm⟩)
        rw [takenFrom_cons, if_neg other]
        omega

/-- No order loses more than it has open. -/
theorem takenFrom_le {remaining : Quantity} {resting : List OrderView}
    (distinct : (orderIds resting).Nodup) {old : OrderView} (listed : old ∈ resting) :
    takenFrom (fillEach remaining resting).1 old.key.orderId ≤ old.remainingQty.toNat := by
  induction resting generalizing remaining with
  | nil => cases listed
  | cons maker rest ih =>
    obtain ⟨outside, tail⟩ := nodup_cons.mp distinct
    by_cases zero : remaining = 0
    · simp [zero]
    · simp only [fillEach, zero, if_false, takenFrom_cons]
      rcases mem_cons.mp listed with rfl | later
      · rw [takenFrom_absent outside]
        have bound := UInt64.le_iff_toNat_le.mp (matchQty_le_maker remaining old.remainingQty)
        simpa using bound
      · have other : maker.key.orderId ≠ old.key.orderId := by
          intro same
          exact outside (mem_map.mpr ⟨old, later, same.symm⟩)
        rw [if_neg other]
        simpa using ih tail later

/-- Quantity that is left over has taken the whole volume. -/
theorem fillEach_volume {remaining : Quantity} {resting : List OrderView}
    (some' : leftAfter remaining (fillEach remaining resting).1 ≠ 0) :
    ((fillEach remaining resting).1.map fun fill => fill.qty.toNat).sum = openVolume resting := by
  induction resting generalizing remaining with
  | nil => simp [fillEach, openVolume]
  | cons maker rest ih =>
    by_cases zero : remaining = 0
    · simp [zero] at some'
    · simp only [fillEach, zero, if_false, leftAfter_cons] at some' ⊢
      rcases matchQty_exhausts remaining maker.remainingQty with exhausted | whole
      · simp [exhausted] at some'
      · simp only [map_cons, sum_cons, openVolume, ih some']
        rw [← whole]

section Sweeping

variable {order : Order} {remaining : Quantity} {resting : List OrderView}

/-- The resting orders at prices that the order accepts. -/
def eligible (order : Order) (resting : List OrderView) : List OrderView :=
  resting.takeWhile fun maker => order.accepts maker.price

/-- Eligible orders come first. -/
theorem eligible_append_rest (order : Order) (resting : List OrderView) :
    eligible order resting ++ resting.dropWhile (fun maker => order.accepts maker.price) =
      resting :=
  takeWhile_append_dropWhile

/-- So do their identifiers. -/
theorem orderIds_eligible (order : Order) (resting : List OrderView) :
    orderIds (eligible order resting) ++
      orderIds (resting.dropWhile fun maker => order.accepts maker.price) = orderIds resting := by
  rw [← map_append, eligible_append_rest]

/-- Nothing is taken from an order that does not rest. -/
theorem sweep_absent {orderId : OrderId} (absent : orderId ∉ orderIds resting) :
    takenFrom (sweep order remaining resting).1 orderId = 0 := by
  apply takenFrom_absent
  intro member
  apply absent
  rw [← orderIds_eligible order resting]
  exact mem_append_left _ member

/-- Each order that a sweep leaves has lost exactly what was taken from it. -/
theorem sweep_balance (distinct : (orderIds resting).Nodup) {entry : OrderView}
    (member : entry ∈ (sweep order remaining resting).2) :
    ∃ old ∈ resting, old.key = entry.key ∧
      entry.remainingQty.toNat + takenFrom (sweep order remaining resting).1 old.key.orderId =
        old.remainingQty.toNat := by
  have whole := eligible_append_rest order resting
  have ids := orderIds_eligible order resting
  rw [← ids] at distinct
  obtain ⟨inside, _, across⟩ := nodup_append.mp distinct
  rcases mem_append.mp member with filled | kept
  · obtain ⟨old, listed, key, balance⟩ := fillEach_balance inside filled
    refine ⟨old, ?_, key, balance⟩
    rw [← whole]
    exact mem_append_left _ listed
  · have untouched : entry.key.orderId ∉ orderIds (eligible order resting) := fun early =>
      across _ early _ (mem_map_of_mem kept) rfl
    refine ⟨entry, ?_, rfl, ?_⟩
    · rw [← whole]
      exact mem_append_right _ kept
    · change _ + takenFrom (fillEach remaining (eligible order resting)).1 _ = _
      rw [takenFrom_absent untouched, Nat.add_zero]

/-- No resting order loses more than it has open. -/
theorem sweep_taken_le (distinct : (orderIds resting).Nodup) {old : OrderView}
    (listed : old ∈ resting) :
    takenFrom (sweep order remaining resting).1 old.key.orderId ≤ old.remainingQty.toNat := by
  have whole := eligible_append_rest order resting
  rw [← orderIds_eligible order resting] at distinct
  obtain ⟨inside, _, across⟩ := nodup_append.mp distinct
  rw [← whole] at listed
  rcases mem_append.mp listed with early | late
  · exact takenFrom_le inside early
  · have untouched : old.key.orderId ∉ orderIds (eligible order resting) := fun early =>
      across _ early _ (mem_map_of_mem late) rfl
    change takenFrom (fillEach remaining (eligible order resting)).1 _ ≤ _
    rw [takenFrom_absent untouched]
    exact Nat.zero_le _

end Sweeping

/-- A submission that leaves quantity over matched nothing if the acceptable volume is zero or
covers the order. -/
theorem Submitted.unmatched {engine : MatchingEngine} {order : Order} {ctx : ExecutionContext}
    {clock : ClockReadings} {view view' : BookView} {submission : Submission}
    (sane : Sane engine.book view)
    (submitted : Submitted engine order ctx clock view submission view')
    (left : openAfter order view ≠ 0)
    (whole : openVolume (eligible order (restingOrders (view order.side.opposite))) = 0 ∨
      order.qty.toNat ≤
        openVolume (eligible order (restingOrders (view order.side.opposite)))) :
    ((submission.calls.map fill).map fun fill => fill.qty.toNat).sum = 0 := by
  have swept := submitted.sweep_eq sane
  have total := sweepLevels_total order order.qty (view order.side.opposite)
  have fills : submission.calls.map fill = (fillEach order.qty
      (eligible order (restingOrders (view order.side.opposite)))).1 :=
    (congrArg Prod.fst swept).symm
  rw [openAfter, ← submitted.fills] at left
  rw [← submitted.fills] at total
  have some' : (leftAfter order.qty (submission.calls.map fill)).toNat ≠ 0 := by
    intro zero
    exact left (UInt64.toNat_inj.mp zero)
  have volume := fillEach_volume (fills ▸ left)
  rw [← fills] at volume
  omega

/-! ## The ledger of a run -/

namespace EngineRun

/-- A match names an order as its taker or as its maker. -/
def Names (entry : Order × MatchCall) (orderId : OrderId) : Prop :=
  entry.1.orderId = orderId ∨ entry.2.record.resting.key.orderId = orderId
  deriving Decidable

/-- Total quantity of the matches that name an order. -/
def matchedQty (run : EngineRun) (orderId : OrderId) : Nat :=
  ((run.matched.filter fun entry => Names entry orderId).map fun entry =>
    entry.2.record.qty.toNat).sum

/-- Every submitted order is matched for at most its quantity, and while it rests its open quantity
is what the matches have left. -/
def Conserved (run : EngineRun) : Prop :=
  ∀ order ∈ run.submitted, run.matchedQty order.orderId ≤ order.qty.toNat ∧
    ∀ entry ∈ restingOrders (run.engine.book.levelsOf .buy) ++
      restingOrders (run.engine.book.levelsOf .sell), entry.key.orderId = order.orderId →
      entry.remainingQty.toNat = order.qty.toNat - run.matchedQty order.orderId
  deriving Decidable

/-- Limit and market orders of positive quantity under new identifiers, and cancellations. -/
def PlainFlow (run : EngineRun) (input : EngineInput) : Prop :=
  match input.call with
  | .submit order => (order.type = .limit ∨ order.type = .market) ∧ 0 < order.qty ∧
      order.orderId ∉ run.submitted.map Order.orderId
  | .cancel .. => True
  | .modify .. => False
  | .reset => False

instance (run : EngineRun) (input : EngineInput) : Decidable (PlainFlow run input) := by
  obtain ⟨_ | _ | _ | _, _, _⟩ := input <;> dsimp only [PlainFlow] <;> infer_instance

/-- A limit order meets either no acceptable volume on the opposite side or at least its own
quantity. -/
def AllOrNothing (run : EngineRun) (input : EngineInput) : Prop :=
  match input.call with
  | .submit order => order.type = .limit →
      openVolume (eligible order
        (restingOrders (run.engine.book.levelsOf order.side.opposite))) = 0 ∨
      order.qty.toNat ≤ openVolume (eligible order
        (restingOrders (run.engine.book.levelsOf order.side.opposite)))
  | _ => True

instance (run : EngineRun) (input : EngineInput) : Decidable (AllOrNothing run input) := by
  obtain ⟨_ | _ | _ | _, _, _⟩ := input <;> dsimp only [AllOrNothing] <;> infer_instance

/-- A sell order of five rests, and a buy order of ten at its price takes it whole. The buy order
then rests with ten although five are matched. -/
theorem partialFill_not_conserved :
    ∃ run, Along PlainFlow step (start none)
        [submitInput (limitOrder 1 .sell 100 5), submitInput (limitOrder 2 .buy 100 10)] ∧
      runAll step (start none)
        [submitInput (limitOrder 1 .sell 100 5), submitInput (limitOrder 2 .buy 100 10)] =
          .ok run ∧ ¬run.Conserved := by
  have returns : Returns (fun run => ¬run.Conserved) (runAll step (start none)
      [submitInput (limitOrder 1 .sell 100 5), submitInput (limitOrder 2 .buy 100 10)]) := by
    decide +kernel
  obtain ⟨run, ran, broken⟩ := returns.exists
  exact ⟨run, by decide +kernel, ran, broken⟩

/-- The resting orders of both sides. -/
def resting (run : EngineRun) : List OrderView :=
  restingOrders (run.engine.book.levelsOf .buy) ++ restingOrders (run.engine.book.levelsOf .sell)

/-- The ledger balances: resting orders are submitted ones with what the matches have left, and
only submitted orders are matched, each for at most its quantity. -/
structure Ledger (run : EngineRun) : Prop where
  invariant : run.Invariant
  indexed : run.Indexed
  distinct : (run.submitted.map Order.orderId).Nodup
  owned : ∀ entry ∈ run.resting, ∃ order ∈ run.submitted,
    order.orderId = entry.key.orderId ∧
      entry.remainingQty.toNat + run.matchedQty entry.key.orderId = order.qty.toNat
  bounded : ∀ order ∈ run.submitted, run.matchedQty order.orderId ≤ order.qty.toNat
  named : ∀ orderId, orderId ∉ run.submitted.map Order.orderId → run.matchedQty orderId = 0

namespace Ledger

variable {run : EngineRun}

/-- The empty ledger. -/
theorem start (listener : Option (List BookEvent)) : (EngineRun.start listener).Ledger where
  invariant := .start listener
  indexed := fun _ _ member => by cases member
  distinct := nodup_nil
  owned := fun _ member => by cases member
  bounded := fun _ member => by cases member
  named := fun _ _ => rfl

/-- A balanced ledger conserves quantities. -/
theorem conserved (ledger : run.Ledger) : run.Conserved := by
  intro order submitted
  refine ⟨ledger.bounded order submitted, ?_⟩
  intro entry member isId
  obtain ⟨owner, listed, sameId, balance⟩ := ledger.owned entry member
  have same : owner = order :=
    inj_on_of_nodup_map ledger.distinct listed submitted (sameId.trans isId)
  rw [same, isId] at balance
  omega

/-- Resting identifiers are submitted ones. -/
theorem mem_submitted (ledger : run.Ledger) {orderId : OrderId}
    (rests : run.engine.book.Resting orderId) : orderId ∈ run.submitted.map Order.orderId := by
  obtain ⟨entry, member, rfl⟩ := rests
  obtain ⟨order, submitted, same, _⟩ := ledger.owned entry member
  rw [← same]
  exact mem_map_of_mem submitted

/-- No identifier rests twice. -/
theorem ids_nodup (ledger : run.Ledger) : (orderIds run.resting).Nodup :=
  ledger.indexed.ids_nodup ledger.invariant.sane.rep

/-- The resting orders, one side first. -/
theorem mem_resting (run : EngineRun) (side : Side) (entry : OrderView) :
    entry ∈ run.resting ↔ entry ∈ restingOrders (run.engine.book.levelsOf side) ∨
      entry ∈ restingOrders (run.engine.book.levelsOf side.opposite) :=
  mem_restingBoth_sides side

/-- No identifier rests twice, one side first. -/
theorem ids_nodup_side (ledger : run.Ledger) (side : Side) :
    (orderIds (restingOrders (run.engine.book.levelsOf side)) ++
      orderIds (restingOrders (run.engine.book.levelsOf side.opposite))).Nodup := by
  have nodup := ledger.ids_nodup
  rw [orderIds, resting, map_append] at nodup
  cases side with
  | buy => exact nodup
  | sell => exact perm_append_comm.nodup_iff.mp nodup

/-- What a submission adds to a matched quantity: all for the taker, else what was taken. -/
theorem matchedQty_submit {next : EngineRun} {order : Order} {calls : List MatchCall}
    (grown : next.matched = run.matched ++ calls.map fun call => (order, call))
    (orderId : OrderId) :
    next.matchedQty orderId = run.matchedQty orderId +
      if order.orderId = orderId then
        ((calls.map fill).map fun fill => fill.qty.toNat).sum
      else takenFrom (calls.map fill) orderId := by
  have added : (((calls.map fun call => (order, call)).filter fun entry =>
      Names entry orderId).map fun entry => entry.2.record.qty.toNat).sum =
      if order.orderId = orderId then
        ((calls.map fill).map fun fill => fill.qty.toNat).sum
      else takenFrom (calls.map fill) orderId := by
    clear grown
    induction calls with
    | nil => simp
    | cons call rest ih =>
      by_cases taker : order.orderId = orderId
      · simp only [taker, if_true] at ih ⊢
        simp only [map_cons, filter_cons, Names, taker, true_or, decide_true, if_true,
          sum_cons]
        rw [← ih]
        simp [fill, Names]
      · simp only [taker, if_false] at ih ⊢
        simp only [map_cons, filter_cons, Names, taker, false_or, takenFrom_cons,
          fill, LiveOrder.view] at ih ⊢
        by_cases maker : call.record.resting.key.orderId = orderId
        · simpa [maker] using ih
        · simpa [maker] using ih
  simp only [matchedQty, grown, filter_append, map_append, sum_append, added]

section Submit

variable {next : EngineRun} {order : Order} {ctx : ExecutionContext} {clock : ClockReadings}
  {submission : Submission}

variable (ledger : run.Ledger)
include ledger

/-- An unused identifier names no resting order. -/
theorem orderId_ne (unused : order.orderId ∉ run.submitted.map Order.orderId) {entry : OrderView}
    (member : entry ∈ run.resting) : order.orderId ≠ entry.key.orderId := by
  intro same
  rw [same] at unused
  exact unused (ledger.mem_submitted ⟨entry, member, rfl⟩)

variable (outcome : Submitted run.engine order ctx clock run.engine.book.levelsOf submission
    submission.engine.book.levelsOf)
  (matched : next.matched = run.matched ++ submission.calls.map fun call => (order, call))
include outcome matched

/-- A submission adds to the matched quantity of another order what the sweep takes from it. -/
theorem matchedQty_other {orderId : OrderId} (different : order.orderId ≠ orderId) :
    next.matchedQty orderId = run.matchedQty orderId + takenFrom (sweep order order.qty
      (restingOrders (run.engine.book.levelsOf order.side.opposite))).1 orderId := by
  rw [matchedQty_submit matched, if_neg different, outcome.sweep_eq ledger.invariant.sane]

variable (unused : order.orderId ∉ run.submitted.map Order.orderId)
  (grown : next.submitted = run.submitted ++ [order])
include unused grown

/-- After a submission, resting orders are submitted ones with what the matches have left. -/
theorem submit_owned (whole : AllOrNothing run ⟨.submit order, ctx, clock⟩)
    (engine : next.engine = submission.engine) {entry : OrderView} (member : entry ∈ next.resting) :
    ∃ owner ∈ next.submitted, owner.orderId = entry.key.orderId ∧
      entry.remainingQty.toNat + next.matchedQty entry.key.orderId = owner.qty.toNat := by
  have ids := ledger.ids_nodup_side order.side.opposite
  rw [Side.opposite_opposite] at ids
  obtain ⟨distinct, _, across⟩ := nodup_append.mp ids
  rw [mem_resting next order.side, engine] at member
  rcases member with own | opposite
  · rcases outcome.rested ledger.invariant.sane own with ⟨isLimit, left, slot, rfl⟩ | old
    · -- A limit order that leaves quantity over has met no acceptable volume.
      refine ⟨order, by simp [grown], rfl, ?_⟩
      have nothing := outcome.unmatched ledger.invariant.sane left (whole isLimit)
      change order.qty.toNat + next.matchedQty order.orderId = order.qty.toNat
      rw [matchedQty_submit matched, if_pos rfl, ledger.named _ unused, nothing, Nat.add_zero]
    · have near : entry ∈ run.resting := (mem_resting run order.side entry).mpr (Or.inl old)
      obtain ⟨owner, listed, sameId, balance⟩ := ledger.owned entry near
      refine ⟨owner, by simp [grown, listed], sameId, ?_⟩
      have untouched : entry.key.orderId ∉ orderIds
          (restingOrders (run.engine.book.levelsOf order.side.opposite)) := fun early =>
        across _ early _ (mem_map_of_mem old) rfl
      rw [ledger.matchedQty_other outcome matched (ledger.orderId_ne unused near),
        sweep_absent untouched]
      omega
  · have inSweep : entry ∈ (sweep order order.qty
        (restingOrders (run.engine.book.levelsOf order.side.opposite))).2 := by
      rw [outcome.sweep_eq ledger.invariant.sane]
      exact opposite
    obtain ⟨old, listed, key, balance⟩ := sweep_balance distinct inSweep
    have far : old ∈ run.resting := (mem_resting run order.side old).mpr (Or.inr listed)
    obtain ⟨owner, submitted, sameId, before⟩ := ledger.owned old far
    refine ⟨owner, by simp [grown, submitted], sameId.trans (by rw [key]), ?_⟩
    rw [← key, ledger.matchedQty_other outcome matched (ledger.orderId_ne unused far)]
    omega

/-- After a submission, no order is matched for more than its quantity. -/
theorem submit_bounded {other : Order} (member : other ∈ next.submitted) :
    next.matchedQty other.orderId ≤ other.qty.toNat := by
  rw [grown, mem_append, mem_singleton] at member
  rcases member with old | rfl
  · have different : order.orderId ≠ other.orderId := fun same =>
      unused (same ▸ mem_map_of_mem old)
    rw [ledger.matchedQty_other outcome matched different]
    by_cases rests : other.orderId ∈ orderIds
        (restingOrders (run.engine.book.levelsOf order.side.opposite))
    · have ids := ledger.ids_nodup_side order.side.opposite
      rw [Side.opposite_opposite] at ids
      obtain ⟨entry, listed, isId⟩ := mem_map.mp rests
      obtain ⟨owner, submitted, sameId, before⟩ := ledger.owned entry
        ((mem_resting run order.side entry).mpr (Or.inr listed))
      have same : owner = other :=
        inj_on_of_nodup_map ledger.distinct submitted old (sameId.trans isId)
      have taken : takenFrom (sweep order order.qty _).1 entry.key.orderId ≤ _ :=
        sweep_taken_le (nodup_append.mp ids).1 listed
      rw [same] at before
      rw [← isId]
      omega
    · rw [sweep_absent rests]
      exact ledger.bounded other old
  · have total := sweepLevels_total other other.qty
      (run.engine.book.levelsOf other.side.opposite)
    rw [← outcome.fills] at total
    rw [matchedQty_submit matched, if_pos rfl, ledger.named _ unused]
    omega

/-- A submission under a new identifier, of a limit order that is not matched in part, keeps the
ledger balanced. -/
theorem submit (whole : AllOrNothing run ⟨.submit order, ctx, clock⟩)
    (engine : next.engine = submission.engine) (invariant : next.Invariant)
    (indexed : next.Indexed) : next.Ledger where
  invariant := invariant
  indexed := indexed
  distinct := by
    rw [grown, map_append, map_cons, map_nil]
    refine nodup_append.mpr ⟨ledger.distinct, nodup_singleton _, ?_⟩
    intro left leftMember right rightMember same
    rw [mem_singleton.mp rightMember] at same
    exact unused (same ▸ leftMember)
  owned _ member := ledger.submit_owned outcome matched unused grown whole engine member
  bounded _ member := ledger.submit_bounded outcome matched unused grown member
  named orderId absent := by
    rw [grown, map_append, mem_append, not_or] at absent
    have different : order.orderId ≠ orderId := fun same => absent.2 (by simp [same])
    have unknown : orderId ∉ orderIds
        (restingOrders (run.engine.book.levelsOf order.side.opposite)) := by
      intro rests
      obtain ⟨entry, listed, isId⟩ := mem_map.mp rests
      exact absent.1 (ledger.mem_submitted
        ⟨entry, (mem_resting run order.side entry).mpr (Or.inr listed), isId⟩)
    rw [ledger.matchedQty_other outcome matched different, ledger.named _ absent.1,
      sweep_absent unknown]

end Submit

/-- A call that matches nothing and adds no resting order keeps the ledger balanced. -/
theorem shrink {engine : MatchingEngine} (ledger : run.Ledger)
    (invariant : EngineRun.Invariant { run with engine })
    (indexed : EngineRun.Indexed { run with engine })
    (subset : ∀ side, ∀ entry ∈ restingOrders (engine.book.levelsOf side),
      entry ∈ restingOrders (run.engine.book.levelsOf side)) :
    EngineRun.Ledger { run with engine } where
  invariant := invariant
  indexed := indexed
  distinct := ledger.distinct
  owned := fun entry member => by
    obtain ⟨side, rests⟩ := mem_restingBoth_side.mp member
    exact ledger.owned entry (mem_restingBoth_side.mpr ⟨side, subset side entry rests⟩)
  bounded := ledger.bounded
  named := ledger.named

/-- One call of plain flow that matches no limit order in part keeps the ledger balanced. -/
theorem step {next : EngineRun} {input : EngineInput} (ledger : run.Ledger)
    (plain : PlainFlow run input) (whole : AllOrNothing run input)
    (taken : run.step input = .ok next) : next.Ledger := by
  have fresh : FreshId run input := by
    obtain ⟨call, ctx, clock⟩ := input
    cases call with
    | submit order => exact fun rests => plain.2.2 (ledger.mem_submitted rests)
    | _ => trivial
  obtain ⟨invariant, stays⟩ := ledger.invariant.step taken
  have indexed := stays ledger.indexed fresh
  cases ledger.invariant.moved taken with
  | submit outcome => exact ledger.submit outcome rfl plain.2.2 rfl whole rfl invariant indexed
  | cancel _ views _ => exact ledger.shrink invariant indexed fun side entry => views.subset side
  | modify _ _ _ => exact plain.elim
  | reset _ _ => exact plain.elim

end Ledger

/-- In every run of limit and market orders of positive quantity and pairwise distinct identifiers,
and of cancellations, in which no limit order meets a positive acceptable volume below its own
quantity, matched quantities never exceed the submitted ones and each resting order is open for
exactly the rest. -/
theorem conserved_of_allOrNothing {listener : Option (List BookEvent)}
    {inputs : List EngineInput} {run : EngineRun}
    (plain : Along PlainFlow step (start listener) inputs)
    (whole : Along AllOrNothing step (start listener) inputs)
    (ran : runAll step (start listener) inputs = .ok run) : run.Conserved := by
  have ledger : run.Ledger := runAll_induction (Ledger.start listener)
    (fun _ _ _ kept guards taken => kept.step guards.1 guards.2 taken) (plain.and whole) ran
  exact ledger.conserved

/-- A sell order of five rests and a buy order of three takes part of it. -/
theorem conserved_of_allOrNothing_smallTaker :
    ∃ run, runAll step (start none)
        [submitInput (limitOrder 1 .sell 100 5), submitInput (limitOrder 2 .buy 100 3)] =
          .ok run ∧ run.matchedQty 1 = 3 ∧ run.Conserved := by
  have returns : Returns (fun run => run.matchedQty 1 = 3) (runAll step (start none)
      [submitInput (limitOrder 1 .sell 100 5), submitInput (limitOrder 2 .buy 100 3)]) := by
    decide +kernel
  obtain ⟨run, ran, matched⟩ := returns.exists
  exact ⟨run, ran, matched,
    conserved_of_allOrNothing (by decide +kernel) (by decide +kernel) ran⟩

end EngineRun

end FluxTrade
