import FluxTrade.Matching.PriceTime

/-!
# Where resting orders come from

Every resting order carries the key of an order submitted for its side, and the
maker of every match was resting on the side opposite to the taker's. Without
modifications resting orders are open for a positive quantity, so every match is.
-/

namespace FluxTrade

open Execution List

/-! ## Fills -/

/-- Fills are made with resting orders. -/
theorem maker_mem_of_fillEach {remaining : Quantity} {resting : List OrderView} {fill : Fill}
    (member : fill ∈ (fillEach remaining resting).1) : fill.maker ∈ resting := by
  induction resting generalizing remaining with
  | nil => simp [fillEach] at member
  | cons maker rest ih =>
    by_cases zero : remaining = 0
    · simp [zero] at member
    · simp only [fillEach, zero, if_false] at member
      rcases mem_cons.mp member with rfl | later
      · exact mem_cons_self
      · exact mem_cons_of_mem _ (ih later)

/-- A maker was resting. -/
theorem maker_mem_of_sweep {order : Order} {remaining : Quantity} {resting : List OrderView}
    {fill : Fill} (member : fill ∈ (sweep order remaining resting).1) : fill.maker ∈ resting :=
  (takeWhile_sublist _).subset (maker_mem_of_fillEach member)

/-- Open orders are filled for a positive quantity. -/
theorem fillEach_qty_ne_zero {remaining : Quantity} {resting : List OrderView}
    (positive : ∀ entry ∈ resting, entry.remainingQty ≠ 0) :
    (∀ fill ∈ (fillEach remaining resting).1, fill.qty ≠ 0) ∧
      ∀ entry ∈ (fillEach remaining resting).2, entry.remainingQty ≠ 0 := by
  induction resting generalizing remaining with
  | nil => simp [fillEach]
  | cons maker rest ih =>
    by_cases zero : remaining = 0
    · rw [zero, fillEach_zero]
      exact ⟨fun _ member => absurd member not_mem_nil, positive⟩
    · obtain ⟨fills, left⟩ :=
        ih fun entry member => positive entry (mem_cons_of_mem _ member)
      simp only [fillEach, zero, if_false]
      constructor
      · intro fill member
        rcases mem_cons.mp member with rfl | later
        · change matchQty remaining maker.remainingQty ≠ 0
          unfold matchQty
          split
          · exact positive maker mem_cons_self
          · exact zero
        · exact fills fill later
      · intro entry member
        rcases mem_append.mp member with here | later
        · unfold reduced at here
          split at here
          · cases here
          · rename_i partly
            obtain rfl := mem_singleton.mp here
            change maker.remainingQty - matchQty remaining maker.remainingQty ≠ 0
            grind
        · exact left entry later

/-- A sweep of open orders fills positive quantities and leaves open orders. -/
theorem sweep_qty_ne_zero {order : Order} {remaining : Quantity} {resting : List OrderView}
    (positive : ∀ entry ∈ resting, entry.remainingQty ≠ 0) :
    (∀ fill ∈ (sweep order remaining resting).1, fill.qty ≠ 0) ∧
      ∀ entry ∈ (sweep order remaining resting).2, entry.remainingQty ≠ 0 := by
  obtain ⟨fills, left⟩ := @fillEach_qty_ne_zero remaining _ fun entry member =>
    positive entry ((takeWhile_sublist _).subset member)
  refine ⟨fills, ?_⟩
  intro entry member
  rcases mem_append.mp member with here | later
  · exact left entry here
  · exact positive entry ((dropWhile_sublist _).subset later)

/-! ## Runs -/

namespace EngineRun

/-- The order that a resting order is the remainder of, as far as keys tell. -/
def Stems (submitted : List Order) (side : Side) (key : OrderKey) : Prop :=
  ∃ order ∈ submitted, order.side = side ∧ key = ⟨order.symbolId, order.orderId⟩

/-- More submissions. -/
theorem Stems.mono {submitted : List Order} {side : Side} {key : OrderKey}
    (stems : Stems submitted side key) (order : Order) :
    Stems (submitted ++ [order]) side key := by
  obtain ⟨owner, member, rest⟩ := stems
  exact ⟨owner, mem_append_left _ member, rest⟩

/-- Resting orders, makers and takers stem from submitted orders. -/
structure Owned (run : EngineRun) : Prop where
  takers : ∀ entry ∈ run.matched, entry.1 ∈ run.submitted
  resting : ∀ side, ∀ entry ∈ restingOrders (run.engine.book.levelsOf side),
    Stems run.submitted side entry.key
  makers : ∀ entry ∈ run.matched,
    Stems run.submitted entry.1.side.opposite entry.2.record.resting.key

namespace Owned

variable {run next : EngineRun} {input : EngineInput}

/-- Nothing to own yet. -/
theorem start (listener : Option (List BookEvent)) : (EngineRun.start listener).Owned where
  takers := fun _ member => by cases member
  resting := fun _ _ member => by cases member
  makers := fun _ member => by cases member

/-- A submission adds the key of its own order and matches resting ones. -/
theorem submit {order : Order} {ctx : ExecutionContext} {clock : ClockReadings}
    {submission : Submission} (owned : run.Owned) (invariant : run.Invariant)
    (outcome : Submitted run.engine order ctx clock run.engine.book.levelsOf submission
      submission.engine.book.levelsOf) :
    Owned ⟨submission.engine, run.submitted ++ [order],
      run.matched ++ submission.calls.map fun call => (order, call)⟩ := by
  have swept := outcome.sweep_eq invariant.sane
  constructor
  · intro entry member
    rcases mem_append.mp member with old | new
    · exact mem_append_left _ (owned.takers entry old)
    · obtain ⟨call, _, rfl⟩ := mem_map.mp new
      exact mem_append_right _ mem_cons_self
  · intro side entry member
    rcases order.side.eq_or_opposite side with rfl | rfl
    · rcases outcome.rested invariant.sane member with ⟨_, _, slot, rfl⟩ | old
      · exact ⟨order, mem_append_right _ mem_cons_self, rfl, rfl⟩
      · exact (owned.resting _ entry old).mono order
    · rw [outcome.views.opposite] at member
      obtain ⟨old, listed, _, _, rfl⟩ := mem_restingOrders_sweepLevels member
      exact (owned.resting _ old listed).mono order
  · intro entry member
    rcases mem_append.mp member with old | new
    · exact (owned.makers entry old).mono order
    · obtain ⟨call, made, rfl⟩ := mem_map.mp new
      have fill : call.fill ∈ (sweep order order.qty (restingOrders
          (run.engine.book.levelsOf order.side.opposite))).1 := by
        rw [swept]
        exact mem_map_of_mem made
      exact (owned.resting _ _ (maker_mem_of_sweep fill)).mono order

/-- A call that keeps the keys of resting orders keeps their owners. -/
theorem keep {engine : MatchingEngine} (owned : run.Owned)
    (keys : ∀ side, ∀ entry ∈ restingOrders (engine.book.levelsOf side),
      ∃ old ∈ restingOrders (run.engine.book.levelsOf side), old.key = entry.key) :
    Owned { run with engine } where
  takers := owned.takers
  resting := by
    intro side entry member
    obtain ⟨old, listed, key⟩ := keys side entry member
    exact key ▸ owned.resting side old listed
  makers := owned.makers

/-- Every call keeps the owners. -/
theorem step (owned : run.Owned) (invariant : run.Invariant)
    (taken : run.step input = .ok next) : next.Owned := by
  cases invariant.moved taken with
  | submit outcome => exact owned.submit invariant outcome
  | cancel _ views _ =>
    exact owned.keep fun side entry member => ⟨entry, views.subset side member, rfl⟩
  | modify _ views _ => exact owned.keep fun side entry member => views.keys side member
  | reset sane _ =>
    apply owned.keep
    intro side entry member
    rw [← sane.view_eq] at member
    cases member

end Owned

/-- Every resting order is open for a positive quantity. -/
def Positive (run : EngineRun) : Prop :=
  ∀ side, ∀ entry ∈ restingOrders (run.engine.book.levelsOf side), entry.remainingQty ≠ 0

/-- The matches of a submission to open orders have positive quantities. -/
theorem Positive.qty_ne_zero {run : EngineRun} {order : Order} {ctx : ExecutionContext}
    {clock : ClockReadings} {submission : Submission} {view' : BookView}
    (positive : run.Positive) (invariant : run.Invariant)
    (outcome : Submitted run.engine order ctx clock run.engine.book.levelsOf submission view') :
    ∀ call ∈ submission.calls, call.record.qty ≠ 0 := by
  intro call made
  have swept := outcome.sweep_eq invariant.sane
  have fills := (@sweep_qty_ne_zero order order.qty _ (positive order.side.opposite)).1
  rw [swept] at fills
  exact fills call.fill (mem_map_of_mem made)

/-- Calls other than modifications keep resting orders open. -/
theorem Positive.step {run next : EngineRun} {input : EngineInput} (positive : run.Positive)
    (invariant : run.Invariant) (plain : ∀ orderId newQty, input.call ≠ .modify orderId newQty)
    (taken : run.step input = .ok next) : next.Positive := by
  cases invariant.moved taken with
  | @submit order _ _ _ outcome =>
    intro side entry member
    rcases order.side.eq_or_opposite side with rfl | rfl
    · rcases outcome.rested invariant.sane member with ⟨_, left, slot, rfl⟩ | old
      · intro zero
        change order.qty = 0 at zero
        simp [openAfter, zero] at left
      · exact positive _ entry old
    · have left := (@sweep_qty_ne_zero order order.qty _ (positive order.side.opposite)).2
      rw [outcome.sweep_eq invariant.sane] at left
      exact left entry member
  | cancel _ views _ =>
    exact fun side entry member => positive side entry (views.subset side member)
  | modify _ _ _ => exact absurd rfl (plain _ _)
  | reset sane _ =>
    intro side entry member
    rw [← sane.view_eq] at member
    cases member

end EngineRun

end FluxTrade
