import FluxTrade.Matching.EngineRun

/-!
# Priorities along a queue

An order that comes to rest takes its sequence number as priority, an increased
one the reading of the clock. The two are not on one scale. A queue shows
increasing priorities exactly as long as every order that joins its tail brings a
larger value than those before it.
-/

namespace FluxTrade

open Execution List

/-- The priorities of a queue. -/
abbrev priorities (queue : List OrderView) : List UInt64 := queue.map OrderView.prioritySeq

/-- Priorities increase from head to tail. -/
def InPriority (queue : List OrderView) : Prop := (priorities queue).Pairwise (· < ·)
  deriving Decidable

namespace EngineRun

/-- In every level the priorities increase. -/
def Prioritised (run : EngineRun) : Prop :=
  ∀ side, ∀ level ∈ run.engine.book.levelsOf side, InPriority level.orders
  deriving Decidable

/-- An order that joins the tail of a queue brings a larger priority than the orders there: its
sequence number when it comes to rest, the reading of the clock when it is increased. -/
def JoinsLast (run : EngineRun) (input : EngineInput) : Prop :=
  match input.call with
  | .submit order =>
    order.type = .limit → openAfter order run.engine.book.levelsOf ≠ 0 →
      ∀ level ∈ run.engine.book.levelsOf order.side, level.price = order.price →
        ∀ entry ∈ level.orders, entry.prioritySeq < order.seqNum
  | .modify orderId newQty =>
    ∀ side, ∀ level ∈ run.engine.book.levelsOf side, ∀ entry ∈ level.orders,
      run.engine.book.findOrder orderId = some entry.slot → entry.remainingQty < newQty →
        ∀ other ∈ level.orders, other.slot ≠ entry.slot → other.prioritySeq < input.clock.now
  | _ => True

instance (run : EngineRun) (input : EngineInput) : Decidable (run.JoinsLast input) := by
  obtain ⟨_ | _ | _ | _, _, _⟩ := input <;> dsimp only [JoinsLast] <;> infer_instance

end EngineRun

/-! ## Queues -/

/-- An order at the tail of a queue. -/
theorem inPriority_append {queue : List OrderView} {entry : OrderView} :
    InPriority (queue ++ [entry]) ↔
      InPriority queue ∧ ∀ other ∈ queue, other.prioritySeq < entry.prioritySeq := by
  unfold InPriority priorities
  rw [map_append, pairwise_append]
  simp

/-- Part of a queue. -/
theorem InPriority.of_sublist {queue part : List OrderView} (ordered : InPriority queue)
    (sub : (priorities part).Sublist (priorities queue)) : InPriority part :=
  Pairwise.sublist sub ordered

/-- Fills keep the priorities of the orders they leave. -/
theorem priorities_fillEach (remaining : Quantity) (resting : List OrderView) :
    (priorities (fillEach remaining resting).2).Sublist (priorities resting) := by
  induction resting generalizing remaining with
  | nil => exact Sublist.refl _
  | cons maker rest ih =>
    by_cases zero : remaining = 0
    · rw [zero, fillEach_zero]
    · have later := ih (remaining - matchQty remaining maker.remainingQty)
      simp only [fillEach, zero, if_false]
      unfold reduced
      split
      · exact later.cons _
      · exact later.cons_cons _

/-- A sweep leaves levels with part of their priorities. -/
theorem priorities_sweepLevels {order : Order} {remaining : Quantity} {levels : List LevelView}
    {level : LevelView} (member : level ∈ (sweepLevels order remaining levels).2) :
    ∃ old ∈ levels, (priorities level.orders).Sublist (priorities old.orders) := by
  obtain ⟨old, listed, opened, rfl, _⟩ := level_of_sweepLevels member
  exact ⟨old, listed, priorities_fillEach opened old.orders⟩

/-- A level list in priority stays so under a placed order exactly if that order joins last. -/
theorem placeOrder_inPriority_iff {side : Side} {price : Price} {node : Nat} {entry : OrderView}
    {levels : List LevelView} (ordered : ∀ level ∈ levels, InPriority level.orders) :
    (∀ level ∈ placeOrder side price node entry levels, InPriority level.orders) ↔
      ∀ level ∈ levels, level.price = price →
        ∀ other ∈ level.orders, other.prioritySeq < entry.prioritySeq := by
  have placed (level : LevelView) : InPriority (if level.price = price then
      { level with orders := level.orders ++ [entry] } else level).orders ↔
        InPriority level.orders ∧ (level.price = price →
          ∀ other ∈ level.orders, other.prioritySeq < entry.prioritySeq) := by
    by_cases priced : level.price = price
    · rw [if_pos priced, forall_prop_of_true priced]
      exact inPriority_append
    · rw [if_neg priced, forall_prop_of_false priced, and_true]
  unfold placeOrder
  simp only [forall_mem_map, placed]
  unfold ensureLevel
  split
  · exact ⟨fun both level listed => (both level listed).2,
      fun last level listed => ⟨ordered level listed, last level listed⟩⟩
  · rename_i absent
    have elsewhere (level : LevelView) (listed : level ∈ levels) : level.price ≠ price :=
      fun same => absent (any_eq_true.mpr ⟨level, listed, decide_eq_true same⟩)
    refine iff_of_true ?_ fun level listed priced => absurd priced (elsewhere level listed)
    intro level member
    rcases mem_insertLevel.mp member with rfl | old
    · exact ⟨Pairwise.nil, fun _ _ inside => nomatch inside⟩
    · exact ⟨ordered level old, fun priced => absurd priced (elsewhere level old)⟩

/-- An amended queue in priority: an increased order joins last. -/
theorem amended_inPriority_iff {ahead behind : List OrderView} {entry : OrderView}
    {newQty : Quantity} {prioritySeq : UInt64} (ordered : InPriority (ahead ++ entry :: behind)) :
    InPriority (amended ahead behind entry newQty prioritySeq) ↔
      (entry.remainingQty < newQty →
        ∀ other ∈ ahead ++ behind, other.prioritySeq < prioritySeq) := by
  have part : (ahead ++ behind).Sublist (ahead ++ entry :: behind) :=
    (sublist_cons_self entry behind).append_left ahead
  unfold amended
  by_cases less : newQty < entry.remainingQty
  · rw [if_pos less]
    have same : priorities (ahead ++ { entry with remainingQty := newQty } :: behind) =
        priorities (ahead ++ entry :: behind) := by simp [priorities]
    refine iff_of_true ?_ fun more => absurd more (UInt64.not_lt.mpr (UInt64.le_of_lt less))
    unfold InPriority
    rw [same]
    exact ordered
  · rw [if_neg less]
    by_cases more : entry.remainingQty < newQty
    · rw [if_pos more, inPriority_append, forall_prop_of_true more]
      exact and_iff_right (ordered.of_sublist (part.map _))
    · rw [if_neg more]
      exact iff_of_true ordered fun some' => absurd some' more

/-! ## Calls -/

/-- Orders of one slot are one order, in one queue. -/
theorem Sane.queue_unique {book : LimitOrderBook} (sane : Sane book book.levelsOf)
    {side side' : Side} {level level' : LevelView} {entry entry' : OrderView}
    (listed : level ∈ book.levelsOf side) (queued : entry ∈ level.orders)
    (listed' : level' ∈ book.levelsOf side') (queued' : entry' ∈ level'.orders)
    (same : entry.slot = entry'.slot) : entry = entry' ∧ level.orders = level'.orders := by
  have resting {side : Side} {level : LevelView} {entry : OrderView}
      (listed : level ∈ book.levelsOf side) (queued : entry ∈ level.orders) :
      entry ∈ restingBoth book.levelsOf :=
    (restingBoth_perm book.levelsOf side).mem_iff.mpr
      (mem_append_left _ (mem_restingOrders.mpr ⟨level, listed, queued⟩))
  have one : entry = entry' := inj_on_of_nodup_map sane.slots_nodup (resting listed queued)
    (resting listed' queued') same
  subst one
  have price := ((sane.rep.sides side).nodes level listed).queue.priced entry queued
  have price' := ((sane.rep.sides side').nodes level' listed').queue.priced entry queued'
  have located := sane.rep.locate_eq sane.uncrossed.noOverlap listed
  rw [← price, price', sane.rep.locate_eq sane.uncrossed.noOverlap listed'] at located
  have slots : level'.slot = level.slot := congrArg Prod.snd (Option.some.inj located)
  refine ⟨rfl, ?_⟩
  rw [← sane.rep.queueOf_eq listed, ← sane.rep.queueOf_eq listed', slots]

/-- The orders of a queue have different slots. -/
theorem Sane.slot_ne {book : LimitOrderBook} (sane : Sane book book.levelsOf) {side : Side}
    {level : LevelView} {ahead behind : List OrderView} {entry other : OrderView}
    (listed : level ∈ book.levelsOf side) (queued : level.orders = ahead ++ entry :: behind)
    (member : other ∈ ahead ++ behind) : other.slot ≠ entry.slot := by
  have nodup := ((sane.rep.sides side).nodes level listed).queue.links.nodup
  rw [queueSlots, queued, map_append, map_cons] at nodup
  have outside := (nodup_cons.mp (nodup_middle.mp nodup)).1
  rw [← map_append] at outside
  exact fun same => outside (same ▸ mem_map_of_mem member)

namespace EngineRun

variable {run next : EngineRun} {input : EngineInput}

/-- A submission keeps the priorities in order exactly if the order joins last, should it rest. -/
theorem prioritised_submit_iff {order : Order} {ctx : ExecutionContext} {clock : ClockReadings}
    {submission : Submission} (prioritised : run.Prioritised)
    (outcome : Submitted run.engine order ctx clock run.engine.book.levelsOf submission
      submission.engine.book.levelsOf) :
    (∀ side, ∀ level ∈ submission.engine.book.levelsOf side, InPriority level.orders) ↔
      run.JoinsLast ⟨.submit order, ctx, clock⟩ := by
  have far : ∀ level ∈ submission.engine.book.levelsOf order.side.opposite,
      InPriority level.orders := by
    intro level member
    rw [outcome.views.opposite] at member
    obtain ⟨old, listed, part⟩ := priorities_sweepLevels member
    exact (prioritised _ old listed).of_sublist part
  have near : (∀ level ∈ submission.engine.book.levelsOf order.side, InPriority level.orders) ↔
      run.JoinsLast ⟨.submit order, ctx, clock⟩ := by
    unfold JoinsLast
    by_cases rests : order.type = .limit ∧ openAfter order run.engine.book.levelsOf ≠ 0
    · obtain ⟨slot, node, placed⟩ := outcome.views.rests rests.1 rests.2
      simp only [forall_prop_of_true rests.1, forall_prop_of_true rests.2]
      rw [placed]
      exact placeOrder_inPriority_iff (prioritised order.side)
    · rw [not_and_or, not_not] at rests
      rw [outcome.views.leaves rests]
      refine iff_of_true (prioritised order.side) fun isLimit left => ?_
      rcases rests with other | filled
      · exact absurd isLimit other
      · exact absurd filled left
  rw [← near]
  constructor
  · exact fun all => all order.side
  · intro own side
    rcases order.side.eq_or_opposite side with rfl | rfl
    · exact own
    · exact far

/-- A modification keeps the priorities in order exactly if an increased order joins last. -/
theorem prioritised_modify_iff {orderId : OrderId} {newQty : Quantity} {ctx : ExecutionContext}
    {clock : ClockReadings} (invariant : run.Invariant) (prioritised : run.Prioritised)
    (taken : run.step ⟨.modify orderId newQty, ctx, clock⟩ = .ok next) :
    next.Prioritised ↔ run.JoinsLast ⟨.modify orderId newQty, ctx, clock⟩ := by
  obtain ⟨_, ⟨missing, same⟩ | ⟨side, front, level, back, ahead, entry, behind, split, queued,
    found, views⟩⟩ := invariant.modified taken
  · unfold Prioritised JoinsLast
    rw [same]
    refine iff_of_true prioritised fun side level _ entry _ found => ?_
    rw [missing] at found
    cases found
  · have listed : level ∈ run.engine.book.levelsOf side := by simp [split]
    have ordered := prioritised side level listed
    rw [queued] at ordered
    have queue : next.Prioritised ↔
        InPriority (amended ahead behind entry newQty clock.now) := by
      unfold Prioritised
      rw [views]
      constructor
      · intro all
        refine all side { level with orders := amended ahead behind entry newQty clock.now } ?_
        rw [Function.update_self]
        exact mem_append_right _ mem_cons_self
      · intro amends
        exact forall_mem_replaced split prioritised fun home new =>
          mem_singleton.mp new ▸ amends
    have member : entry ∈ level.orders := by simp [queued]
    rw [queue, amended_inPriority_iff ordered]
    constructor
    · intro last side' level' listed' entry' inside isSlot more other otherInside apart
      rw [found] at isSlot
      obtain ⟨rfl, orders⟩ := invariant.sane.queue_unique listed member listed' inside
        (Option.some.inj isSlot)
      rw [← orders, queued] at otherInside
      refine last more other ?_
      rcases mem_append.mp otherInside with early | late
      · exact mem_append_left _ early
      · rcases mem_cons.mp late with rfl | later
        · exact absurd rfl apart
        · exact mem_append_right _ later
    · intro last more other inside
      refine last side level listed entry member found more other ?_
        (invariant.sane.slot_ne listed queued inside)
      rw [queued]
      exact ((sublist_cons_self entry behind).append_left ahead).subset inside

/-- A call keeps the priorities in order exactly if the order that joins a queue joins it last. -/
theorem prioritised_step_iff (invariant : run.Invariant) (prioritised : run.Prioritised)
    (taken : run.step input = .ok next) : next.Prioritised ↔ run.JoinsLast input := by
  cases invariant.moved taken with
  | submit outcome => exact prioritised_submit_iff prioritised outcome
  | @cancel _ _ _ _ _ _ engine _ views _ =>
    refine iff_of_true ?_ trivial
    unfold Prioritised
    generalize engine.book.levelsOf = after at views ⊢
    cases views with
    | unknown _ => exact prioritised
    | @taken side front back level ahead behind entry split queued _ =>
      rw [append_assoc]
      refine forall_mem_replaced split prioritised fun home new => ?_
      have ordered := prioritised side level (by simp [split])
      rw [queued] at ordered
      rw [mem_pruned new]
      exact ordered.of_sublist
        (((sublist_cons_self entry behind).append_left ahead).map _)
  | modify _ _ _ => exact prioritised_modify_iff invariant prioritised taken
  | reset sane _ =>
    refine iff_of_true ?_ trivial
    intro side level member
    rw [← sane.view_eq] at member
    cases member

/-- In every run, the priorities increase along every queue throughout exactly if every order that
joins a queue joins it last. -/
theorem prioritised_iff_joinsLast {listener : Option (List BookEvent)}
    {inputs : List EngineInput} {final : EngineRun}
    (ran : runAll EngineRun.step (EngineRun.start listener) inputs = .ok final) :
    Throughout Prioritised EngineRun.step (EngineRun.start listener) inputs ↔
      Along JoinsLast EngineRun.step (EngineRun.start listener) inputs := by
  let motive (run : EngineRun) := run.Invariant ∧ run.Prioritised
  have start : motive (EngineRun.start listener) :=
    ⟨.start listener, fun _ _ member => nomatch member⟩
  have lawful : Along (fun _ _ => True) EngineRun.step (EngineRun.start listener) inputs :=
    Along.of_forall (fun _ _ => trivial) _ _
  refine Throughout.iff_along start ?_ ?_ ?_ lawful ran
  · exact fun _ kept => kept.2
  · rintro run input next ⟨invariant, prioritised⟩ _ last taken
    exact ⟨(invariant.step taken).1, (prioritised_step_iff invariant prioritised taken).mpr last⟩
  · rintro run input next ⟨invariant, prioritised⟩ _ taken after
    exact (prioritised_step_iff invariant prioritised taken).mp after

/-- Two orders rest, the first is increased at time 1000, and a third one comes. -/
def increasedThen (third : OrderId) : List EngineInput :=
  [⟨.submit (limitOrder 1 .sell 100 5), .empty, ⟨10, 10, 11⟩⟩,
    ⟨.submit (limitOrder 2 .sell 100 5), .empty, ⟨20, 20, 21⟩⟩,
    ⟨.modify 1 9, .empty, ⟨999, 1000, 1001⟩⟩,
    ⟨.submit (limitOrder third .sell 100 5), .empty, ⟨2000, 2000, 2001⟩⟩]

/-- The third order has a sequence number above the reading of the clock. -/
theorem prioritised_iff_joinsLast_later :
    Throughout Prioritised EngineRun.step (EngineRun.start none) (increasedThen 1500) := by
  have returns : Returns (fun _ => True)
      (runAll EngineRun.step (EngineRun.start none) (increasedThen 1500)) := by
    decide +kernel
  obtain ⟨final, ran, _⟩ := returns.exists
  exact (prioritised_iff_joinsLast ran).mpr (by decide +kernel)

/-- The third order has the next sequence number, which is below the reading of the clock. -/
theorem not_prioritised_increased :
    ((increasedThen 3).flatMap fun input =>
        [input.clock.start, input.clock.now, input.clock.finish]).Pairwise (· ≤ ·) ∧
      ∃ final, runAll EngineRun.step (EngineRun.start none) (increasedThen 3) = .ok final ∧
        (final.submitted.map Order.seqNum).Pairwise (· < ·) ∧
        (final.engine.book.levelsOf .sell).map (fun level => priorities level.orders) =
          [[2, 1000, 3]] ∧
        ¬final.Prioritised :=
  ⟨by decide, Returns.exists (by decide +kernel)⟩

end EngineRun

end FluxTrade
