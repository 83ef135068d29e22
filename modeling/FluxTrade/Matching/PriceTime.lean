import FluxTrade.Matching.EngineRun

/-!
# Price-time priority

In every state that a run reaches, a submission makes exactly the matches of
the greedy reference on the opposite side's resting orders and leaves exactly
the resting orders that the reference leaves.
-/

namespace FluxTrade

open Execution EngineRun

variable {run : EngineRun} {engine : MatchingEngine} {order : Order} {ctx : ExecutionContext}
  {clock : ClockReadings} {view view' : BookView} {submission : Submission}

/-- The fills that the reference makes for an order in a book. -/
def Order.fills (order : Order) (book : LimitOrderBook) : List Fill :=
  (sweep order order.qty (restingOrders (book.levelsOf order.side.opposite))).1

/-- Resting orders stand at their level's price. -/
theorem BookRep.priced {book : LimitOrderBook} (rep : BookRep book view) (side : Side) :
    Priced (view side) := by
  intro level member entry queued
  have shown := rep.order_view member queued
  have price := ((rep.sides side).nodes level member).queue.priced entry queued
  rw [← congrArg OrderView.price shown]
  exact price

section

variable (submitted : Submitted engine order ctx clock view submission view')
include submitted

/-- The matches of a submission, as the reference lists them. -/
theorem Submitted.matches_eq :
    (submission.calls.map fun call =>
      (call.record.resting.key.orderId, call.record.qty, call.record.price)) =
      (submission.calls.map MatchCall.fill).map fun fill =>
        (fill.maker.key.orderId, fill.qty, fill.maker.price) := by
  obtain ⟨crossing, extend, _⟩ := submitted.crossed
  rw [List.map_map]
  apply List.map_congr_left
  intro call member
  simp only [Function.comp_apply, MatchCall.fill, LiveOrder.view, (extend.sound call member).price]

/-- The matches of a submission and what they leave make up the order. -/
theorem Submitted.total :
    (submission.calls.map fun call => call.record.qty.toNat).sum +
      (leftAfter order.qty (submission.calls.map MatchCall.fill)).toNat = order.qty.toNat := by
  have total := sweepLevels_total order order.qty (view order.side.opposite)
  rw [← submitted.fills, List.map_map] at total
  exact total

/-- The quantity handed to each `build_match` is what its predecessors and itself have left. -/
theorem Submitted.remainders {front back : List MatchCall} {call : MatchCall}
    (split : submission.calls = front ++ call :: back) :
    call.record.remainingQtyTaker.toNat =
      order.qty.toNat - ((front ++ [call]).map fun made => made.record.qty.toNat).sum := by
  obtain ⟨crossing, extend, _⟩ := submitted.crossed
  have total := submitted.total
  have sums : (((front ++ [call]).map MatchCall.fill).map fun fill => fill.qty.toNat).sum =
      ((front ++ [call]).map fun made => made.record.qty.toNat).sum := by
    rw [List.map_map]
    rfl
  have fits : ((front ++ [call]).map fun made => made.record.qty.toNat).sum ≤
      order.qty.toNat := by
    simp only [split, List.map_append, List.map_cons, List.sum_append, List.sum_cons, List.map_nil,
      List.sum_nil] at total ⊢
    omega
  rw [extend.remainders front call back split]
  change (leftAfter order.qty _).toNat = _
  rw [leftAfter_toNat (sums ▸ fits), sums]

variable (sane : Sane engine.book view)
include sane

/-- The fills of a submission are those of the reference. -/
theorem Submitted.sweep_eq :
    sweep order order.qty (restingOrders (view order.side.opposite)) =
      (submission.calls.map MatchCall.fill, restingOrders (view' order.side.opposite)) := by
  rw [submitted.fills, submitted.views.opposite]
  exact sweepLevels_eq_sweep order order.qty _ (sane.rep.priced _) (sane.proper _)

/-- The matches of a submission are the fills that the book before it promises. -/
theorem Submitted.fills_eq :
    order.fills engine.book = submission.calls.map MatchCall.fill := by
  rw [Order.fills, ← sane.view_eq, submitted.sweep_eq sane]

/-- The number of matches fits its counter. -/
theorem Submitted.tradesGenerated_toNat :
    submission.result.tradesGenerated.toNat = submission.calls.length := by
  obtain ⟨crossing, extend, _, generated⟩ := submitted.crossed
  have few : submission.calls.length ≤ orderCapacity := by
    have fills := congrArg (fun swept => swept.1.length) (submitted.sweep_eq sane)
    have bound := fillEach_fills_length_le order.qty
      ((restingOrders (view order.side.opposite)).takeWhile fun maker => order.accepts maker.price)
    have shorter : ((restingOrders (view order.side.opposite)).takeWhile fun maker =>
        order.accepts maker.price).length ≤ (restingOrders (view order.side.opposite)).length :=
      (List.takeWhile_sublist _).length_le
    have total := sane.rep.orders_length order.side
    simp only [sweep, List.length_map] at fills
    omega
  have small : orderCapacity < 2 ^ 32 := by decide
  rw [generated, extend.tradesGenerated]
  change ((0 : UInt32) + UInt32.ofNat submission.calls.length).toNat = _
  rw [UInt32.zero_add, UInt32.toNat_ofNat']
  exact Nat.mod_eq_of_lt (by omega)

end

/-- A submission in a reached state, with room in the pools, makes the matches of the greedy
reference and leaves its resting orders; the counter of trades is their number, and the remainder
handed over with each match is the order's quantity less the matches up to it. This holds also
when identifiers are submitted again while they rest. -/
theorem submitOrder_priceTime {listener : Option (List BookEvent)} {inputs : List EngineInput}
    (ran : runAll step (start listener) inputs = .ok run)
    (room : run.engine.book.HasRoom) (order : Order) (ctx : ExecutionContext)
    (clock : ClockReadings) :
    ∃ submission, run.engine.submitOrder order ctx clock = .ok submission ∧
      (submission.calls.map fun call =>
        (call.record.resting.key.orderId, call.record.qty, call.record.price)) =
        (sweep order order.qty
          (restingOrders (run.engine.book.levelsOf order.side.opposite))).1.map (fun fill =>
          (fill.maker.key.orderId, fill.qty, fill.maker.price)) ∧
      restingOrders (submission.engine.book.levelsOf order.side.opposite) =
        (sweep order order.qty
          (restingOrders (run.engine.book.levelsOf order.side.opposite))).2 ∧
      submission.result.tradesGenerated.toNat = submission.calls.length ∧
      ∀ front call back, submission.calls = front ++ call :: back →
        call.record.remainingQtyTaker.toNat =
          order.qty.toNat - ((front ++ [call]).map fun made => made.record.qty.toNat).sum := by
  have invariant := Invariant.of_run ran
  rcases submitOrder_spec invariant.sane order ctx clock with
    ⟨submission, view', submitted, outcome⟩ | ⟨_, _, _, full⟩
  · have swept := outcome.sweep_eq invariant.sane
    obtain rfl := outcome.sane.view_eq
    refine ⟨submission, submitted, ?_, ?_, ?_, ?_⟩
    · rw [swept]
      exact outcome.matches_eq
    · rw [swept]
    · exact outcome.tradesGenerated_toNat invariant.sane
    · exact fun front call back split => outcome.remainders split
  · exact absurd room full

/-- A buy order empties one ask level and takes three of the five lots of the next. -/
theorem submitOrder_priceTime_twoLevels :
    ∃ run, runAll step (start none)
        [submitInput (limitOrder 1 .sell 101 5), submitInput (limitOrder 2 .sell 100 5)] =
          .ok run ∧
      run.engine.book.HasRoom ∧
      ∃ submission, run.engine.submitOrder (limitOrder 3 .buy 101 8) .empty ⟨0, 0, 0⟩ =
          .ok submission ∧
        (submission.calls.map fun call =>
          (call.record.resting.key.orderId, call.record.qty, call.record.price)) =
            [(2, 5, 100), (1, 3, 101)] ∧
        (restingOrders (submission.engine.book.levelsOf .sell)).map (fun ask =>
          (ask.key.orderId, ask.remainingQty, ask.price)) = [(1, 2, 101)] := by
  obtain ⟨run, ran, room, fills, asks⟩ : ∃ run, runAll step (start none)
        [submitInput (limitOrder 1 .sell 101 5), submitInput (limitOrder 2 .sell 100 5)] =
          .ok run ∧
      run.engine.book.HasRoom ∧
      (sweep (limitOrder 3 .buy 101 8) 8 (restingOrders (run.engine.book.levelsOf .sell))).1.map
        (fun fill => (fill.maker.key.orderId, fill.qty, fill.maker.price)) =
          [(2, 5, 100), (1, 3, 101)] ∧
      (sweep (limitOrder 3 .buy 101 8) 8 (restingOrders (run.engine.book.levelsOf .sell))).2.map
        (fun ask => (ask.key.orderId, ask.remainingQty, ask.price)) = [(1, 2, 101)] :=
    Returns.exists (by decide +kernel)
  obtain ⟨submission, submitted, made, left, _⟩ :=
    submitOrder_priceTime ran room (limitOrder 3 .buy 101 8) .empty ⟨0, 0, 0⟩
  exact ⟨run, ran, room, submission, submitted, made.trans fills,
    (congrArg (List.map _) left).trans asks⟩

end FluxTrade
