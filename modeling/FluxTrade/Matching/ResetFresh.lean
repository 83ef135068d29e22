import FluxTrade.Matching.ClockFree
import FluxTrade.Matching.Renaming

/-!
# A reset engine is a new one

`reset` empties the book and starts the counters again, but it leaves the free
lists of the pools in the order in which the nodes came back, so the orders that
follow are stored elsewhere than in a new engine. `Twins` are engines that
differ in nothing but the slots of their pools. Each call keeps them so and
returns the same to both, and nothing that the engine shows depends on a slot.
-/

namespace FluxTrade

open Execution OrderView EngineRun

/-! ## The loops -/

/-- A match is recorded under the maker's key, whatever else its node holds. -/
theorem TradeBuilder.buildMatch_resting (ctx : ExecutionContext) (order : Order) (m : Match)
    {resting : LiveOrder} (key : resting.key = m.resting.key) :
    buildMatch ctx order { m with resting } = buildMatch ctx order m := by
  simp only [buildMatch, matchTrade, takerReport, makerReport, key]

/-- Running submissions on mirrored books, in the same state otherwise. -/
structure Crossing.Alike (names : Renaming) (view : BookView) (left right : Crossing) : Prop where
  book : Mirrored names view left.book right.book
  ctx : left.ctx = right.ctx
  stats : left.stats = right.stats
  tradeSeq : left.tradeSeq = right.tradeSeq
  execSeq : left.execSeq = right.execSeq
  remaining : left.remaining = right.remaining
  tradesGenerated : left.tradesGenerated = right.tradesGenerated

namespace Crossing.Alike

variable {names : Renaming} {view : BookView} {left right : Crossing} {order : Order}
  {level : LevelView} {back : List LevelView} {maker : OrderView} {tail : List OrderView}

/-- The matches against a resting order and its counterpart differ in the links of its node. -/
theorem matchOf (alike : Alike names view left right) (timestamp : UInt64)
    (split : view order.side.opposite = level :: back) (queued : level.orders = maker :: tail) :
    right.matchOf timestamp (names.levels level.slot) (names.orders maker.slot) =
      { left.matchOf timestamp level.slot maker.slot with
        resting := right.book.order (names.orders maker.slot) } ∧
    (right.book.order (names.orders maker.slot)).key = (left.book.order maker.slot).key := by
  have split' : view order.side.opposite = [] ++ level :: back := split
  have listed : level ∈ view order.side.opposite := by simp [split]
  have member : maker ∈ level.orders := by simp [queued]
  have shown := alike.book.ofLeft.order_view listed member
  have shown' := alike.book.order_view listed member
  have remaining : (right.book.order (names.orders maker.slot)).remainingQty =
      (left.book.order maker.slot).remainingQty :=
    (congrArg remainingQty shown').trans (congrArg remainingQty shown).symm
  have price : (right.book.level (names.levels level.slot)).price =
      (left.book.level level.slot).price :=
    (alike.book.ofRight.node (renameView_split names split')).priced.trans
      (alike.book.ofLeft.node split').priced.symm
  constructor
  · simp only [Crossing.matchOf, remaining, price, ← alike.remaining, ← alike.tradeSeq,
      ← alike.execSeq]
  · exact (congrArg key shown').trans (congrArg key shown).symm

/-- One iteration of the inner loop on both. -/
theorem matchOne (alike : Alike names view left right) (timestamp : UInt64)
    (apart : NoOverlap view) (split : view order.side.opposite = level :: back)
    (queued : level.orders = maker :: tail) :
    ∃ left' right', left.matchOne order timestamp level.slot maker.slot = .ok left' ∧
      right.matchOne order timestamp (names.levels level.slot) (names.orders maker.slot) =
        .ok right' ∧
      Alike names (Function.update view order.side.opposite
        (pruned { level with
          orders := reduced maker (matchQty left.remaining maker.remainingQty) ++ tail } ++
          back)) left' right' ∧
      left'.remaining = left.remaining - matchQty left.remaining maker.remainingQty := by
  have split' : view order.side.opposite = [] ++ level :: back := split
  have queued' : level.orders = [] ++ maker :: tail := queued
  obtain ⟨record, key⟩ := alike.matchOf timestamp split queued
  have qty : (left.matchOf timestamp level.slot maker.slot).qty =
      matchQty left.remaining maker.remainingQty := by
    simp only [Crossing.matchOf, alike.book.ofLeft.order_remainingQty split' queued']
  have qty' : (right.matchOf timestamp (names.levels level.slot) (names.orders maker.slot)).qty =
      matchQty left.remaining maker.remainingQty := by
    rw [record]
    exact qty
  obtain ⟨book, book', filled, filled', mirrored⟩ := alike.book.fillOrder apart split' queued'
    (matchQty_le_maker left.remaining maker.remainingQty)
  refine ⟨left.record order (left.matchOf timestamp level.slot maker.slot) maker.slot book,
    right.record order
      (right.matchOf timestamp (names.levels level.slot) (names.orders maker.slot))
      (names.orders maker.slot) book', ?_, ?_, ?_, ?_⟩
  · simp only [Crossing.matchOne, qty, filled, bind, Except.bind]
  · simp only [Crossing.matchOne, qty', filled', bind, Except.bind]
  · rw [record]
    constructor
    · exact mirrored
    · simp only [Crossing.record, alike.ctx]
      exact (TradeBuilder.buildMatch_resting right.ctx order _ key).symm
    · simp only [Crossing.record, alike.stats]
    · simp only [Crossing.record, alike.tradeSeq]
    · simp only [Crossing.record, alike.execSeq]
    · rfl
    · simp only [Crossing.record, alike.tradesGenerated]
  · rw [← qty]
    rfl

/-- The inner loop on both. -/
theorem matchLevel (timestamp : UInt64) {fuel : Nat} (alike : Alike names view left right)
    (apart : NoOverlap view) (split : view order.side.opposite = level :: back)
    (proper : level.orders ≠ []) (fits : level.orders.length ≤ fuel) :
    ∃ left' right', Crossing.matchLevel MatchingEngine.canSelfTrade order timestamp level.slot
        fuel (queueSlots level.orders).head? left = .ok left' ∧
      Crossing.matchLevel MatchingEngine.canSelfTrade order timestamp (names.levels level.slot)
        fuel ((queueSlots level.orders).head?.map names.orders) right = .ok right' ∧
      ∃ view', Alike names view' left' right' := by
  -- The induction is that of `matchLevel_spec`: on the queue, whose head is filled away.
  generalize shape : level.orders = queue at proper fits
  induction queue generalizing left right view level fuel with
  | nil => exact absurd rfl proper
  | cons maker tail ih =>
    obtain ⟨fuel, rfl⟩ : ∃ n, fuel = n + 1 := ⟨fuel - 1, by simp at fits; omega⟩
    by_cases zero : left.remaining = 0
    · exact ⟨left, right, matchLevel_exhausted zero,
        matchLevel_exhausted (alike.remaining ▸ zero), view, alike⟩
    · have zero' : right.remaining ≠ 0 := alike.remaining ▸ zero
      have split' : view order.side.opposite = [] ++ level :: back := split
      obtain ⟨middle, middle', matched, matched', onward, leaves⟩ :=
        alike.matchOne timestamp apart split shape
      have queued : level.orders = [] ++ maker :: tail := shape
      have next := alike.book.ofLeft.order_next split' queued
      have next' : (right.book.order (names.orders maker.slot)).next =
          (queueSlots tail).head?.map names.orders := by
        rw [← head?_rename]
        exact alike.book.ofRight.order_next (renameView_split names split')
          (rename_queued names queued)
      have first : (queueSlots (maker :: tail)).head? = some maker.slot := rfl
      rw [first, Option.map_some, matchLevel_step zero next rfl matched,
        matchLevel_step zero' next' rfl matched']
      by_cases exhausted : middle.remaining = 0
      · exact ⟨middle, middle', matchLevel_exhausted exhausted,
          matchLevel_exhausted (onward.remaining ▸ exhausted), _, onward⟩
      · have whole : maker.remainingQty = matchQty left.remaining maker.remainingQty :=
          (matchQty_exhausts _ _).resolve_left (leaves ▸ exhausted)
        have gone : reduced maker (matchQty left.remaining maker.remainingQty) = [] := by
          simp [reduced, ← whole]
        rw [gone] at onward
        cases tail with
        | nil => exact ⟨middle, middle', by cases fuel <;> rfl, by cases fuel <;> rfl, _, onward⟩
        | cons successor rest =>
          have stays := update_shortened view order.side.opposite level
            (List.cons_ne_nil successor rest) back
          have apart' : NoOverlap (Function.update view order.side.opposite
              ([] ++ pruned { level with orders := successor :: rest } ++ back)) :=
            apart.replaced split'
          have later := ih onward apart' stays rfl (by simp)
            (by simp at fits ⊢; omega)
          exact later

/-- The outer loop on both. -/
theorem cross (timestamp : UInt64) {fuel : Nat} (alike : Alike names view left right)
    (apart : NoOverlap view) (proper : Proper view)
    (fits : (view order.side.opposite).length ≤ fuel) :
    ∃ left' right', Crossing.cross MatchingEngine.canSelfTrade order timestamp fuel left =
        .ok left' ∧
      Crossing.cross MatchingEngine.canSelfTrade order timestamp fuel right = .ok right' ∧
      ∃ view', Alike names view' left' right' := by
  -- The induction is that of `cross_spec`, which also says what view a level leaves.
  generalize shape : view order.side.opposite = levels at fits
  induction levels generalizing left right view fuel with
  | nil =>
    have shape' : renameView names view order.side.opposite = [] := by
      rw [renameView, shape]
      rfl
    exact ⟨left, right, cross_exhausted (nextLevel_none alike.book.ofLeft shape),
      cross_exhausted (nextLevel_none alike.book.ofRight shape'), view, alike⟩
  | cons level rest ih =>
    obtain ⟨fuel, rfl⟩ : ∃ n, fuel = n + 1 := ⟨fuel - 1, by simp at fits; omega⟩
    have split : view order.side.opposite = [] ++ level :: rest := shape
    have split' := renameView_split names split
    have next := nextLevel_eq alike.book.ofLeft shape
    have next' : right.nextLevel order = if right.remaining = 0 ∨ ¬order.accepts level.price
        then none else some (names.levels level.slot) :=
      nextLevel_eq alike.book.ofRight split'
    rw [← alike.remaining] at next'
    by_cases stop : left.remaining = 0 ∨ ¬order.accepts level.price
    · rw [if_pos stop] at next next'
      exact ⟨left, right, cross_exhausted next, cross_exhausted next', view, alike⟩
    · rw [if_neg stop] at next next'
      have listed : level ∈ view order.side.opposite := by simp [shape]
      have filled := proper _ level listed
      have short := alike.book.ofLeft.queue_length_le listed
      have head' : (right.book.level (names.levels level.slot)).orders.head =
          (queueSlots level.orders).head?.map names.orders := by
        rw [← head?_rename]
        exact alike.book.ofRight.level_head split'
      obtain ⟨middle, middle', ran, ran', view', onward⟩ :=
        alike.matchLevel timestamp apart shape filled short
      obtain ⟨other, same, crossed⟩ :=
        matchLevel_spec timestamp alike.book.ofLeft apart shape filled short
      rw [ran] at same
      obtain rfl := Except.ok.inj same
      obtain rfl : view' = _ := onward.book.ofLeft.view_eq.trans crossed.rep.view_eq.symm
      rw [cross_step next (alike.book.ofLeft.level_head split) ran, cross_step next' head' ran']
      by_cases exhausted : middle.remaining = 0
      · have exhausted' : middle'.remaining = 0 := onward.remaining ▸ exhausted
        exact ⟨middle, middle', cross_exhausted (by simp [nextLevel, exhausted]),
          cross_exhausted (by simp [nextLevel, exhausted']), _, onward⟩
      · have emptied := fillEach_emptied left.remaining level.orders
          (crossed.remaining ▸ exhausted)
        rw [emptied] at onward
        have stays := update_emptied view order.side.opposite level rest
        have apart' : NoOverlap (Function.update view order.side.opposite
            ([] ++ pruned { level with orders := [] } ++ rest)) := apart.replaced split
        have proper' : Proper (Function.update view order.side.opposite
            ([] ++ pruned { level with orders := [] } ++ rest)) := proper.replaced split
        exact ih onward apart' proper' stays (by simp at fits; omega)

/-- The remainder on both. -/
theorem settle (alike : Alike names view left right) (order : Order) (timestamp : UInt64) :
    Agree (fun left right => left.2 = right.2 ∧ ∃ names view, Alike names view left.1 right.1)
      (left.settle order timestamp) (right.settle order timestamp) := by
  unfold Crossing.settle
  by_cases zero : left.remaining = 0
  · have zero' : right.remaining = 0 := alike.remaining ▸ zero
    rw [if_pos zero, if_pos zero']
    refine .states ⟨rfl, names, view, ?_⟩
    exact { alike with stats := by simp only [alike.stats] }
  · have zero' : right.remaining ≠ 0 := alike.remaining ▸ zero
    rw [if_neg zero, if_neg zero']
    cases order.type with
    | limit =>
      rcases alike.book.insert order order.seqNum with
        ⟨names', view', slot, book, slot', book', inserted, inserted', mirrored⟩ |
        ⟨failed, failed'⟩
      · simp only [inserted, inserted', bind, Except.bind]
        refine .states ⟨?_, names', view', { alike with book := mirrored }⟩
        simp only [alike.remaining]
      · simp only [failed, failed', bind, Except.bind]
        exact .fault Fault.badAlloc
    | market =>
      refine .states ⟨rfl, names, view, ?_⟩
      exact { alike with
        ctx := by simp only [alike.ctx, alike.execSeq, alike.remaining]
        execSeq := by simp only [alike.execSeq] }
    | stop => exact .states ⟨rfl, names, view, alike⟩

end Crossing.Alike

/-! ## Calls -/

/-- Engines that differ in nothing but the slots of their pools, between two calls. -/
structure Twins (left right : MatchingEngine) : Prop where
  sane : Sane left.book left.book.levelsOf
  book : ∃ names, Mirrored names left.book.levelsOf left.book right.book
  stats : left.stats = right.stats
  tradeSeq : left.tradeSeq = right.tradeSeq
  execSeq : left.execSeq = right.execSeq

namespace Twins

variable {left right : MatchingEngine}

/-- Sane and mirrored books, whatever views they are known by, make twins. -/
theorem of_mirrored {names : Renaming} {view view' : BookView} (sane : Sane left.book view)
    (mirrored : Mirrored names view' left.book right.book) (stats : left.stats = right.stats)
    (tradeSeq : left.tradeSeq = right.tradeSeq) (execSeq : left.execSeq = right.execSeq) :
    Twins left right := by
  obtain rfl := sane.view_eq
  obtain rfl := mirrored.ofLeft.view_eq
  exact ⟨sane, ⟨names, mirrored⟩, stats, tradeSeq, execSeq⟩

/-- Engines with empty books and counters at their start are twins. -/
theorem of_empty (sane : Sane left.book fun _ => []) (rep : BookRep right.book fun _ => [])
    (noLeft : left.book.lookup = ∅) (noRight : right.book.lookup = ∅)
    (stats : left.stats = right.stats) (tradeSeq : left.tradeSeq = right.tradeSeq)
    (execSeq : left.execSeq = right.execSeq) : Twins left right :=
  of_mirrored sane (Mirrored.empty ⟨id, id⟩ sane.rep rep noLeft noRight) stats tradeSeq execSeq

variable (twins : Twins left right)
include twins

/-- `submit_order` on both. -/
theorem submitOrder (order : Order) (ctx : ExecutionContext) (clock : ClockReadings) :
    Agree (fun left right => Twins left.engine right.engine ∧ left.ctx = right.ctx ∧
        left.result = right.result)
      (left.submitOrder order ctx clock) (right.submitOrder order ctx clock) := by
  obtain ⟨names, mirrored⟩ := twins.book
  have start : Crossing.Alike names left.book.levelsOf (left.beginSubmit order ctx clock.now)
      (right.beginSubmit order ctx clock.now) := by
    refine ⟨mirrored, ?_, ?_, twins.tradeSeq, ?_, rfl, rfl⟩
    · simp only [MatchingEngine.beginSubmit, twins.execSeq]
    · simp only [MatchingEngine.beginSubmit, twins.stats]
    · simp only [MatchingEngine.beginSubmit, twins.execSeq]
  have fits : (left.book.levelsOf order.side.opposite).length ≤ levelCapacity :=
    twins.sane.rep.levels_length_le _
  obtain ⟨crossing, crossing', ran, ran', view, alike⟩ :=
    start.cross clock.now twins.sane.uncrossed.noOverlap twins.sane.proper fits
  have settled := alike.settle order clock.now
  have spec := submitOrder_spec twins.sane order ctx clock
  simp only [MatchingEngine.submitOrder, MatchingEngine.submitOrderWith, ran, ran', bind,
    Except.bind] at spec ⊢
  generalize crossing.settle order clock.now = ofLeft at settled spec
  generalize crossing'.settle order clock.now = ofRight at settled
  cases settled with
  | fault fault => exact .fault fault
  | states same =>
    obtain ⟨status, names', view', same⟩ := same
    rcases spec with ⟨submission, after, submitted, outcome⟩ | ⟨failed, _⟩
    · obtain rfl := Except.ok.inj submitted
      refine .states ⟨of_mirrored outcome.sane same.book ?_ same.tradeSeq same.execSeq,
        same.ctx, ?_⟩
      · simp only [same.stats]
      · simp only [status, same.tradesGenerated]
    · cases failed

/-- `cancel_order` on both. -/
theorem cancelOrder (orderId : OrderId) (clientId : ClientId) (accountId : AccountId)
    (symbolId : SymbolId) (ctx : ExecutionContext) (clock : ClockReadings) :
    Agree (fun left right => left.1 = right.1 ∧ Twins left.2.1 right.2.1 ∧ left.2.2 = right.2.2)
      (left.cancelOrder orderId clientId accountId symbolId ctx clock)
      (right.cancelOrder orderId clientId accountId symbolId ctx clock) := by
  obtain ⟨names, mirrored⟩ := twins.book
  obtain ⟨engine, view, spec, sane, _⟩ :=
    cancelOrder_spec twins.sane orderId clientId accountId symbolId ctx clock
  have counterpart := mirrored.lookup orderId
  cases found : left.book.findOrder orderId with
  | none =>
    rw [found, Option.map_none] at counterpart
    simp only [MatchingEngine.cancelOrder, found, counterpart]
    exact .states ⟨rfl, { twins with stats := by simp only [twins.stats] }, rfl⟩
  | some slot =>
    rw [found, Option.map_some] at counterpart
    obtain ⟨side, level, listed, entry, queued, rfl, _⟩ :=
      mirrored.ofLeft.lookup orderId slot found
    have shown := mirrored.ofLeft.order_view listed queued
    have shown' := mirrored.order_view listed queued
    have key := (congrArg key shown).trans (congrArg key shown').symm
    have price := (congrArg price shown).trans (congrArg price shown').symm
    have reported : TradeBuilder.buildCancel ctx left.execSeq (left.book.order entry.slot)
        clientId accountId symbolId clock.now =
      TradeBuilder.buildCancel ctx right.execSeq (right.book.order (names.orders entry.slot))
        clientId accountId symbolId clock.now := by
      simp only [LiveOrder.view] at key price
      simp only [TradeBuilder.buildCancel, twins.execSeq, key, price]
    obtain ⟨taken, view', book, book', cancelled, cancelled', same⟩ :=
      mirrored.cancel twins.sane.uncrossed.noOverlap orderId
    simp only [MatchingEngine.cancelOrder, found, counterpart, cancelled, cancelled', bind,
      Except.bind] at spec ⊢
    obtain ⟨rfl, _⟩ := Prod.mk.inj (Prod.mk.inj (Except.ok.inj spec)).2
    refine .states ⟨rfl, of_mirrored sane same ?_ twins.tradeSeq ?_, reported⟩
    · simp only [twins.stats]
    · simp only [twins.execSeq]

/-- `modify_order` on both. -/
theorem modifyOrder (orderId : OrderId) (newQty : Quantity) (clock : ClockReadings) :
    Agree (fun left right => left.1 = right.1 ∧ Twins left.2 right.2)
      (left.modifyOrder orderId newQty clock) (right.modifyOrder orderId newQty clock) := by
  obtain ⟨names, mirrored⟩ := twins.book
  obtain ⟨engine, view, spec, sane, _⟩ := modifyOrder_spec twins.sane orderId newQty clock
  obtain ⟨found, view', book, book', modified, modified', same⟩ :=
    mirrored.modifyQty twins.sane.uncrossed.noOverlap orderId newQty clock.now
  simp only [MatchingEngine.modifyOrder, modified, modified', bind, Except.bind] at spec ⊢
  obtain ⟨_, rfl⟩ := Prod.mk.inj (Except.ok.inj spec)
  refine .states ⟨rfl, of_mirrored sane same ?_ twins.tradeSeq twins.execSeq⟩
  simp only [twins.stats]

/-- `reset` on both. -/
theorem reset : Agree Twins left.reset right.reset := by
  obtain ⟨names, mirrored⟩ := twins.book
  obtain ⟨engine, spec, sane, _⟩ := reset_spec twins.sane
  obtain ⟨book, book', cleared, cleared', same⟩ := mirrored.clear
  simp only [MatchingEngine.reset, cleared, cleared', bind, Except.bind] at spec ⊢
  obtain rfl := Except.ok.inj spec
  exact .states (of_mirrored sane same rfl rfl rfl)

end Twins

/-- A reset engine is a twin of every new one, and its pools have every slot free, each once. -/
theorem reset_twins {engine : MatchingEngine} {view : BookView} (sane : Sane engine.book view)
    (listener : Option (List BookEvent)) :
    ∃ engine', engine.reset = .ok engine' ∧
      engine'.book.orderPool.freeList.Perm (List.range orderCapacity) ∧
      engine'.book.levelPool.freeList.Perm (List.range levelCapacity) ∧
      Twins engine' (MatchingEngine.new listener) := by
  obtain ⟨book, cleared, rep, lookup⟩ := sane.rep.clear
  obtain ⟨engine', reset, sane', _⟩ := reset_spec sane
  have whole := reset
  simp only [MatchingEngine.reset, cleared, bind, Except.bind] at whole
  obtain rfl := Except.ok.inj whole
  refine ⟨_, reset, ?_, ?_, ?_⟩
  · simpa only [ObjectPool.Accounts, orderSlots_nil, List.append_nil] using rep.orderAccounts
  · simpa only [ObjectPool.Accounts, List.map_nil, List.append_nil] using rep.levelAccounts
  · exact Twins.of_empty sane' (BookRep.new listener) lookup rfl rfl rfl rfl

/-! ## What an engine shows -/

/-- What can be seen of an engine: what its calls returned with the trades and reports they left,
the levels of its book with their totals and queues, the orders it looks up, its statistics and the
free slots of its pools. -/
structure EngineFace where
  outcomes : List EngineOutcome
  levels : Side → List LevelRecord
  lookup : OrderId → Option (Price × OrderContents)
  stats : MatchingStatistics
  freeOrders : Nat
  freeLevels : Nat

/-- What an engine shows after its calls. -/
def ObservedEngine.face (observed : ObservedEngine) : EngineFace where
  outcomes := observed.outcomes
  levels := observed.engine.book.records
  lookup := fun orderId =>
    (observed.engine.book.findOrder orderId).map observed.engine.book.stored
  stats := observed.engine.stats
  freeOrders := observed.engine.book.orderPool.freeList.length
  freeLevels := observed.engine.book.levelPool.freeList.length

/-- Contents without the priority, which the clock gives to an increased order. -/
def OrderContents.undated (entry : OrderContents) : OrderContents := { entry with prioritySeq := 0 }

/-- What an engine shows apart from timestamps, latencies and priorities. -/
def EngineFace.untimed (face : EngineFace) : EngineFace :=
  { face with
    outcomes := face.outcomes.map fun outcome => ⟨outcome.returned, outcome.ctx.untimed⟩
    levels := fun side => (face.levels side).map fun level =>
      { level with orders := level.orders.map OrderContents.undated }
    lookup := fun orderId => (face.lookup orderId).map fun found => (found.1, found.2.undated)
    stats := face.stats.untimed }

/-- Engines that no further calls tell apart: under the same clock they show the same, and under any
two clocks the same apart from what the clock decides. A call that ends the process of one ends the
process of the other. -/
structure Indistinguishable (left right : MatchingEngine) : Prop where
  sameClock : ∀ later,
    (runAll ObservedEngine.step ⟨left, []⟩ later).map ObservedEngine.face =
      (runAll ObservedEngine.step ⟨right, []⟩ later).map ObservedEngine.face
  anyClock : ∀ later later', later.map EngineInput.untimed = later'.map EngineInput.untimed →
    (runAll ObservedEngine.step ⟨left, []⟩ later).map (fun observed => observed.face.untimed) =
      (runAll ObservedEngine.step ⟨right, []⟩ later').map fun observed => observed.face.untimed

/-- Forgetting what the clock decides before looking is forgetting it afterwards. -/
theorem ObservedEngine.untimed_face (observed : ObservedEngine) :
    observed.untimed.face = observed.face.untimed := by
  have levels (side : Side) : observed.untimed.engine.book.records side =
      (observed.engine.book.records side).map fun level =>
        { level with orders := level.orders.map OrderContents.undated } := by
    have queue (slot : Nat) : (observed.untimed.engine.book.queueOf slot).map contents =
        ((observed.engine.book.queueOf slot).map contents).map
          OrderContents.undated := by
      simp only [LimitOrderBook.queueOf, List.map_map]
      rfl
    simp only [LimitOrderBook.records, LimitOrderBook.levelsOf, LevelView.contents, List.map_map]
    apply List.map_congr_left
    intro slot _
    simp only [Function.comp_apply, queue]
    rfl
  have lookup (orderId : OrderId) : (observed.untimed.engine.book.findOrder orderId).map
      observed.untimed.engine.book.stored =
        ((observed.engine.book.findOrder orderId).map observed.engine.book.stored).map
          fun found => (found.1, found.2.undated) := by
    rw [Option.map_map]
    rfl
  rw [face, funext levels, funext lookup]
  rfl

/-- Twins with the same outcomes so far. -/
structure ObservedEngine.Twins (left right : ObservedEngine) : Prop where
  engine : FluxTrade.Twins left.engine right.engine
  outcomes : left.outcomes = right.outcomes

namespace ObservedEngine.Twins

variable {left right : ObservedEngine}

/-- One call on both. -/
theorem step (twins : Twins left right) (input : EngineInput) :
    Agree Twins (left.step input) (right.step input) := by
  have after {engine engine' : MatchingEngine} (same : FluxTrade.Twins engine engine')
      (returned : EngineReturn) (ctx : ExecutionContext) :
      Twins (left.after returned engine ctx) (right.after returned engine' ctx) :=
    ⟨same, by rw [ObservedEngine.after, ObservedEngine.after, twins.outcomes]⟩
  obtain ⟨call, ctx, clock⟩ := input
  cases call with
  | submit order =>
    apply (twins.engine.submitOrder order ctx clock).map
    rintro submission submission' ⟨same, sameCtx, result⟩
    rw [sameCtx, result]
    exact after same _ _
  | cancel orderId clientId accountId symbolId =>
    apply (twins.engine.cancelOrder orderId clientId accountId symbolId ctx clock).map
    rintro cancelled cancelled' ⟨found, same, sameCtx⟩
    rw [found, sameCtx]
    exact after same _ _
  | modify orderId newQty =>
    apply (twins.engine.modifyOrder orderId newQty clock).map
    rintro modified modified' ⟨found, same⟩
    rw [found]
    exact after same _ _
  | reset => exact twins.engine.reset.map fun _ _ same => after same _ _

/-- A run on both. -/
theorem run (twins : Twins left right) (later : List EngineInput) :
    Agree Twins (runAll ObservedEngine.step left later)
      (runAll ObservedEngine.step right later) := by
  have always : Throughout (fun _ => True) ObservedEngine.step left later :=
    Throughout.of_forall (fun _ => trivial) left later
  exact runAll_agree (fun _ _ input same _ _ => same.step input) twins always

/-- Twins show the same. -/
theorem face (twins : Twins left right) : left.face = right.face := by
  obtain ⟨names, mirrored⟩ := twins.engine.book
  have levels := funext mirrored.sameBook.records
  have lookup := funext mirrored.sameBook.lookup
  obtain ⟨orders, nodes⟩ := mirrored.free_lengths
  rw [ObservedEngine.face, ObservedEngine.face, twins.outcomes, levels, lookup,
    twins.engine.stats, orders, nodes]

end ObservedEngine.Twins

/-- No further calls tell twins apart. -/
theorem Twins.indistinguishable {left right : MatchingEngine} (twins : Twins left right) :
    Indistinguishable left right := by
  have both : ObservedEngine.Twins ⟨left, []⟩ ⟨right, []⟩ := ⟨twins, rfl⟩
  constructor
  · intro later
    exact (both.run later).map_eq fun _ _ same => same.face
  · intro later later' same
    have forgotten := congrArg (Except.map ObservedEngine.face)
      (ObservedEngine.runAll_untimed ⟨left, []⟩ same)
    have seen (result : Except Fault ObservedEngine) :
        (result.map ObservedEngine.untimed).map ObservedEngine.face =
          result.map fun observed => observed.face.untimed := by
      cases result with
      | error fault => rfl
      | ok observed => exact congrArg Except.ok observed.untimed_face
    rw [seen, seen] at forgotten
    rw [forgotten]
    exact (both.run later').map_eq fun _ _ same => congrArg EngineFace.untimed same.face

/-- After any calls, with any identifiers, that left the pools room, `reset` returns an engine that
no further calls tell from a new one. Its pools have every slot free, each once. -/
theorem reset_indistinguishable {listener : Option (List BookEvent)} {inputs : List EngineInput}
    {run : EngineRun}
    (ran : runAll step (start listener) inputs = .ok run)
    (listener' : Option (List BookEvent)) :
    ∃ engine, run.engine.reset = .ok engine ∧
      engine.book.orderPool.freeList.Perm (List.range orderCapacity) ∧
      engine.book.levelPool.freeList.Perm (List.range levelCapacity) ∧
      Indistinguishable engine (MatchingEngine.new listener') := by
  obtain ⟨engine, reset, orders, levels, twins⟩ :=
    reset_twins (Invariant.of_run ran).sane listener'
  exact ⟨engine, reset, orders, levels, twins.indistinguishable⟩

/-- A bid and two offers of one identifier, of which only the last is looked up. -/
def repeatedOffers : List EngineInput :=
  [limitOrder 1 .buy 99 5, limitOrder 2 .sell 101 5, limitOrder 2 .sell 102 3].map submitInput

/-- The reset engine stores its first order where the offers were, a new one does not. -/
theorem reset_indistinguishable_repeated :
    ∃ run engine, runAll step (start none) repeatedOffers = .ok run ∧
      run.engine.reset = .ok engine ∧ Indistinguishable engine (MatchingEngine.new none) ∧
      engine.book.orderPool.freeList.head? ≠
        (MatchingEngine.new none).book.orderPool.freeList.head? := by
  obtain ⟨run, ran, engine, reset, elsewhere⟩ : ∃ run,
      runAll step (start none) repeatedOffers = .ok run ∧
        ∃ engine, run.engine.reset = .ok engine ∧
          engine.book.orderPool.freeList.head? ≠
            (MatchingEngine.new none).book.orderPool.freeList.head? := by
    have returns : Returns (fun run => Returns (fun engine =>
        engine.book.orderPool.freeList.head? ≠
          (MatchingEngine.new none).book.orderPool.freeList.head?) run.engine.reset)
        (runAll step (start none) repeatedOffers) := by
      decide +kernel
    obtain ⟨run, ran, later⟩ := returns.exists
    exact ⟨run, ran, later.exists⟩
  obtain ⟨other, same, _, _, alike⟩ := reset_indistinguishable ran none
  rw [reset] at same
  obtain rfl := Except.ok.inj same
  exact ⟨run, engine, ran, reset, alike, elsewhere⟩

end FluxTrade
