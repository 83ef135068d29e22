import FluxTrade.Library.Execution
import FluxTrade.Matching.EngineCalls

/-!
# Runs of the engine

A run feeds an engine with calls and remembers the orders submitted and the
matches made. In every run that never submits an identifier that is resting,
the book invariant holds after every call, every call made inside it meets its
assertions, and each submission trades as the greedy reference does.
-/

namespace FluxTrade

open LinkedList Execution

/-- The calls of a `MatchingEngine`. -/
inductive EngineCall where
  | submit (order : Order)
  | cancel (orderId : OrderId) (clientId : ClientId) (accountId : AccountId) (symbolId : SymbolId)
  | modify (orderId : OrderId) (newQty : Quantity)
  | reset
  deriving DecidableEq

/-- A call with the context it is given and the clock it reads. -/
structure EngineInput where
  call : EngineCall
  ctx : ExecutionContext
  clock : ClockReadings
  deriving DecidableEq

/-- An engine with the history of its run. -/
structure EngineRun where
  engine : MatchingEngine
  /-- Orders submitted, the first one first. -/
  submitted : List Order
  /-- Matches with their aggressive orders, the first one first. -/
  matched : List (Order × MatchCall)

namespace EngineRun

/-- A run that starts with a new engine. -/
def start (listener : Option (List BookEvent)) : EngineRun :=
  ⟨MatchingEngine.new listener, [], []⟩

/-- One call. -/
def step (run : EngineRun) (input : EngineInput) : Except Fault EngineRun :=
  match input.call with
  | .submit order =>
    match run.engine.submitOrder order input.ctx input.clock with
    | .ok submission =>
      .ok ⟨submission.engine, run.submitted ++ [order],
        run.matched ++ submission.calls.map fun call => (order, call)⟩
    | .error fault => .error fault
  | .cancel orderId clientId accountId symbolId =>
    match run.engine.cancelOrder orderId clientId accountId symbolId input.ctx input.clock with
    | .ok (_, engine, _) => .ok { run with engine }
    | .error fault => .error fault
  | .modify orderId newQty =>
    match run.engine.modifyOrder orderId newQty input.clock with
    | .ok (_, engine) => .ok { run with engine }
    | .error fault => .error fault
  | .reset =>
    match run.engine.reset with
    | .ok engine => .ok { run with engine }
    | .error fault => .error fault

end EngineRun

/-- The identifier rests in the book. -/
def LimitOrderBook.Resting (book : LimitOrderBook) (orderId : OrderId) : Prop :=
  ∃ entry ∈ restingOrders (book.levelsOf .buy) ++ restingOrders (book.levelsOf .sell),
    entry.key.orderId = orderId
  deriving Decidable

/-- A submitted identifier is not resting. -/
def FreshId (run : EngineRun) (input : EngineInput) : Prop :=
  match input.call with
  | .submit order => ¬run.engine.book.Resting order.orderId
  | _ => True

instance (run : EngineRun) (input : EngineInput) : Decidable (FreshId run input) := by
  obtain ⟨_ | _ | _ | _, _, _⟩ := input <;> dsimp only [FreshId] <;> infer_instance

/-- The book invariant: links, order and index of the levels, their totals, the lookup, and the
order between the sides. -/
structure BookInvariant (book : LimitOrderBook) : Prop where
  linked : ∀ side, Path (fun slot => (book.level slot).next) (book.bestLevel side)
    (levelSlots (book.levelsOf side))
  queued : ∀ side, ∀ level ∈ book.levelsOf side, Path (fun slot => (book.order slot).next)
    (book.level level.slot).orders.head (queueSlots level.orders)
  sorted : ∀ side, Sorted side (book.levelsOf side)
  indexed : ∀ side price slot, (book.sides side).findLevel price = some slot ↔
    ∃ level ∈ book.levelsOf side, level.price = price ∧ level.slot = slot
  nonempty : ∀ side, ∀ level ∈ book.levelsOf side, level.orders ≠ []
  total : ∀ side, ∀ level ∈ book.levelsOf side,
    (book.level level.slot).totalQty = openQty level.orders
  count : ∀ side, ∀ level ∈ book.levelsOf side,
    (book.level level.slot).orderCount.toNat = level.orders.length
  lookup : ∀ orderId slot, book.findOrder orderId = some slot ↔
    ∃ side, Links (book.levelsOf side) orderId slot
  distinct : ((restingOrders (book.levelsOf .buy) ++ restingOrders (book.levelsOf .sell)).map
    OrderView.slot).Nodup
  uncrossed : ∀ bid ∈ book.levelsOf .buy, ∀ ask ∈ book.levelsOf .sell, bid.price < ask.price
  located : ∀ orderId slot, book.findOrder orderId = some slot → ∃ side level,
    book.locate (book.order slot).price = some (side, level) ∧
      slot ∈ queueSlots (book.queueOf level)

/-! ## The invariant of a run -/

/-- The levels read from the book are the ones it represents. -/
theorem Sane.view_eq {book : LimitOrderBook} {view : BookView} (sane : Sane book view) :
    view = book.levelsOf :=
  sane.rep.view_eq

/-- No two resting orders share a slot. -/
theorem Sane.slots_nodup {book : LimitOrderBook} (sane : Sane book book.levelsOf) :
    ((restingBoth book.levelsOf).map OrderView.slot).Nodup := by
  have nodup := sane.rep.orderAccounts.nodup
  rw [restingBoth, List.map_append]
  simpa only [orderSlots, restingOrders, List.map_flatMap] using nodup

/-- What a call can do to a run. -/
inductive EngineRun.Moved (run : EngineRun) : EngineInput → EngineRun → Prop where
  | submit {order : Order} {ctx : ExecutionContext} {clock : ClockReadings}
      {submission : Submission}
      (outcome : Submitted run.engine order ctx clock run.engine.book.levelsOf submission
        submission.engine.book.levelsOf) :
      Moved run ⟨.submit order, ctx, clock⟩ ⟨submission.engine, run.submitted ++ [order],
        run.matched ++ submission.calls.map fun call => (order, call)⟩
  | cancel {orderId : OrderId} {clientId : ClientId} {accountId : AccountId} {symbolId : SymbolId}
      {ctx : ExecutionContext} {clock : ClockReadings} {engine : MatchingEngine}
      (sane : Sane engine.book engine.book.levelsOf)
      (views : CancelView (run.engine.book.findOrder orderId) run.engine.book.levelsOf
        engine.book.levelsOf)
      (complete : Complete run.engine.book run.engine.book.levelsOf →
        Complete engine.book engine.book.levelsOf) :
      Moved run ⟨.cancel orderId clientId accountId symbolId, ctx, clock⟩ { run with engine }
  | modify {orderId : OrderId} {newQty : Quantity} {ctx : ExecutionContext} {clock : ClockReadings}
      {engine : MatchingEngine} (sane : Sane engine.book engine.book.levelsOf)
      (views : ModifyView orderId newQty clock.now run.engine.book.levelsOf engine.book.levelsOf)
      (complete : Complete run.engine.book run.engine.book.levelsOf →
        Complete engine.book engine.book.levelsOf) :
      Moved run ⟨.modify orderId newQty, ctx, clock⟩ { run with engine }
  | reset {ctx : ExecutionContext} {clock : ClockReadings} {engine : MatchingEngine}
      (sane : Sane engine.book fun _ => []) (complete : Complete engine.book fun _ => []) :
      Moved run ⟨.reset, ctx, clock⟩ { run with engine }

/-- What holds of a run between two calls, whatever identifiers it submits. -/
structure EngineRun.Invariant (run : EngineRun) : Prop where
  sane : Sane run.engine.book run.engine.book.levelsOf
  sound : ∀ entry ∈ run.matched, entry.2.Sound

/-- Every resting order is found under its identifier. -/
def EngineRun.Indexed (run : EngineRun) : Prop :=
  Complete run.engine.book run.engine.book.levelsOf

namespace EngineRun.Invariant

variable {run next : EngineRun} {input : EngineInput}
variable {orderId : OrderId} {ctx : ExecutionContext} {clock : ClockReadings}

/-- A represented book makes an invariant. -/
theorem of_view {view : BookView} (sane : Sane run.engine.book view)
    (sound : ∀ entry ∈ run.matched, entry.2.Sound) : run.Invariant := by
  obtain rfl := sane.view_eq
  exact ⟨sane, sound⟩

/-- A new engine. -/
theorem start (listener : Option (List BookEvent)) : (EngineRun.start listener).Invariant :=
  of_view (Sane.new listener) (fun _ member => by cases member)

section

variable (invariant : run.Invariant)
include invariant

/-- An identifier that does not rest is unknown to the lookup. -/
theorem findOrder_eq_none (fresh : ¬run.engine.book.Resting orderId) :
    run.engine.book.findOrder orderId = none := by
  cases found : run.engine.book.findOrder orderId with
  | none => rfl
  | some slot =>
    exfalso
    apply fresh
    obtain ⟨side, level, member, entry, queued, _, isId⟩ :=
      invariant.sane.rep.lookup orderId slot found
    exact ⟨entry, mem_restingBoth.mpr ⟨side, level, member, queued⟩, isId⟩

/-- What a submission that returns has done. -/
theorem submitted {order : Order} {submission : Submission}
    (submits : run.engine.submitOrder order ctx clock = .ok submission) :
    Submitted run.engine order ctx clock run.engine.book.levelsOf submission
      submission.engine.book.levelsOf := by
  rcases submitOrder_spec invariant.sane order ctx clock with
    ⟨other, view', submitted, outcome⟩ | ⟨failed, _⟩
  · rw [submits] at submitted
    cases submitted
    obtain rfl := outcome.sane.view_eq
    exact outcome
  · rw [submits] at failed
    cases failed

/-- A call has one of its listed effects, unless a pool is exhausted. -/
theorem moves (input : EngineInput) :
    (∃ next, run.step input = .ok next ∧ run.Moved input next) ∨
      run.step input = .error .badAlloc ∧ ¬run.engine.book.HasRoom := by
  obtain ⟨call, ctx, clock⟩ := input
  cases call with
  | submit order =>
    simp only [EngineRun.step]
    rcases submitOrder_spec invariant.sane order ctx clock with
      ⟨submission, view', submitted, outcome⟩ | ⟨failed, _, _, full⟩
    · rw [submitted]
      obtain rfl := outcome.sane.view_eq
      exact Or.inl ⟨_, rfl, .submit outcome⟩
    · rw [failed]
      exact Or.inr ⟨rfl, full⟩
  | cancel orderId clientId accountId symbolId =>
    obtain ⟨engine, view', cancelled, sane, views, complete⟩ :=
      cancelOrder_spec invariant.sane orderId clientId accountId symbolId ctx clock
    obtain rfl := sane.view_eq
    simp only [EngineRun.step, cancelled]
    exact Or.inl ⟨_, rfl, .cancel sane views complete⟩
  | modify orderId newQty =>
    obtain ⟨engine, view', modified, sane, views, complete⟩ :=
      modifyOrder_spec invariant.sane orderId newQty clock
    obtain rfl := sane.view_eq
    simp only [EngineRun.step, modified]
    exact Or.inl ⟨_, rfl, .modify sane views complete⟩
  | reset =>
    obtain ⟨engine, cleared, sane, complete⟩ := reset_spec invariant.sane
    simp only [EngineRun.step, cleared]
    exact Or.inl ⟨_, rfl, .reset sane complete⟩

/-- A call that returns has one of its listed effects. -/
theorem moved (taken : run.step input = .ok next) :
    run.Moved input next := by
  rcases invariant.moves input with ⟨other, same, moved⟩ | ⟨failed, _⟩
  · rw [taken] at same
    cases same
    exact moved
  · rw [taken] at failed
    cases failed

/-- A modification finds no order and leaves the book alone, or rewrites the queue of the order it
finds. -/
theorem modified {newQty : Quantity}
    (taken : run.step ⟨.modify orderId newQty, ctx, clock⟩ = .ok next) :
    next.matched = run.matched ∧
      ((run.engine.book.findOrder orderId = none ∧ next.engine.book = run.engine.book) ∨
        ∃ side front level back ahead entry behind,
          run.engine.book.levelsOf side = front ++ level :: back ∧
          level.orders = ahead ++ entry :: behind ∧
          run.engine.book.findOrder orderId = some entry.slot ∧
          next.engine.book.levelsOf = Function.update run.engine.book.levelsOf side
            (front ++ { level with orders := amended ahead behind entry newQty clock.now } ::
              back)) := by
  simp only [EngineRun.step, MatchingEngine.modifyOrder] at taken
  cases found : run.engine.book.findOrder orderId with
  | none =>
    rw [BookRep.modifyQty_unknown found] at taken
    cases taken
    exact ⟨rfl, .inl ⟨rfl, rfl⟩⟩
  | some slot =>
    obtain ⟨side, front, level, back, ahead, entry, behind, split, queued, rfl, rfl⟩ :=
      invariant.sane.rep.exists_split found
    have located := invariant.sane.rep.locate_split invariant.sane.uncrossed.noOverlap split
    obtain ⟨book', modified, rep, _⟩ :=
      invariant.sane.rep.modifyQty located split queued found newQty clock.now
    rw [modified] at taken
    cases taken
    exact ⟨rfl, .inr ⟨side, front, level, back, ahead, entry, behind, split, queued, rfl,
      rep.view_eq.symm⟩⟩

/-- A successful call keeps the invariant, and a fresh identifier keeps the lookup complete. -/
theorem step (taken : run.step input = .ok next) :
    next.Invariant ∧ (run.Indexed → FreshId run input → next.Indexed) := by
  cases invariant.moved taken with
  | submit outcome =>
    refine ⟨⟨outcome.sane, ?_⟩, ?_⟩
    · intro entry member
      rcases List.mem_append.mp member with old | new
      · exact invariant.sound entry old
      · obtain ⟨call, made, rfl⟩ := List.mem_map.mp new
        obtain ⟨crossing, extend, _⟩ := outcome.crossed
        exact extend.sound call made
    · exact fun indexed fresh => outcome.complete indexed (invariant.findOrder_eq_none fresh)
  | cancel sane _ complete => exact ⟨⟨sane, invariant.sound⟩, fun indexed _ => complete indexed⟩
  | modify sane _ complete => exact ⟨⟨sane, invariant.sound⟩, fun indexed _ => complete indexed⟩
  | reset sane complete =>
    have empty := sane.view_eq
    refine ⟨of_view sane invariant.sound, fun _ _ => ?_⟩
    rw [empty] at complete
    exact complete

end

variable {listener : Option (List BookEvent)} {inputs : List EngineInput}

/-- The invariant holds after every run. -/
theorem of_run (ran : runAll EngineRun.step (EngineRun.start listener) inputs = .ok run) :
    run.Invariant :=
  runAll_invariant (start listener) (fun _ _ _ kept taken => (kept.step taken).1) ran

/-- The lookup is complete after every run without resubmitted resting identifiers. -/
theorem indexed_of_run
    (fresh : Along FreshId EngineRun.step (EngineRun.start listener) inputs)
    (ran : runAll EngineRun.step (EngineRun.start listener) inputs = .ok run) : run.Indexed := by
  have both : run.Invariant ∧ run.Indexed := by
    refine runAll_induction (motive := fun run => run.Invariant ∧ run.Indexed) ?_ ?_ fresh ran
    · exact ⟨start listener, fun _ _ member => by cases member⟩
    · intro state input next kept here taken
      obtain ⟨invariant, indexed⟩ := kept.1.step taken
      exact ⟨invariant, indexed kept.2 here⟩
  exact both.2

end EngineRun.Invariant

/-- A sane book with a complete lookup meets the book invariant. -/
theorem BookInvariant.of_sane {book : LimitOrderBook} (sane : Sane book book.levelsOf)
    (complete : Complete book book.levelsOf) : BookInvariant book where
  linked := fun side => (sane.rep.sides side).chain.forward
  queued := fun side level member =>
    ((sane.rep.sides side).nodes level member).queue.links.forward
  sorted := fun side => (sane.rep.sides side).sorted
  indexed := fun side => (sane.rep.sides side).index
  nonempty := sane.proper
  total := fun side level member => ((sane.rep.sides side).nodes level member).total
  count := by
    intro side level member
    have bound := sane.rep.queue_length_le member
    have small : orderCapacity < 2 ^ 32 := by decide
    have count := ((sane.rep.sides side).nodes level member).count
    rw [LimitOrderBook.level, count, UInt32.toNat_ofNat']
    exact Nat.mod_eq_of_lt (by omega)
  lookup := by
    intro orderId slot
    constructor
    · exact sane.rep.lookup orderId slot
    · rintro ⟨side, level, member, entry, queued, rfl, rfl⟩
      exact complete side level member entry queued
  distinct := sane.slots_nodup
  uncrossed := sane.uncrossed
  located := by
    intro orderId slot found
    obtain ⟨side, level, member, entry, queued, rfl, rfl⟩ := sane.rep.lookup orderId slot found
    have priced := ((sane.rep.sides side).nodes level member).queue.priced entry queued
    refine ⟨side, level.slot, ?_, ?_⟩
    · rw [LimitOrderBook.order, priced]
      exact sane.rep.locate_eq sane.uncrossed.noOverlap member
    · rw [sane.rep.queueOf_eq member]
      exact List.mem_map_of_mem queued

/-- After every call of a run without resubmitted resting identifiers the book invariant holds, and
every fill made so far met its assertions. The next such call returns, unless a pool is
exhausted. -/
theorem run_bookInvariant {listener : Option (List BookEvent)} {inputs : List EngineInput}
    {run : EngineRun}
    (fresh : Along FreshId EngineRun.step (EngineRun.start listener) inputs)
    (ran : runAll EngineRun.step (EngineRun.start listener) inputs = .ok run) :
    BookInvariant run.engine.book ∧ (∀ entry ∈ run.matched, entry.2.Sound) ∧
      ∀ input, FreshId run input → (∃ next, run.step input = .ok next) ∨
        run.step input = .error .badAlloc ∧ ¬run.engine.book.HasRoom := by
  have invariant := EngineRun.Invariant.of_run ran
  have indexed := EngineRun.Invariant.indexed_of_run fresh ran
  refine ⟨BookInvariant.of_sane invariant.sane indexed, invariant.sound, ?_⟩
  intro input _
  rcases invariant.moves input with ⟨next, taken, _⟩ | failed
  · exact Or.inl ⟨next, taken⟩
  · exact Or.inr failed

/-- A limit order with the given identifier, side, price and quantity. -/
def limitOrder (orderId : OrderId) (side : Side) (price : Price) (qty : Quantity) : Order where
  orderId
  price
  qty
  seqNum := orderId
  clientTimestamp := 0
  exchangeTimestamp := 0
  clientId := 1
  accountId := 1
  symbolId := 1
  side
  type := .limit
  tif := .gtc

/-- A submission with an empty context. -/
def submitInput (order : Order) : EngineInput := ⟨.submit order, .empty, ⟨0, 0, 0⟩⟩

/-- A resting sell order, partially filled by a buy order. -/
theorem run_bookInvariant_partialFill :
    ∃ run, runAll EngineRun.step (EngineRun.start none)
        [submitInput (limitOrder 1 .sell 100 5), submitInput (limitOrder 2 .buy 100 3)] =
          .ok run ∧
      BookInvariant run.engine.book := by
  have returns : Returns (fun _ => True) (runAll EngineRun.step (EngineRun.start none)
      [submitInput (limitOrder 1 .sell 100 5), submitInput (limitOrder 2 .buy 100 3)]) := by
    decide +kernel
  obtain ⟨run, ran, _⟩ := returns.exists
  exact ⟨run, ran, (run_bookInvariant (by decide +kernel) ran).1⟩

end FluxTrade
