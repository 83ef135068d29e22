import FluxTrade.Matching.LookupComplete
import FluxTrade.Matching.Reports

/-!
# Pool slots

Orders and levels live in pools of fixed size. Between two calls, and also when a
submission has made its matches, the free slots of a pool and the slots linked
in the book are together exactly the slots of the pool. Nothing on the way to
`insert` tests for room: an order that comes to rest when all slots of a pool are
linked ends the process.
-/

namespace FluxTrade

open LinkedList Execution MatchingEngine List

/-! ## Free and linked slots -/

namespace LimitOrderBook

/-- The slots of the orders linked in the levels of both sides. -/
def linkedOrders (book : LimitOrderBook) : List Nat :=
  orderSlots (book.levelsOf .buy) ++ orderSlots (book.levelsOf .sell)

/-- The slots of the levels linked on both sides. -/
def linkedLevels (book : LimitOrderBook) : List Nat :=
  levelSlots (book.levelsOf .buy) ++ levelSlots (book.levelsOf .sell)

/-- Free and linked slots are together the slots of each pool, and a slot that a pool hands out is
not linked. The levels and queues that count as linked end where their links end. -/
structure SlotsCorrespond (book : LimitOrderBook) : Prop where
  levelChain : ∀ side, Path (fun slot => (book.level slot).next) (book.bestLevel side)
    (levelSlots (book.levelsOf side))
  orderChain : ∀ side, ∀ level ∈ book.levelsOf side, Path (fun slot => (book.order slot).next)
    (book.level level.slot).orders.head (queueSlots level.orders)
  freeOrders : book.orderPool.freeList.Nodup
  orders : (book.orderPool.freeList ++ book.linkedOrders).Perm (range 10240)
  newOrder : ∀ value slot pool, book.orderPool.allocate value = .ok (slot, pool) →
    slot ∉ book.linkedOrders
  freeLevels : book.levelPool.freeList.Nodup
  levels : (book.levelPool.freeList ++ book.linkedLevels).Perm (range 1024)
  newLevel : ∀ value slot pool, book.levelPool.allocate value = .ok (slot, pool) →
    slot ∉ book.linkedLevels

end LimitOrderBook

namespace ObjectPool.Accounts

variable {α : Type} {capacity : Nat} {pool pool' : ObjectPool α capacity} {used : List Nat}

/-- No slot is free twice. -/
theorem free_nodup (accounts : pool.Accounts used) : pool.freeList.Nodup :=
  (nodup_append.mp (accounts.nodup_iff.mpr nodup_range)).1

/-- An allocated slot was not in use. -/
theorem allocated (accounts : pool.Accounts used) {value : α} {slot : Nat}
    (allocated : pool.allocate value = .ok (slot, pool')) : slot ∉ used := by
  apply accounts.fresh
  rw [allocate_freeList allocated]
  exact mem_cons_self

end ObjectPool.Accounts

/-- A book accounts for its slots. -/
theorem BookRep.slotsCorrespond {book : LimitOrderBook} {view : BookView}
    (rep : BookRep book view) : book.SlotsCorrespond := by
  obtain rfl := rep.view_eq
  exact
    { levelChain := fun side => (rep.sides side).chain.forward
      orderChain := fun side level member =>
        ((rep.sides side).nodes level member).queue.links.forward
      freeOrders := rep.orderAccounts.free_nodup
      orders := rep.orderAccounts
      newOrder := fun _ _ _ allocated => rep.orderAccounts.allocated allocated
      freeLevels := rep.levelAccounts.free_nodup
      levels := rep.levelAccounts
      newLevel := fun _ _ _ allocated => rep.levelAccounts.allocated allocated }

namespace EngineRun

/-- The slots correspond, and they still do when a submission has made its matches and has not yet
settled its remainder. -/
def SlotsKept (run : EngineRun) : Prop :=
  run.engine.book.SlotsCorrespond ∧
    ∀ order ctx timestamp crossing,
      Crossing.cross canSelfTrade order timestamp levelCapacity
        (run.engine.beginSubmit order ctx timestamp) = .ok crossing →
      crossing.book.SlotsCorrespond

/-- So does a run. -/
theorem Invariant.slotsKept {run : EngineRun} (invariant : run.Invariant) : run.SlotsKept := by
  refine ⟨invariant.sane.rep.slotsCorrespond, fun order ctx timestamp crossing ran => ?_⟩
  obtain ⟨other, same, crossed, _⟩ := invariant.sane.cross order ctx timestamp
  rw [ran] at same
  cases same
  exact crossed.rep.slotsCorrespond

/-- In every run of calls, with whatever identifiers, the slots correspond after every call. -/
theorem slots_kept (listener : Option (List BookEvent)) (inputs : List EngineInput) :
    Throughout SlotsKept step (start listener) inputs :=
  Throughout.of_guarded (Invariant.start listener)
    (fun _ _ _ invariant _ taken => (invariant.step taken).1)
    (fun _ invariant => invariant.slotsKept)
    (Along.of_forall (fun _ _ => trivial) (start listener) inputs)

end EngineRun

/-! ## Exhaustion -/

section Submission

variable {engine : MatchingEngine} {view : BookView} {order : Order}

/-- A remainder that rests is inserted. -/
theorem Crossing.settle_rests {crossing : Crossing} (isLimit : order.type = .limit)
    (left : crossing.remaining ≠ 0) (timestamp : UInt64) :
    crossing.settle order timestamp =
      (crossing.book.insert order order.seqNum).map fun placed =>
        ({ crossing with book := placed.2 },
          if crossing.remaining = order.qty then .success else .partiallyFilled) := by
  rw [Crossing.settle, if_neg left]
  simp only [isLimit]
  cases crossing.book.insert order order.seqNum <;> rfl

/-- A submission ends the process if its remainder rests and finds no room beside what its matches
have left. -/
theorem submitOrder_full (sane : Sane engine.book view) (isLimit : order.type = .limit)
    (left : openAfter order view ≠ 0)
    (full : ¬(contentsOf (sweptView order view)).HasRoom order.side order.price)
    (ctx : ExecutionContext) (clock : ClockReadings) :
    engine.submitOrder order ctx clock = .error .badAlloc := by
  obtain ⟨crossing, ran, crossed, remaining⟩ := sane.cross order ctx clock.now
  have failed := crossed.rep.insert_of_full order.seqNum full
  simp only [submitOrder, submitOrderWith, ran, bind, Except.bind,
    Crossing.settle_rests isLimit (remaining ▸ left), failed, Except.map]

/-- A submission whose remainder finds room returns. -/
theorem submitOrder_of_room (sane : Sane engine.book view)
    (room : order.type = .limit ∧ openAfter order view ≠ 0 →
      (contentsOf (sweptView order view)).HasRoom order.side order.price)
    (ctx : ExecutionContext) (clock : ClockReadings) :
    ∃ submission, engine.submitOrder order ctx clock = .ok submission := by
  rcases submitOrder_spec sane order ctx clock with ⟨submission, _, submitted, _⟩ |
    ⟨failed, isLimit, left, _⟩
  · exact ⟨submission, submitted⟩
  · obtain ⟨crossing, ran, crossed, remaining⟩ := sane.cross order ctx clock.now
    obtain ⟨slot, node, book, inserted, _⟩ :=
      crossed.rep.insert_of_room order.seqNum (room ⟨isLimit, left⟩)
    simp [submitOrder, submitOrderWith, ran, bind, Except.bind,
      Crossing.settle_rests isLimit (remaining ▸ left), inserted, Except.map] at failed

end Submission

namespace EngineRun

/-- A submitted order that comes to rest finds a free order and, for a price without a level, a
free level beside what its matches leave in the book. -/
def FindsRoom (run : EngineRun) (input : EngineInput) : Prop :=
  match input.call with
  | .submit order =>
    order.type = .limit ∧ openAfter order run.engine.book.levelsOf ≠ 0 →
      (contentsOf (sweptView order run.engine.book.levelsOf)).HasRoom order.side order.price
  | _ => True

variable {run : EngineRun}

/-- A submission returns if it finds room, and otherwise ends the process in `allocate`. -/
theorem Invariant.submits_decided (invariant : run.Invariant) (order : Order)
    (ctx : ExecutionContext) (clock : ClockReadings) :
    (∃ submission, run.engine.submitOrder order ctx clock = .ok submission) ∧
        run.FindsRoom ⟨.submit order, ctx, clock⟩ ∨
      run.engine.submitOrder order ctx clock = .error .badAlloc ∧
        ¬run.FindsRoom ⟨.submit order, ctx, clock⟩ := by
  by_cases room : run.FindsRoom ⟨.submit order, ctx, clock⟩
  · exact .inl ⟨submitOrder_of_room invariant.sane room ctx clock, room⟩
  · have crowded := room
    simp only [FindsRoom, Classical.not_imp] at crowded
    obtain ⟨⟨isLimit, left⟩, full⟩ := crowded
    exact .inr ⟨submitOrder_full invariant.sane isLimit left full ctx clock, room⟩

/-- A call returns exactly if it finds room, and otherwise ends the process in `allocate`. -/
theorem Invariant.step_decided (invariant : run.Invariant) (input : EngineInput) :
    (∃ next, run.step input = .ok next) ∧ run.FindsRoom input ∨
      run.step input = .error .badAlloc ∧ ¬run.FindsRoom input := by
  obtain ⟨call, ctx, clock⟩ := input
  cases call with
  | submit order =>
    simp only [EngineRun.step]
    rcases invariant.submits_decided order ctx clock with ⟨⟨_, submitted⟩, room⟩ | ⟨failed, full⟩
    · rw [submitted]
      exact .inl ⟨⟨_, rfl⟩, room⟩
    · rw [failed]
      exact .inr ⟨rfl, full⟩
  | cancel orderId clientId accountId symbolId =>
    obtain ⟨_, _, cancelled, _⟩ :=
      cancelOrder_spec invariant.sane orderId clientId accountId symbolId ctx clock
    simp only [EngineRun.step, cancelled]
    exact Or.inl ⟨⟨_, rfl⟩, trivial⟩
  | modify orderId newQty =>
    obtain ⟨_, _, modified, _⟩ := modifyOrder_spec invariant.sane orderId newQty clock
    simp only [EngineRun.step, modified]
    exact Or.inl ⟨⟨_, rfl⟩, trivial⟩
  | reset =>
    obtain ⟨_, cleared, _⟩ := reset_spec invariant.sane
    simp only [EngineRun.step, cleared]
    exact Or.inl ⟨⟨_, rfl⟩, trivial⟩

/-- A run reaches `allocate` with an empty free list exactly if an order that comes to rest finds
no room, and in no other way does it fail to return. -/
theorem run_exhausts_iff (listener : Option (List BookEvent)) (inputs : List EngineInput) :
    (runAll step (start listener) inputs ≠ .error .badAlloc ↔
      Along FindsRoom step (start listener) inputs) ∧
    ((∃ run, runAll step (start listener) inputs = .ok run) ∨
      runAll step (start listener) inputs = .error .badAlloc) := by
  rcases runAll_decided inputs (Invariant.start listener)
    (fun _ _ _ invariant taken => (invariant.step taken).1)
    (fun _ input invariant => (invariant.step_decided input).imp_right
      fun failure => ⟨⟨_, failure.1, Eq.refl Fault.badAlloc⟩, failure.2⟩) with
    ⟨⟨run, ran⟩, along⟩ | ⟨⟨_, failed, rfl⟩, missed⟩
  · rw [ran]
    refine ⟨⟨fun _ => along, fun _ same => ?_⟩, Or.inl ⟨run, rfl⟩⟩
    cases same
  · rw [failed]
    exact ⟨⟨fun differs => absurd rfl differs, fun along => absurd along missed⟩, Or.inr rfl⟩

end EngineRun

/-! ## A ladder of bids -/

/-- Bids with different identifiers, each at a lower price than the ones before, one more than the
level pool has slots. -/
structure Ladder (order : Nat → Order) : Prop where
  bids : ∀ rung, (order rung).side = .buy
  falling : ∀ high low, high < low → low ≤ levelCapacity →
    Side.buy.Better (order high).price (order low).price
  ids : ∀ high low, high < low → low ≤ levelCapacity →
    (order high).orderId ≠ (order low).orderId

namespace Ladder

variable {order : Nat → Order} {book : LimitOrderBook} {count : Nat}

/-- One bid, as it rests. -/
def entry (order : Nat → Order) (rung : Nat) : OrderContents :=
  ⟨⟨(order rung).symbolId, (order rung).orderId⟩, (order rung).qty, (order rung).seqNum⟩

/-- The contents after the first bids. -/
def contents (order : Nat → Order) (count : Nat) : BookContents
  | .buy => (range count).map fun rung => ⟨(order rung).price, [entry order rung]⟩
  | .sell => []

/-- The rungs are held. -/
theorem held_contents (order : Nat → Order) (count : Nat) :
    (contents order count).held = (range count).map (entry order) := by
  rw [BookContents.held, contents, contents, heldOrders_nil, append_nil, heldOrders,
    flatMap_map, map_eq_flatMap]

/-- Each rung has a level. -/
theorem levelCount_contents (order : Nat → Order) (count : Nat) :
    (contents order count).levelCount = count := by
  rw [BookContents.levelCount, contents, contents, length_map, length_range,
    length_nil, Nat.add_zero]

/-- The next bid makes the last level. -/
theorem insert_contents (ladder : Ladder order) (inside : count ≤ levelCapacity) :
    (contents order count).insert .buy (order count).price (entry order count) =
      contents order (count + 1) := by
  have better (level : LevelContents) (member : level ∈ contents order count .buy) :
      Side.buy.Better level.price (order count).price := by
    obtain ⟨rung, early, rfl⟩ := mem_map.mp member
    exact ladder.falling rung count (mem_range.mp early) inside
  have placed := @BookContents.place_last .buy (order count).price (entry order count)
    (contents order count .buy) [] better
  rw [if_pos rfl, append_nil] at placed
  funext side
  cases side with
  | buy =>
    rw [BookContents.insert, Function.update_self, placed, contents, contents, range_succ,
      map_append]
    rfl
  | sell => rfl

/-- A book that has taken the first bids. -/
structure Rests (order : Nat → Order) (count : Nat) (book : LimitOrderBook) : Prop where
  consistent : Consistent book
  contents : book.contents = Ladder.contents order count

/-- No rung rests. -/
theorem Rests.new (order : Nat → Order) (listener : Option (List BookEvent)) :
    Rests order 0 (LimitOrderBook.new listener) where
  consistent := Consistent.new listener
  contents := by
    funext side
    cases side <;> rfl

/-- The next rung is new. -/
theorem Rests.fresh (ladder : Ladder order) (rests : Rests order count book)
    (inside : count ≤ levelCapacity) : (order count).orderId ∉ book.contents.ids := by
  rw [rests.contents, BookContents.ids, held_contents, map_map]
  intro member
  obtain ⟨rung, early, same⟩ := mem_map.mp member
  exact ladder.ids rung count (mem_range.mp early) inside same

/-- The next bid is taken while a level is free. -/
theorem Rests.next (ladder : Ladder order) (rests : Rests order count book)
    (inside : count < levelCapacity) :
    ∃ slot book', book.insert (order count) (order count).seqNum = .ok (slot, book') ∧
      Rests order (count + 1) book' := by
  have few : levelCapacity ≤ orderCapacity := by decide
  have room : book.contents.HasRoom (order count).side (order count).price := by
    refine ⟨?_, Or.inl ?_⟩
    · rw [rests.contents, held_contents, length_map, length_range]
      omega
    · rw [rests.contents, levelCount_contents]
      exact inside
  obtain ⟨slot, book', inserted, consistent, contents⟩ :=
    rests.consistent.insert_of_room (order count).seqNum room (rests.fresh ladder inside.le)
  refine ⟨slot, book', inserted, consistent, ?_⟩
  rw [contents, rests.contents, ladder.bids]
  exact ladder.insert_contents inside.le

/-- Both pools have free slots while a level is free. -/
theorem Rests.hasRoom (rests : Rests order count book) (inside : count < levelCapacity) :
    book.HasRoom := by
  have few : levelCapacity ≤ orderCapacity := by decide
  obtain ⟨orders, levels⟩ := rests.consistent.free_lengths
  rw [rests.contents, held_contents, length_map, length_range] at orders
  rw [rests.contents, levelCount_contents] at levels
  constructor
  · apply ne_nil_of_length_pos
    omega
  · apply ne_nil_of_length_pos
    omega

/-- The bid for one level more than there are is refused. -/
theorem Rests.full (ladder : Ladder order) (rests : Rests order levelCapacity book) :
    ¬book.contents.HasRoom .buy (order levelCapacity).price := by
  rw [rests.contents]
  rintro ⟨_, free | ⟨level, member, same⟩⟩
  · rw [levelCount_contents] at free
    exact Nat.lt_irrefl _ free
  · obtain ⟨rung, early, rfl⟩ := mem_map.mp member
    have better := ladder.falling rung levelCapacity (mem_range.mp early) (Nat.le_refl _)
    have same : (order rung).price = (order levelCapacity).price := same
    rw [same] at better
    exact Side.Better.irrefl better

/-- Nothing is offered to the bids. -/
theorem Rests.idle (ladder : Ladder order) (rests : Rests order count book) :
    ¬(order count).Meets book := by
  have asks : book.levelsOf .sell = [] := by
    have empty : book.contents .sell = [] := congrFun rests.contents .sell
    exact map_eq_nil_iff.mp empty
  have chain := (rests.consistent.rep.sides .sell).chain.forward
  rw [asks] at chain
  rintro ⟨_, level, best, _⟩
  rw [ladder.bids] at best
  have none' : book.bestLevel .sell = none := chain
  rw [Side.opposite, none'] at best
  cases best

section Submissions

variable {run : EngineRun} (ladder : Ladder order) (limits : ∀ rung, (order rung).type = .limit)
  (some' : ∀ rung, (order rung).qty ≠ 0)

include ladder limits some'

/-- Submitting a bid inserts it. -/
theorem Rests.inserted {next : EngineRun} (rests : Rests order count run.engine.book)
    (taken : run.step (submitInput (order count)) = .ok next) :
    ∃ slot, run.engine.book.insert (order count) (order count).seqNum =
      .ok (slot, next.engine.book) := by
  simp only [EngineRun.step, submitInput] at taken
  split at taken
  · rename_i submission submitted
    cases taken
    exact (submitOrder_idle (rests.idle ladder) submitted).2.1 (limits count) (some' count)
  · cases taken

/-- The bids are submitted one after the other while levels are free. -/
theorem submit_all (listener : Option (List BookEvent)) (inside : count ≤ levelCapacity) :
    ∃ run, runAll EngineRun.step (EngineRun.start listener)
        ((range count).map fun rung => submitInput (order rung)) = .ok run ∧
      run.Invariant ∧ Rests order count run.engine.book := by
  induction count with
  | zero => exact ⟨_, rfl, .start listener, .new order listener⟩
  | succ count ih =>
    obtain ⟨run, ran, invariant, rests⟩ := ih (by omega)
    obtain ⟨slot, book, placed, rests'⟩ := rests.next ladder inside
    rcases invariant.moves (submitInput (order count)) with ⟨next, taken, _⟩ | ⟨_, full⟩
    · obtain ⟨_, same⟩ := rests.inserted ladder limits some' taken
      rw [placed] at same
      cases same
      refine ⟨next, ?_, (invariant.step taken).1, rests'⟩
      rw [range_succ, map_append, runAll_append, ran]
      simp only [map_cons, map_nil, runAll, taken]
    · exact absurd (rests.hasRoom inside) full

/-- The bid for one level more than there are ends the process. -/
theorem submit_exhausts (listener : Option (List BookEvent)) :
    runAll EngineRun.step (EngineRun.start listener)
      ((range (levelCapacity + 1)).map fun rung => submitInput (order rung)) =
        .error .badAlloc := by
  obtain ⟨run, ran, invariant, rests⟩ := submit_all ladder limits some' listener (Nat.le_refl _)
  rw [range_succ, map_append, runAll_append, ran]
  simp only [map_cons, map_nil, runAll]
  rcases invariant.step_decided (submitInput (order levelCapacity)) with
    ⟨⟨next, taken⟩, _⟩ | ⟨failed, _⟩
  · obtain ⟨_, placed⟩ := rests.inserted ladder limits some' taken
    have full := rests.full ladder
    rw [← ladder.bids levelCapacity] at full
    rw [rests.consistent.insert_of_full _ full] at placed
    cases placed
  · rw [failed]

end Submissions

end Ladder

/-- Bids for one unit each, the first at 2000 ticks. -/
def ladderOrder (rung : Nat) : Order :=
  limitOrder (UInt64.ofNat (rung + 1)) .buy (Int64.ofNat (2000 - rung)) 1

/-- The sample is a ladder. -/
theorem ladderOrder_ladder : Ladder ladderOrder where
  bids := fun _ => rfl
  falling := by
    intro high low later inside
    have bound : levelCapacity = 1024 := rfl
    change Int64.ofNat (2000 - low) < Int64.ofNat (2000 - high)
    rw [Int64.lt_iff_toInt_lt, Int64.toInt_ofNat_of_lt (by omega),
      Int64.toInt_ofNat_of_lt (by omega)]
    omega
  ids := by
    intro high low later inside same
    have bound : levelCapacity = 1024 := rfl
    have numbers : (high + 1) % 2 ^ 64 = (low + 1) % 2 ^ 64 := congrArg UInt64.toNat same
    omega

/-- The 1025th of these bids ends the process. -/
theorem ladder_exhausts :
    runAll EngineRun.step (EngineRun.start none)
      ((range 1025).map fun rung => submitInput (ladderOrder rung)) = .error .badAlloc :=
  ladderOrder_ladder.submit_exhausts (fun _ => rfl) (fun _ => (by decide : (1 : Quantity) ≠ 0)) none

end FluxTrade
