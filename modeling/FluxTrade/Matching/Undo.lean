import FluxTrade.Matching.BookContents
import FluxTrade.Matching.Reports

/-!
# Cancelling undoes a submission

The view of a book determines every linked node, the best levels and the price
indices. An order that does not cross is only inserted, and cancelling it leads
back to the view before. The slots it used return to the tops of their free
lists.
-/

namespace FluxTrade

open Execution LinkedList MatchingEngine

/-- The same book again. Storage that no level or queue links to may differ. -/
structure LimitOrderBook.Restored (before after : LimitOrderBook) : Prop where
  levelsOf : after.levelsOf = before.levelsOf
  sides : after.sides = before.sides
  lookup : after.lookup = before.lookup
  levels : ∀ side, ∀ level ∈ before.levelsOf side, after.level level.slot = before.level level.slot
  orders : ∀ side, ∀ level ∈ before.levelsOf side, ∀ entry ∈ level.orders,
    after.order entry.slot = before.order entry.slot
  freeLevels : after.levelPool.freeList = before.levelPool.freeList
  freeOrders : after.orderPool.freeList = before.orderPool.freeList

/-! ## What a view determines -/

attribute [ext] SideBook IntrusiveOrderList PriceLevelNode LiveOrder

namespace BookRep

variable {book book' : LimitOrderBook} {view : BookView} {side : Side} {level : LevelView}
  {entry : OrderView}

variable (rep : BookRep book view) (rep' : BookRep book' view)
include rep rep'

/-- The sides are kept. -/
theorem sides_eq :
    book'.sides = book.sides := by
  funext side
  have here := rep.sides side
  have there := rep'.sides side
  have best := there.bestLevel_eq.trans here.bestLevel_eq.symm
  have index : (book'.sides side).index = (book.sides side).index := by
    refine Finmap.ext_lookup fun price => Option.ext fun slot => ?_
    exact (there.index price slot).trans (here.index price slot).symm
  exact SideBook.ext best index

/-- The levels are kept. -/
theorem level_eq (listed : level ∈ view side) : book'.level level.slot = book.level level.slot := by
  have here := (rep.sides side).nodes level listed
  have there := (rep'.sides side).nodes level listed
  obtain ⟨next, prev⟩ := (rep'.sides side).chain.links_eq (rep.sides side).chain
    (List.mem_map_of_mem listed)
  have price := there.priced.trans here.priced.symm
  have total := there.total.trans here.total.symm
  have count := there.count.trans here.count.symm
  have head := there.queue.links.head_eq.trans here.queue.links.head_eq.symm
  have tail := there.queue.links.tail_eq.trans here.queue.links.tail_eq.symm
  exact PriceLevelNode.ext price total count (IntrusiveOrderList.ext head tail) next prev

/-- The orders are kept. -/
theorem order_eq (listed : level ∈ view side) (queued : entry ∈ level.orders) :
    book'.order entry.slot = book.order entry.slot := by
  have here := ((rep.sides side).nodes level listed).queue
  have there := ((rep'.sides side).nodes level listed).queue
  obtain ⟨next, prev⟩ := there.links.links_eq here.links (List.mem_map_of_mem queued)
  have contents := (there.contents entry queued).trans (here.contents entry queued).symm
  exact LiveOrder.ext (congrArg OrderView.key contents) (congrArg OrderView.price contents)
    (congrArg OrderView.remainingQty contents) (congrArg OrderView.prioritySeq contents) next prev

/-- Two books of one view are the same book, up to the lookup and the free lists. -/
theorem restored (lookup : book'.lookup = book.lookup)
    (freeLevels : book'.levelPool.freeList = book.levelPool.freeList)
    (freeOrders : book'.orderPool.freeList = book.orderPool.freeList) : book.Restored book' := by
  have same := rep.view_eq
  subst same
  exact
    { levelsOf := rep'.view_eq.symm
      sides := rep.sides_eq rep'
      lookup
      levels := fun _ _ listed => rep.level_eq rep' listed
      orders := fun _ _ listed _ queued => rep.order_eq rep' listed queued
      freeLevels
      freeOrders }

end BookRep

/-! ## Free lists -/

/-- A level takes a slot. -/
theorem SideBook.createLevel_freeList {side : Side} {book half : SideBook} {price : Price}
    {pool pool' : LevelPool} {node : Nat}
    (created : createLevel side book price pool = .ok (node, half, pool')) :
    pool.freeList = node :: pool'.freeList := by
  obtain ⟨⟨slot, taken⟩, allocated, rest⟩ := bind_eq_ok created
  have free := ObjectPool.allocate_freeList allocated
  dsimp only at rest
  split at rest
  · cases rest
    exact free
  · split at rest
    · cases rest
      exact free
    · obtain ⟨current, _, linked⟩ := bind_eq_ok rest
      cases linked
      exact free

/-- It gives it back. -/
theorem SideBook.removeLevel_freeList (book : SideBook) (pool : LevelPool) (node : Nat) :
    ∃ returned, (book.removeLevel pool node).2.freeList = returned ++ pool.freeList := by
  unfold removeLevel
  dsimp only
  split
  · exact ObjectPool.deallocate_freeList _ node
  · exact ObjectPool.deallocate_freeList _ node

namespace LimitOrderBook

variable {book next : LimitOrderBook}

/-- At most one slot is taken. -/
theorem findOrCreateLevel_freeLists {side : Side} {price : Price} {level : Nat}
    (found : book.findOrCreateLevel side price = .ok (level, next)) :
    next.orderPool = book.orderPool ∧
      ∃ taken, taken.length ≤ 1 ∧ book.levelPool.freeList = taken ++ next.levelPool.freeList := by
  unfold findOrCreateLevel at found
  split at found
  · cases found
    exact ⟨rfl, [], Nat.zero_le 1, rfl⟩
  · split at found
    · cases found
    · rename_i created
      cases found
      exact ⟨rfl, [_], Nat.le_refl 1, SideBook.createLevel_freeList created⟩

/-- `insert` takes one order and at most one level from the tops of the free lists. -/
theorem insert_freeLists {order : Order} {prioritySeq : UInt64} {slot : Nat}
    (inserted : book.insert order prioritySeq = .ok (slot, next)) :
    book.orderPool.freeList = slot :: next.orderPool.freeList ∧
      ∃ taken, taken.length ≤ 1 ∧ book.levelPool.freeList = taken ++ next.levelPool.freeList := by
  obtain ⟨⟨place, orderPool⟩, allocated, rest⟩ := bind_eq_ok inserted
  obtain ⟨⟨level, leveled⟩, found, linked⟩ := bind_eq_ok rest
  obtain ⟨samePool, levels⟩ := findOrCreateLevel_freeLists found
  cases linked
  refine ⟨?_, levels⟩
  have free := ObjectPool.allocate_freeList allocated
  have same : leveled.orderPool.freeList = orderPool.freeList := congrArg _ samePool
  rw [free, ← same]
  rfl

/-- At most one is given back. -/
theorem dropEmptyLevel_freeList (book : LimitOrderBook) (side : Side) (level : Nat)
    (price : Price) :
    ∃ returned, (book.dropEmptyLevel side level price).levelPool.freeList =
      returned ++ book.levelPool.freeList := by
  unfold dropEmptyLevel
  split
  · exact SideBook.removeLevel_freeList _ _ _
  · exact ⟨[], rfl⟩

/-- `cancel` returns slots to the tops of the free lists. -/
theorem cancel_freeLists {orderId : OrderId} {found : Bool}
    (cancelled : book.cancel orderId = .ok (found, next)) :
    (∃ returned, next.orderPool.freeList = returned ++ book.orderPool.freeList) ∧
      ∃ returned, next.levelPool.freeList = returned ++ book.levelPool.freeList := by
  unfold cancel at cancelled
  split at cancelled
  · cases cancelled
    exact ⟨⟨[], rfl⟩, [], rfl⟩
  · split at cancelled
    · cases cancelled
    · cases cancelled
      refine ⟨?_, ?_⟩
      · simp only [forget, dropEmptyLevel_orderPool]
        exact ObjectPool.deallocate_freeList _ _
      · exact dropEmptyLevel_freeList _ _ _ _

end LimitOrderBook

/-! ## Inserting and cancelling -/

/-- Taking a placed order out again gives the level list before. -/
theorem placeOrder_takenOut {side : Side} {price : Price} {node : Nat} {entry : OrderView}
    {levels : List LevelView} (sorted : Sorted side levels)
    (proper : ∀ level ∈ levels, level.orders ≠ []) :
    ∃ front home back, placeOrder side price node entry levels =
        front ++ { home with orders := home.orders ++ [entry] } :: back ∧
      front ++ pruned home ++ back = levels := by
  by_cases present : levels.any fun level => level.price = price
  · obtain ⟨home, listed, priced⟩ := List.any_eq_true.mp present
    obtain ⟨front, back, split⟩ := List.append_of_mem listed
    have kept : ensureLevel side price node levels = levels := if_pos present
    refine ⟨front, home, back, ?_, ?_⟩
    · exact BookRep.placeOrder_eq (kept.trans split) (kept.symm ▸ sorted) (of_decide_eq_true priced)
    · rw [pruned, if_neg (proper home listed), split, List.append_assoc, List.singleton_append]
  · have made : ensureLevel side price node levels = levelsAhead side price levels ++
        ⟨node, price, []⟩ :: levelsBehind side price levels := if_neg present
    refine ⟨levelsAhead side price levels, ⟨node, price, []⟩, levelsBehind side price levels,
      ?_, ?_⟩
    · exact BookRep.placeOrder_eq made sorted.ensureLevel rfl
    · rw [pruned, if_pos rfl, List.append_nil]
      exact List.takeWhile_append_dropWhile

/-- Insert and erase. -/
theorem lookup_erase_insert {lookup : OrderLookup} {orderId : OrderId} {slot : Nat}
    (unused : lookup.lookup orderId = none) :
    (lookup.insert orderId slot).erase orderId = lookup := by
  refine Finmap.ext_lookup fun other => ?_
  by_cases same : other = orderId
  · rw [same, Finmap.lookup_erase, unused]
  · rw [Finmap.lookup_erase_ne same, Finmap.lookup_insert_of_ne _ same]

/-- `cancel` after `insert` of an unknown identifier. -/
theorem BookRep.cancel_insert {book next : LimitOrderBook} {view : BookView}
    (rep : BookRep book view) (proper : Proper view) {order : Order} {prioritySeq : UInt64}
    {slot : Nat} (inserted : book.insert order prioritySeq = .ok (slot, next))
    (unused : book.findOrder order.orderId = none) (apart : NoOverlap next.levelsOf) :
    ∃ restored, next.cancel order.orderId = .ok (true, restored) ∧ book.Restored restored := by
  rcases rep.insert order prioritySeq with ⟨_, node, _, same, placed, known⟩ | ⟨failed, _⟩
  · cases inserted.symm.trans same
    obtain ⟨front, home, back, split, whole⟩ := @placeOrder_takenOut order.side order.price node
      ((order.live prioritySeq).view slot) _ (rep.sides order.side).sorted (proper order.side)
    have found : next.findOrder order.orderId = some slot := by
      rw [LimitOrderBook.findOrder, known, Finmap.lookup_insert]
    have split' := (Function.update_self order.side _ view).trans split
    obtain ⟨restored, cancelled, rep', lookup⟩ := placed.cancel
      (placed.locate_split (placed.view_eq ▸ apart) split') split' rfl found
    have back : BookRep restored view := by
      rw [Function.update_idem, List.append_nil, whole, Function.update_eq_self] at rep'
      exact rep'
    obtain ⟨takenOrder, takenLevels, short, gave⟩ := LimitOrderBook.insert_freeLists inserted
    obtain ⟨⟨orders, gotOrders⟩, levels, gotLevels⟩ := LimitOrderBook.cancel_freeLists cancelled
    refine ⟨restored, cancelled, rep.restored back ?_ ?_ ?_⟩
    · rw [lookup, known]
      exact lookup_erase_insert unused
    · exact rep.levelAccounts.freeList_eq back.levelAccounts gave short gotLevels
    · exact rep.orderAccounts.freeList_eq back.orderAccounts
        (takenOrder.trans (List.singleton_append).symm) (Nat.le_refl 1) gotOrders
  · cases inserted.symm.trans failed

/-- A limit order that does not cross is inserted. -/
theorem submitOrder_rests {engine : MatchingEngine} {order : Order} (isLimit : order.type = .limit)
    (positive : order.qty ≠ 0) (idle : ¬order.Crosses engine.book) {slot : Nat}
    {next : LimitOrderBook} (inserted : engine.book.insert order order.seqNum = .ok (slot, next))
    (ctx : ExecutionContext) (clock : ClockReadings) :
    ∃ submission, engine.submitOrder order ctx clock = .ok submission ∧
      submission.engine.book = next := by
  have ended : Crossing.cross canSelfTrade order clock.now levelCapacity
      (engine.beginSubmit order ctx clock.now) = .ok (engine.beginSubmit order ctx clock.now) :=
    Crossing.cross_exhausted (nextLevel_beginSubmit (fun meets => idle meets.2) clock.now)
  simp only [submitOrder, submitOrderWith, ended, bind, Except.bind,
    Crossing.settle]
  simp only [beginSubmit, positive, if_false, isLimit, inserted]
  exact ⟨_, rfl, rfl⟩

namespace EngineRun

/-- In every reachable state, cancelling a limit order right after a submission that did not cross
leaves the book as it was. -/
theorem cancel_undoes_submit {listener : Option (List BookEvent)} {inputs : List EngineInput}
    {run : EngineRun} (ran : runAll EngineRun.step (EngineRun.start listener) inputs = .ok run)
    {order : Order} (isLimit : order.type = .limit) (positive : 0 < order.qty)
    (unused : ¬run.engine.book.Resting order.orderId) (idle : ¬order.Crosses run.engine.book)
    (room : run.engine.book.contents.HasRoom order.side order.price) (ctx ctx' : ExecutionContext)
    (clock clock' : ClockReadings) (clientId : ClientId) (accountId : AccountId)
    (symbolId : SymbolId) :
    ∃ submission after report, run.engine.submitOrder order ctx clock = .ok submission ∧
      submission.engine.cancelOrder order.orderId clientId accountId symbolId ctx' clock' =
        .ok (true, after, report) ∧
      run.engine.book.Restored after.book := by
  have invariant := Invariant.of_run ran
  obtain ⟨slot, _, next, inserted, _, known⟩ :=
    invariant.sane.rep.insert_of_room order.seqNum room
  obtain ⟨submission, submitted, same⟩ :=
    submitOrder_rests isLimit (UInt64.pos_iff_ne_zero.mp positive) idle inserted ctx clock
  subst same
  have apart := (invariant.submitted submitted).sane.uncrossed.noOverlap
  obtain ⟨restored, cancelled, undone⟩ := invariant.sane.rep.cancel_insert invariant.sane.proper
    inserted (invariant.findOrder_eq_none unused) apart
  have found : submission.engine.book.findOrder order.orderId = some slot := by
    rw [LimitOrderBook.findOrder, known, Finmap.lookup_insert]
  have called : ∃ after report, submission.engine.cancelOrder order.orderId clientId accountId
      symbolId ctx' clock' = .ok (true, after, report) ∧ after.book = restored := by
    simp only [cancelOrder, found, cancelled, bind, Except.bind]
    exact ⟨_, _, rfl, rfl⟩
  obtain ⟨after, report, taken, rfl⟩ := called
  exact ⟨submission, after, report, submitted, taken, undone⟩

/-- A bid one below the only ask opens a level and closes it again. -/
theorem cancel_undoes_submit_quoted :
    ∃ run, runAll EngineRun.step (EngineRun.start none)
        [submitInput (limitOrder 1 .sell 101 5)] = .ok run ∧
      ∃ submission after report,
        run.engine.submitOrder (limitOrder 2 .buy 100 3) .empty ⟨0, 0, 0⟩ = .ok submission ∧
        submission.engine.cancelOrder 2 1 1 1 .empty ⟨0, 0, 0⟩ = .ok (true, after, report) ∧
        run.engine.book.Restored after.book := by
  have facts : ∃ run, runAll EngineRun.step (EngineRun.start none)
        [submitInput (limitOrder 1 .sell 101 5)] = .ok run ∧
      ¬run.engine.book.Resting 2 ∧ ¬(limitOrder 2 .buy 100 3).Crosses run.engine.book ∧
      run.engine.book.contents.held.length < orderCapacity ∧
      run.engine.book.contents.levelCount < levelCapacity :=
    Returns.exists (by decide +kernel)
  obtain ⟨run, ran, unused, idle, orders, levels⟩ := facts
  exact ⟨run, ran, cancel_undoes_submit ran rfl (by decide) unused idle ⟨orders, Or.inl levels⟩
    .empty .empty ⟨0, 0, 0⟩ ⟨0, 0, 0⟩ 1 1 1⟩

end EngineRun

end FluxTrade
