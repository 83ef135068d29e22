import FluxTrade.Matching.BookRefines

/-!
# Operations of the book on its level lists

Each call of `LimitOrderBook` on a represented book succeeds, unless a pool is
exhausted, and acts on one level list: `insert` appends to the level of its
price, created in its place if absent; `cancel` and `fill_order` take a filled
or cancelled order out and prune an emptied level; `modify_qty` rewrites one
queue; `clear` empties both lists and returns every node to its pool.
-/

namespace FluxTrade

open LinkedList Function ObjectPool List

namespace LimitOrderBook

section

variable (book : LimitOrderBook) (side : Side) (level : Nat)

/-- Releasing an order commutes with pruning its level. -/
theorem forget_dropEmptyLevel (order : Nat) (price : Price) (orderId : OrderId) :
    (book.dropEmptyLevel side level price).forget orderId order =
      (book.forget orderId order).dropEmptyLevel side level price := by
  have same : (book.forget orderId order).level level = book.level level := rfl
  unfold dropEmptyLevel
  rw [same]
  split <;> rfl

/-- Dropping keeps the lookup. -/
@[simp]
theorem dropEmptyLevel_lookup (price : Price) :
    (book.dropEmptyLevel side level price).lookup = book.lookup := by
  unfold dropEmptyLevel
  split <;> rfl

/-- It keeps the orders. -/
@[simp]
theorem dropEmptyLevel_orderPool (price : Price) :
    (book.dropEmptyLevel side level price).orderPool = book.orderPool := by
  unfold dropEmptyLevel
  split <;> rfl

end

/-- The search for a level neither reads nor writes orders and lookup. -/
theorem findOrCreateLevel_frame (book : LimitOrderBook) (orderPool : OrderPool)
    (lookup : OrderLookup) (side : Side) (price : Price) :
    { book with orderPool, lookup }.findOrCreateLevel side price =
      (book.findOrCreateLevel side price).map fun found =>
        (found.1, { found.2 with orderPool, lookup }) := by
  unfold findOrCreateLevel
  dsimp only
  split
  · rfl
  · split <;> rfl

end LimitOrderBook

/-- What a fill leaves of an order. -/
def reduced (entry : OrderView) (filledQty : Quantity) : List OrderView :=
  if entry.remainingQty = filledQty then []
  else [{ entry with remainingQty := entry.remainingQty - filledQty }]

/-- The queue after `modify_qty`. -/
def amended (ahead behind : List OrderView) (entry : OrderView) (newQty : Quantity)
    (prioritySeq : UInt64) : List OrderView :=
  if newQty < entry.remainingQty then ahead ++ { entry with remainingQty := newQty } :: behind
  else if entry.remainingQty < newQty then
    ahead ++ behind ++ [{ entry with remainingQty := newQty, prioritySeq }]
  else ahead ++ entry :: behind

namespace BookRep

variable {book : LimitOrderBook} {view : BookView} {side : Side} {front back : List LevelView}
  {level : LevelView} {ahead behind : List OrderView} {entry : OrderView}
variable {orderId : OrderId} {filledQty : Quantity}

section

variable (rep : BookRep book view) (split : view side = front ++ level :: back)
include rep split

section

variable (queued : level.orders = ahead ++ entry :: behind)
include queued

/-- The price stored in a resting order is its level's. -/
theorem order_price :
    (book.order entry.slot).price = level.price :=
  (rep.node split).queue.priced entry (by simp [queued])

/-- The open quantity stored. -/
theorem order_remainingQty :
    (book.order entry.slot).remainingQty = entry.remainingQty := by
  have listed : level ∈ view side := by simp [split]
  have member : entry ∈ level.orders := by simp [queued]
  exact congrArg OrderView.remainingQty (rep.order_view listed member)

/-- A resting order is linked to the one behind it. -/
theorem order_next :
    (book.order entry.slot).next = (queueSlots behind).head? := by
  have queue := (rep.node split).queue
  rw [queued] at queue
  exact queue.neighbours.2

end

/-- A level is linked to the first order of its queue. -/
theorem level_head :
    (book.level level.slot).orders.head = (queueSlots level.orders).head? :=
  (rep.node split).queue.links.head_eq

/-- Taking an order out of its queue and pruning its level. -/
theorem takeOut_dropEmptyLevel (queued : level.orders = ahead ++ entry :: behind)
    {book' : LimitOrderBook} (sides : book'.sides = book.sides)
    (levelPool : book'.levelPool = book.levelPool.modify level.slot fun node =>
      { node with
        orders := ((book.level level.slot).orders.remove book.orderPool.storage entry.slot).1
        totalQty := node.totalQty - entry.remainingQty
        orderCount := node.orderCount - 1 }) (orderPool : book'.orderPool = deallocate
      { book.orderPool with
        storage := ((book.level level.slot).orders.remove book.orderPool.storage entry.slot).2 }
      entry.slot) (lookup : book'.lookup = book.lookup.erase entry.key.orderId) (price : Price) :
    BookRep (book'.dropEmptyLevel side level.slot price) (update view side
      (front ++ pruned { level with orders := ahead ++ behind } ++ back)) := by
  have taken := rep.takeOut split queued sides levelPool orderPool lookup
  have dropped := taken.dropEmptyLevel (update_self ..) price
  rw [update_idem] at dropped
  exact dropped

end

/-- `cancel` of a resting order takes it out. -/
theorem cancel (rep : BookRep book view)
    (located : book.locate level.price = some (side, level.slot))
    (split : view side = front ++ level :: back) (queued : level.orders = ahead ++ entry :: behind)
    (found : book.findOrder entry.key.orderId = some entry.slot) :
    ∃ book', book.cancel entry.key.orderId = .ok (true, book') ∧
      BookRep book' (update view side
        (front ++ pruned { level with orders := ahead ++ behind } ++ back)) ∧
      book'.lookup = book.lookup.erase entry.key.orderId := by
  rw [← rep.order_price split queued] at located
  have remaining : ((book.removeFrom level.slot entry.slot).order entry.slot).remainingQty =
      entry.remainingQty := by
    rw [← rep.order_remainingQty split queued]
    exact IntrusiveOrderList.remove_read _ _ _ (fun _ _ _ => rfl) _
  simp only [LimitOrderBook.cancel, found, located, LimitOrderBook.forget_dropEmptyLevel,
    remaining]
  refine ⟨_, rfl, ?_, ?_⟩
  · apply rep.takeOut_dropEmptyLevel split queued
    · rfl
    · exact modify_modify _ _ _ _
    · rfl
    · rfl
  · rw [LimitOrderBook.dropEmptyLevel_lookup]
    rfl

/-- `cancel` of an unknown identifier changes nothing. -/
theorem cancel_unknown (unknown : book.findOrder orderId = none) :
    book.cancel orderId = .ok (false, book) := by
  simp [LimitOrderBook.cancel, unknown]

section

variable (rep : BookRep book view)
include rep

section

variable (split : view side = front ++ level :: back)
  (queued : level.orders = ahead ++ entry :: behind)
include split queued

/-- The quantities of `fill_order`. -/
theorem applyFill (filledQty : Quantity) :
    BookRep (book.applyFill level.slot entry.slot filledQty) (update view side (front ++
      { level with
        orders :=
          ahead ++ { entry with remainingQty := entry.remainingQty - filledQty } :: behind } ::
      back)) := by
  have remaining := rep.order_remainingQty split queued
  have listed : level ∈ view side := by simp [split]
  have member : entry ∈ level.orders := by simp [queued]
  have priority : (book.order entry.slot).prioritySeq = entry.prioritySeq :=
    congrArg OrderView.prioritySeq (rep.order_view listed member)
  apply rep.rewriteEntry split queued
  · rfl
  · apply modify_congr
    congr 1
    grind
  · apply modify_congr
    rw [LimitOrderBook.order] at remaining priority
    rw [← remaining, ← priority]
    rfl
  · rfl

/-- An order without open quantity leaves the book. -/
theorem retire (filled : entry.remainingQty = 0) :
    BookRep (book.retire side level.slot entry.slot) (update view side
      (front ++ pruned { level with orders := ahead ++ behind } ++ back)) ∧
      (book.retire side level.slot entry.slot).lookup =
        book.lookup.erase entry.key.orderId := by
  have listed : level ∈ view side := by simp [split]
  have member : entry ∈ level.orders := by simp [queued]
  have key : (book.order entry.slot).key = entry.key :=
    congrArg OrderView.key (rep.order_view listed member)
  have sameKey : (((book.removeFrom level.slot entry.slot).modifyLevel level.slot fun node =>
      { node with orderCount := node.orderCount - 1 }).order entry.slot).key = entry.key := by
    rw [← key]
    exact IntrusiveOrderList.remove_read _ _ _ (fun _ _ _ => rfl) _
  simp only [LimitOrderBook.retire, LimitOrderBook.forget_dropEmptyLevel]
  simp only [LimitOrderBook.order, LimitOrderBook.dropEmptyLevel_orderPool] at sameKey ⊢
  rw [sameKey]
  constructor
  · apply rep.takeOut_dropEmptyLevel split queued
    · rfl
    · rw [filled]
      simp only [UInt64.sub_zero]
      exact modify_modify _ _ _ _
    · rfl
    · rfl
  · rw [LimitOrderBook.dropEmptyLevel_lookup]
    rfl

end

/-- `fill_order` of a resting order by at most its quantity. -/
theorem fillOrder (located : book.locate level.price = some (side, level.slot))
    (split : view side = front ++ level :: back) (queued : level.orders = ahead ++ entry :: behind)
    (fits : filledQty ≤ entry.remainingQty) :
    ∃ book', book.fillOrder entry.slot filledQty = .ok book' ∧
      BookRep book' (update view side
        (front ++ pruned { level with orders := ahead ++ (reduced entry filledQty ++ behind) } ++
          back)) ∧
      book'.lookup =
        if entry.remainingQty = filledQty then book.lookup.erase entry.key.orderId
        else book.lookup := by
  rw [← rep.order_price split queued] at located
  have remaining := rep.order_remainingQty split queued
  have within : ¬(book.order entry.slot).remainingQty < filledQty := by
    rw [remaining]
    exact UInt64.not_lt.mpr fits
  have applied := rep.applyFill split queued filledQty
  have left : ((book.applyFill level.slot entry.slot filledQty).order entry.slot).remainingQty =
      entry.remainingQty - filledQty := by
    exact applied.order_remainingQty (update_self ..) rfl
  simp only [LimitOrderBook.fillOrder, within, if_false, located, left]
  by_cases filled : entry.remainingQty = filledQty
  · have gone : entry.remainingQty - filledQty = 0 := by
      rw [filled]
      exact UInt64.sub_self filledQty
    obtain ⟨retired, lookup⟩ := applied.retire (update_self ..) rfl gone
    rw [if_pos gone]
    refine ⟨_, rfl, ?_, ?_⟩
    · rw [update_idem] at retired
      simpa [reduced, filled] using retired
    · rw [lookup, if_pos filled]
      rfl
  · have open' : entry.remainingQty - filledQty ≠ 0 := by grind
    rw [if_neg open']
    refine ⟨_, rfl, ?_, ?_⟩
    · simpa [reduced, filled, pruned] using applied
    · rw [if_neg filled]
      rfl

/-- `modify_qty` of a resting order rewrites its queue and keeps the lookup. -/
theorem modifyQty (located : book.locate level.price = some (side, level.slot))
    (split : view side = front ++ level :: back) (queued : level.orders = ahead ++ entry :: behind)
    (found : book.findOrder entry.key.orderId = some entry.slot) (newQty : Quantity)
    (prioritySeq : UInt64) :
    ∃ book', book.modifyQty entry.key.orderId newQty prioritySeq = .ok (true, book') ∧
      BookRep book' (update view side
        (front ++ { level with orders := amended ahead behind entry newQty prioritySeq } ::
          back)) ∧
      book'.lookup = book.lookup := by
  have listed : level ∈ view side := by simp [split]
  rw [← rep.order_price split queued] at located
  have remaining := rep.order_remainingQty split queued
  have member : entry ∈ level.orders := by simp [queued]
  have priority : (book.order entry.slot).prioritySeq = entry.prioritySeq :=
    congrArg OrderView.prioritySeq (rep.order_view listed member)
  simp only [LimitOrderBook.modifyQty, found, located, remaining, amended]
  by_cases less : newQty < entry.remainingQty
  · simp only [less, if_true]
    refine ⟨_, rfl, ?_, rfl⟩
    apply rep.rewriteEntry split queued
    · rfl
    · apply modify_congr
      congr 1
      grind
    · apply modify_congr
      rw [← priority]
      rfl
    · rfl
  · simp only [less, if_false]
    by_cases more : entry.remainingQty < newQty
    · simp only [more, if_true]
      refine ⟨_, rfl, ?_, rfl⟩
      have rewritten : BookRep ((book.modifyLevel level.slot fun node =>
          { node with totalQty := node.totalQty + (newQty - entry.remainingQty) }).modifyOrder
          entry.slot fun node => { node with remainingQty := newQty, prioritySeq })
          (update view side (front ++ { level with
            orders :=
              ahead ++ { entry with remainingQty := newQty, prioritySeq } :: behind } ::
            back)) := by
        apply rep.rewriteEntry split queued
        · rfl
        · apply modify_congr
          congr 1
          grind
        · rfl
        · rfl
      have moved := rewritten.requeue (update_self ..) rfl
      rw [update_idem] at moved
      exact moved
    · simp only [more, if_false]
      refine ⟨_, rfl, ?_, rfl⟩
      rw [← queued, ← split, update_eq_self]
      exact rep

end

/-- `modify_qty` of an unknown identifier changes nothing. -/
theorem modifyQty_unknown (unknown : book.findOrder orderId = none) (newQty : Quantity)
    (prioritySeq : UInt64) :
    book.modifyQty orderId newQty prioritySeq = .ok (false, book) := by
  simp [LimitOrderBook.modifyQty, unknown]

end BookRep

/-! ## Insertion -/

/-- The level list with a level for a price, created in its place if absent. -/
def ensureLevel (side : Side) (price : Price) (node : Nat) (levels : List LevelView) :
    List LevelView :=
  if levels.any fun level => level.price = price then levels
  else insertLevel side ⟨node, price, []⟩ levels

/-- The level list with an order appended to the level of its price. -/
def placeOrder (side : Side) (price : Price) (node : Nat) (entry : OrderView)
    (levels : List LevelView) : List LevelView :=
  (ensureLevel side price node levels).map fun level =>
    if level.price = price then { level with orders := level.orders ++ [entry] } else level

namespace BookRep

variable {book : LimitOrderBook} {view : BookView} {side : Side}

/-- Creating the level of an absent price. -/
theorem createLevel (rep : BookRep book view) {price : Price} {node : Nat} {rest : List Nat}
    (absent : ∀ level ∈ view side, level.price ≠ price)
    (free : book.levelPool.freeList = node :: rest) {book' : LimitOrderBook}
    (created : ∃ half levelPool,
      SideBook.createLevel side (book.sides side) price book.levelPool =
        .ok (node, half, levelPool) ∧
      book'.sides = update book.sides side half ∧ book'.levelPool = levelPool)
    (orderPool : book'.orderPool = book.orderPool) (lookup : book'.lookup = book.lookup) :
    BookRep book'
      (update view side (insertLevel side ⟨node, price, []⟩ (view side))) := by
  have near := rep.sides side
  have accounts := rep.levelAccounts_side side
  have isFree : node ∈ book.levelPool.freeList := by simp [free]
  have fresh := accounts.fresh isFree
  rw [mem_append, not_or] at fresh
  have whole := levelsAhead_append_levelsBehind side price (view side)
  have split : levelSlots (levelsAhead side price (view side)) ++
      levelSlots (levelsBehind side price (view side)) = levelSlots (view side) := by
    rw [← map_append, whole]
  obtain ⟨half, levelPool, made, sides, pool⟩ := created
  rw [near.createLevel_eq accounts absent free] at made
  simp only [Except.ok.injEq, Prod.mk.injEq, true_and] at made
  obtain ⟨rfl, rfl⟩ := made
  apply of_side side
  · rw [update_self, sides, pool, orderPool, update_self]
    exact near.link fresh.1 absent
  · rw [update_of_ne side.opposite_ne, sides, pool, orderPool,
      update_of_ne side.opposite_ne]
    apply (rep.sides side.opposite).congr _ fun _ _ => rfl
    intro slot member
    have apart : slot ≠ node := by
      rintro rfl
      exact fresh.2 member
    have outside : slot ∉ levelSlots (view side) := fun inside => rep.levels_apart inside member
    rw [← split, mem_append, not_or] at outside
    change linkBetween _ node _ _ slot = _
    rw [linkBetween_frame _ apart, update_of_ne apart]
    · exact fun same => outside.1 (mem_of_getLast? same)
    · exact fun same => outside.2 (mem_of_head? same)
  · rw [update_self, update_of_ne side.opposite_ne, pool]
    simp only [Accounts, free] at accounts ⊢
    refine Perm.trans ?_ accounts
    rw [← split]
    simp only [insertLevel, levelSlots, map_append, map_cons, append_assoc,
      cons_append]
    simpa only [append_assoc] using
      (perm_middle :
        (rest ++ levelSlots (levelsAhead side price (view side)) ++ node :: _).Perm _)
  · rw [update_self, update_of_ne side.opposite_ne, orderPool]
    have orderAccounts := rep.orderAccounts_side side
    rw [← whole] at orderAccounts
    simpa [insertLevel] using orderAccounts
  · intro orderId slot found
    rw [LimitOrderBook.findOrder, lookup] at found
    obtain ⟨other, home, member, entry, queued, isSlot, isId⟩ := rep.lookup orderId slot found
    refine ⟨other, home, ?_, entry, queued, isSlot, isId⟩
    rcases Side.eq_or_opposite side other with rfl | rfl
    · rw [update_self]
      exact mem_insertLevel.mpr (Or.inr member)
    · rw [update_of_ne side.opposite_ne]
      exact member

/-- Finding or creating the level of a price. -/
theorem findOrCreateLevel (rep : BookRep book view) (side : Side) (price : Price) :
    (∃ level node book', book.findOrCreateLevel side price = .ok (level, book') ∧
      BookRep book' (update view side (ensureLevel side price node (view side))) ∧
      book'.lookup = book.lookup ∧ book'.orderPool = book.orderPool ∧
      ∃ home ∈ ensureLevel side price node (view side), home.slot = level ∧ home.price = price) ∨
    book.findOrCreateLevel side price = .error .badAlloc ∧ book.levelPool.freeList = [] := by
  have near := rep.sides side
  unfold LimitOrderBook.findOrCreateLevel
  cases found : (book.sides side).findLevel price with
  | some level =>
    obtain ⟨home, member, isPrice, isSlot⟩ := (near.index price level).mp found
    have present : (view side).any (fun level => level.price = price) = true :=
      any_eq_true.mpr ⟨home, member, by simpa using isPrice⟩
    have kept : ensureLevel side price 0 (view side) = view side := by
      simp [ensureLevel, present]
    refine Or.inl ⟨level, 0, book, rfl, ?_, rfl, rfl, home, ?_, isSlot, isPrice⟩
    · rw [kept, update_eq_self]
      exact rep
    · rw [kept]
      exact member
  | none =>
    have absent := (near.findLevel_eq_none price).mp found
    cases free : book.levelPool.freeList with
    | nil =>
      refine Or.inr ⟨?_, rfl⟩
      simp [SideBook.createLevel, allocate, free, bind, Except.bind]
    | cons node rest =>
      have missing : (view side).any (fun level => level.price = price) = false := by
        simpa using absent
      have created := near.createLevel_eq (rep.levelAccounts_side side) absent free
      have grown : ensureLevel side price node (view side) =
          insertLevel side ⟨node, price, []⟩ (view side) := by
        simp [ensureLevel, missing]
      rw [created]
      refine Or.inl ⟨node, node, _, rfl, ?_, rfl, rfl, ⟨node, price, []⟩, ?_, rfl, rfl⟩
      · rw [grown]
        apply BookRep.notify
        exact rep.createLevel absent free ⟨_, _, created, rfl, rfl⟩ rfl rfl
      · rw [grown]
        exact mem_insertLevel.mpr (Or.inl rfl)

/-- Appending to the level of a price rewrites only that level. -/
theorem placeOrder_eq {price : Price} {node : Nat} {entry : OrderView}
    {levels front back : List LevelView} {home : LevelView}
    (split : ensureLevel side price node levels = front ++ home :: back)
    (sorted : Sorted side (ensureLevel side price node levels)) (priced : home.price = price) :
    placeOrder side price node entry levels =
      front ++ { home with orders := home.orders ++ [entry] } :: back := by
  rw [split] at sorted
  have others (part : List LevelView) (sub : ∀ level ∈ part, level ∈ front ++ back) :
      (part.map fun level => if level.price = price then
        { level with orders := level.orders ++ [entry] } else level) = part := by
    conv_rhs => rw [← map_id part]
    apply map_congr_left
    intro level member
    have apart := sorted.price_ne (sub level member)
    rw [priced] at apart
    simp [apart]
  rw [placeOrder, split, map_append, map_cons, if_pos priced,
    others front fun level member => mem_append_left _ member,
    others back fun level member => mem_append_right _ member]

/-- `insert` places the order, or ends the process when a pool is exhausted. -/
theorem insert (rep : BookRep book view) (order : Order) (prioritySeq : UInt64) :
    (∃ slot node book', book.insert order prioritySeq = .ok (slot, book') ∧
      BookRep book' (update view order.side
        (placeOrder order.side order.price node ((order.live prioritySeq).view slot)
          (view order.side))) ∧
      book'.lookup = book.lookup.insert order.orderId slot) ∨
    book.insert order prioritySeq = .error .badAlloc ∧
      (book.orderPool.freeList = [] ∨ book.levelPool.freeList = []) := by
  cases free : book.orderPool.freeList with
  | nil =>
    refine Or.inr ⟨?_, Or.inl rfl⟩
    simp [LimitOrderBook.insert, allocate, free, bind, Except.bind]
  | cons slot rest =>
    simp only [LimitOrderBook.insert, allocate, free, bind, Except.bind,
      LimitOrderBook.findOrCreateLevel_frame]
    rcases rep.findOrCreateLevel order.side order.price with
      ⟨level, node, book', found, rep', lookup, orderPool, home, member, rfl, priced⟩ |
      ⟨failed, exhausted⟩
    · rw [found]
      refine Or.inl ⟨slot, node, _, rfl, ?_, ?_⟩
      · obtain ⟨front, back, split⟩ := append_of_mem member
        have sorted := (rep'.sides order.side).sorted
        rw [update_self] at sorted
        rw [placeOrder_eq split sorted priced]
        have here : update view order.side (ensureLevel order.side order.price node
            (view order.side)) order.side = front ++ home :: back := by
          rw [update_self, split]
        have room : book'.orderPool.freeList = slot :: rest := by rw [orderPool, free]
        apply BookRep.notify
        have idem (levels : List LevelView) : update view order.side levels =
            update (update view order.side (ensureLevel order.side order.price
              node (view order.side))) order.side levels := by
          rw [update_idem]
        rw [idem]
        apply rep'.pushBack here room priced.symm
        · rfl
        · rw [orderPool]
          exact modify_modify _ _ _ _
        · rw [orderPool]
          rfl
        · rw [lookup]
          rfl
      · rfl
    · rw [failed]
      exact Or.inr ⟨rfl, Or.inr exhausted⟩

end BookRep

/-! ## Clearing -/

namespace LimitOrderBook

/-- The inner loop of `clear` returns every order of the queue. -/
theorem releaseOrders_eq {pool : OrderPool} {start : Option Nat} {slots : List Nat} {fuel : Nat}
    (path : Path (fun slot => (pool.storage slot).next) start slots)
    (fits : slots.length ≤ fuel) :
    releaseOrders fuel start pool = .ok (pool.deallocateAll slots) := by
  induction slots generalizing pool start fuel with
  | nil =>
    rw [show start = none from path]
    cases fuel <;> rfl
  | cons slot rest ih =>
    cases fuel with
    | zero => simp at fits
    | succ fuel =>
      have shorter : rest.length ≤ fuel := by
        simp only [length_cons] at fits
        omega
      rw [path.1, releaseOrders]
      apply ih _ shorter
      rw [deallocate_storage]
      exact path.2

/-- The outer loop of `clear` returns every level and every order of the side. -/
theorem releaseLevels_eq {levels : LevelPool} {orders : OrderPool} {start : Option Nat}
    {view : List LevelView} {fuel : Nat}
    (path : Path (fun slot => (levels.storage slot).next) start (levelSlots view))
    (nodes : ∀ level ∈ view, LevelRep orders.storage (levels.storage level.slot) level)
    (short : ∀ level ∈ view, level.orders.length ≤ orderCapacity) (fits : view.length ≤ fuel) :
    releaseLevels fuel start levels orders =
      .ok (levels.deallocateAll (levelSlots view), orders.deallocateAll (orderSlots view)) := by
  induction view generalizing levels orders start fuel with
  | nil =>
    rw [show start = none from path]
    cases fuel <;> rfl
  | cons level rest ih =>
    cases fuel with
    | zero => simp at fits
    | succ fuel =>
      have shorter : rest.length ≤ fuel := by
        simp only [length_cons] at fits
        omega
      have queue := (nodes level mem_cons_self).queue
      have fitsQueue : (queueSlots level.orders).length ≤ orderCapacity := by
        simpa using short level mem_cons_self
      rw [path.1, releaseLevels, releaseOrders_eq queue.links.forward fitsQueue]
      simp only [bind, Except.bind]
      rw [ih (by rw [deallocate_storage]; exact path.2) _
        (fun other member => short other (mem_cons_of_mem _ member)) shorter]
      · unfold deallocateAll
        rw [orderSlots_cons, foldl_append]
        rfl
      · intro other member
        rw [deallocate_storage, deallocateAll_storage]
        exact nodes other (mem_cons_of_mem _ member)

end LimitOrderBook

namespace BookRep

variable {book : LimitOrderBook} {view : BookView} {side : Side}

variable (rep : BookRep book view)
include rep

/-- No queue is longer than the order pool. -/
theorem queue_length_le {level : LevelView} (member : level ∈ view side) :
    level.orders.length ≤ orderCapacity := by
  obtain ⟨front, back, split⟩ := append_of_mem member
  have bound := (rep.orderAccounts_split split).length_le
  rw [length_append, length_map] at bound
  omega

/-- No side has more levels than the level pool. -/
theorem levels_length_le (side : Side) :
    (view side).length ≤ levelCapacity := by
  have bound := (rep.levelAccounts_side side).length_le
  rw [length_append, length_map] at bound
  omega

/-- `clear` empties the book and returns every node to its pool. -/
theorem clear :
    ∃ book', book.clear = .ok book' ∧ BookRep book' (fun _ => []) ∧ book'.lookup = ∅ := by
  have bids := LimitOrderBook.releaseLevels_eq (rep.sides .buy).chain.forward
    (rep.sides .buy).nodes (fun _ member => rep.queue_length_le member)
    (rep.levels_length_le .buy)
  have asks : LimitOrderBook.releaseLevels levelCapacity (book.sides .sell).bestLevel
      (book.levelPool.deallocateAll (levelSlots (view .buy)))
      (book.orderPool.deallocateAll (orderSlots (view .buy))) = _ :=
    LimitOrderBook.releaseLevels_eq
      (by rw [deallocateAll_storage]; exact (rep.sides .sell).chain.forward)
      (by
        rw [deallocateAll_storage, deallocateAll_storage]
        exact (rep.sides .sell).nodes)
      (fun _ member => rep.queue_length_le member) (rep.levels_length_le .sell)
  simp only [LimitOrderBook.clear, LimitOrderBook.clearSide, LimitOrderBook.bestLevel, bids,
    bind, Except.bind, update_of_ne (show Side.sell ≠ Side.buy by decide), asks]
  refine ⟨_, rfl, ?_, rfl⟩
  have empties (side : Side) : update (update book.sides .buy ⟨none, ∅⟩) .sell
      ⟨none, ∅⟩ side = ⟨none, ∅⟩ := by
    cases side <;> simp
  constructor
  · intro side
    simp only [empties]
    exact SideRep.empty
  · apply Accounts.deallocateAll
    simp only [map_nil, append_nil]
    exact rep.levelAccounts.deallocateAll
  · apply Accounts.deallocateAll
    simp only [orderSlots_nil, append_nil]
    exact rep.orderAccounts.deallocateAll
  · intro orderId slot found
    simp [LimitOrderBook.findOrder] at found

/-! ## Reading a represented book -/

/-- The links of a represented level read back its queue. -/
theorem queueOf_eq {level : LevelView} (member : level ∈ view side) :
    book.queueOf level.slot = level.orders := by
  have queue := ((rep.sides side).nodes level member).queue
  have fits : (queueSlots level.orders).length ≤ orderCapacity := by
    simpa using rep.queue_length_le member
  have walked : walk (fun slot => (book.order slot).next) orderCapacity
      (book.level level.slot).orders.head = queueSlots level.orders :=
    queue.links.forward.walk_eq fits
  rw [LimitOrderBook.queueOf, walked, map_map]
  conv_rhs => rw [← map_id level.orders]
  exact map_congr_left fun entry queued => queue.contents entry queued

/-- The links of a represented side read back its levels. -/
theorem levelsOf_eq (side : Side) : book.levelsOf side = view side := by
  have chain := (rep.sides side).chain
  have fits : (levelSlots (view side)).length ≤ levelCapacity := by
    simpa using rep.levels_length_le side
  have walked : walk (fun slot => (book.level slot).next) levelCapacity (book.bestLevel side) =
      levelSlots (view side) := chain.forward.walk_eq fits
  rw [LimitOrderBook.levelsOf, walked, map_map]
  conv_rhs => rw [← map_id (view side)]
  apply map_congr_left
  intro level member
  have priced := ((rep.sides side).nodes level member).priced
  simp only [comp_apply, id_eq, rep.queueOf_eq member, LimitOrderBook.level, priced]

/-- A book represents one pair of level lists. -/
theorem view_eq : view = book.levelsOf :=
  funext fun side => (rep.levelsOf_eq side).symm

end BookRep

end FluxTrade
