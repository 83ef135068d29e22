import FluxTrade.Matching.OrderBook

/-!
# The book refines its level lists

`BookRep` relates a whole book to two abstract level lists: each side is
represented, the two pools account for every linked node, and a looked-up
pointer leads to a linked order of that identifier. The operations of the book
are then operations on the lists. Those that search for the level of a resting
order are right as long as no price stands on both sides.
-/

namespace FluxTrade

open LinkedList Function ObjectPool List

/-- The level lists of both sides. -/
abbrev BookView := Side → List LevelView

/-- A side is not its opposite. -/
@[simp]
theorem Side.opposite_ne (side : Side) : side.opposite ≠ side := by
  cases side <;> decide

/-- The opposite of the opposite. -/
@[simp]
theorem Side.opposite_opposite (side : Side) : side.opposite.opposite = side := by
  cases side <;> rfl

/-- There are two sides. -/
theorem Side.eq_or_opposite (side other : Side) : other = side ∨ other = side.opposite := by
  cases side <;> cases other <;> decide

/-- Some side is one of the two. -/
theorem Side.exists {property : Side → Prop} :
    (∃ side, property side) ↔ property .buy ∨ property .sell := by
  constructor
  · rintro ⟨side, holds⟩
    cases side with
    | buy => exact Or.inl holds
    | sell => exact Or.inr holds
  · rintro (holds | holds)
    · exact ⟨.buy, holds⟩
    · exact ⟨.sell, holds⟩

/-- A level list links an order of this identifier at this slot. -/
def Links (levels : List LevelView) (orderId : OrderId) (slot : Nat) : Prop :=
  ∃ level ∈ levels, ∃ entry ∈ level.orders, entry.slot = slot ∧ entry.key.orderId = orderId

/-- A book represents two level lists. -/
structure BookRep (book : LimitOrderBook) (view : BookView) : Prop where
  sides : ∀ side, SideRep side book.levelPool.storage book.orderPool.storage (book.sides side)
    (view side)
  levelAccounts : book.levelPool.Accounts (levelSlots (view .buy) ++ levelSlots (view .sell))
  orderAccounts : book.orderPool.Accounts (orderSlots (view .buy) ++ orderSlots (view .sell))
  lookup : ∀ orderId slot, book.findOrder orderId = some slot →
    ∃ side, Links (view side) orderId slot

/-- No price stands on both sides. -/
def NoOverlap (view : BookView) : Prop :=
  ∀ bid ∈ view .buy, ∀ ask ∈ view .sell, bid.price ≠ ask.price

namespace BookRep

variable {book : LimitOrderBook} {view : BookView} {side : Side} {front back : List LevelView}
  {level : LevelView} {ahead behind : List OrderView} {entry : OrderView}

/-- A new book is empty. -/
theorem new (listener : Option (List BookEvent)) :
    BookRep (LimitOrderBook.new listener) fun _ => [] where
  sides := fun _ => SideRep.empty
  levelAccounts := new_accounts
  orderAccounts := new_accounts
  lookup := by simp [LimitOrderBook.findOrder, LimitOrderBook.new]

/-- Callbacks leave the book alone. -/
theorem notify (rep : BookRep book view) (event : BookEvent) : BookRep (book.notify event) view :=
  ⟨rep.sides, rep.levelAccounts, rep.orderAccounts, rep.lookup⟩

/-- Accounting of the level pool, one side first. -/
theorem levelAccounts_side (rep : BookRep book view) (side : Side) :
    book.levelPool.Accounts (levelSlots (view side) ++ levelSlots (view side.opposite)) := by
  cases side with
  | buy => exact rep.levelAccounts
  | sell => exact rep.levelAccounts.perm perm_append_comm

/-- Accounting of the order pool, one side first. -/
theorem orderAccounts_side (rep : BookRep book view) (side : Side) :
    book.orderPool.Accounts (orderSlots (view side) ++ orderSlots (view side.opposite)) := by
  cases side with
  | buy => exact rep.orderAccounts
  | sell => exact rep.orderAccounts.perm perm_append_comm

/-- A book is represented when one side and the opposite one are. -/
theorem of_side (side : Side)
    (near : SideRep side book.levelPool.storage book.orderPool.storage (book.sides side)
      (view side))
    (far : SideRep side.opposite book.levelPool.storage book.orderPool.storage
      (book.sides side.opposite) (view side.opposite))
    (levelAccounts :
      book.levelPool.Accounts (levelSlots (view side) ++ levelSlots (view side.opposite)))
    (orderAccounts :
      book.orderPool.Accounts (orderSlots (view side) ++ orderSlots (view side.opposite)))
    (lookup : ∀ orderId slot, book.findOrder orderId = some slot →
      ∃ side, Links (view side) orderId slot) : BookRep book view where
  sides := fun other => by
    rcases Side.eq_or_opposite side other with rfl | rfl
    · exact near
    · exact far
  levelAccounts := by
    cases side with
    | buy => exact levelAccounts
    | sell => exact levelAccounts.perm perm_append_comm
  orderAccounts := by
    cases side with
    | buy => exact orderAccounts
    | sell => exact orderAccounts.perm perm_append_comm
  lookup := lookup

variable (rep : BookRep book view)
include rep

/-- The two sides share no level. -/
theorem levels_apart {slot : Nat} (near : slot ∈ levelSlots (view side)) :
    slot ∉ levelSlots (view side.opposite) := fun far =>
  (nodup_append.mp (rep.levelAccounts_side side).nodup).2.2 slot near slot far rfl

section

variable (split : view side = front ++ level :: back)
include split

/-- Accounting of the order pool, one queue first. -/
theorem orderAccounts_split :
    book.orderPool.Accounts (queueSlots level.orders ++ (orderSlots (front ++ back) ++
      orderSlots (view side.opposite))) := by
  refine (rep.orderAccounts_side side).perm ?_
  rw [split]
  simp only [orderSlots_append, orderSlots_cons, ← append_assoc]
  exact (perm_append_comm.append_right _).append_right _

/-- No order of one queue rests elsewhere. -/
theorem orders_apart {slot : Nat} (inside : slot ∈ queueSlots level.orders) :
    slot ∉ orderSlots (front ++ back) ++ orderSlots (view side.opposite) := fun outside =>
  (nodup_append.mp (rep.orderAccounts_split split).nodup).2.2 slot inside slot outside rfl

/-- Every linked level is represented by its node. -/
theorem node :
    LevelRep book.orderPool.storage (book.level level.slot) level :=
  (rep.sides side).nodes level (by simp [split])

/-- Rewriting one level, its queue and the orders of that queue. -/
theorem replace {book' : LimitOrderBook} {change : PriceLevelNode → PriceLevelNode}
    {queue : List OrderView} (sides : book'.sides = book.sides)
    (levelPool : book'.levelPool = book.levelPool.modify level.slot change)
    (sameNext : (change (book.level level.slot)).next = (book.level level.slot).next)
    (samePrev : (change (book.level level.slot)).prev = (book.level level.slot).prev)
    (orders : ∀ slot ∈ orderSlots (front ++ back) ++ orderSlots (view side.opposite),
      book'.order slot = book.order slot)
    (node : LevelRep book'.orderPool.storage (change (book.level level.slot))
      { level with orders := queue }) (accounts : book'.orderPool.Accounts (queueSlots queue ++
      (orderSlots (front ++ back) ++ orderSlots (view side.opposite))))
    (lookup : ∀ orderId slot, book'.findOrder orderId = some slot →
      (∃ entry ∈ queue, entry.slot = slot ∧ entry.key.orderId = orderId) ∨
        book.findOrder orderId = some slot ∧ slot ∉ queueSlots level.orders) :
    BookRep book'
      (update view side (front ++ { level with orders := queue } :: back)) := by
  have here : book'.levelPool.storage level.slot = change (book.level level.slot) := by
    rw [levelPool, modify_storage, modifyAt_same]
    rfl
  have levels (slot : Nat) (apart : slot ≠ level.slot) :
      book'.levelPool.storage slot = book.levelPool.storage slot := by
    rw [levelPool, modify_storage, modifyAt_of_ne _ _ apart]
  have slots : levelSlots (front ++ { level with orders := queue } :: back) =
      levelSlots (view side) := by simp [split]
  have near := rep.sides side
  rw [split] at near
  apply of_side side
  · rw [update_self, sides]
    refine near.replace ?_ ?_ levels
      (fun slot member => orders slot (mem_append_left _ member)) ?_
    · rw [here]
      exact sameNext
    · rw [here]
      exact samePrev
    · rw [here]
      exact node
  · rw [update_of_ne side.opposite_ne, sides]
    apply (rep.sides side.opposite).congr
    · intro slot member
      apply levels
      rintro rfl
      exact rep.levels_apart (by simp [split]) member
    · exact fun slot member => orders slot (mem_append_right _ member)
  · rw [update_self, update_of_ne side.opposite_ne, slots]
    exact (rep.levelAccounts_side side).of_freeList (by rw [levelPool]; rfl)
  · rw [update_self, update_of_ne side.opposite_ne]
    refine accounts.perm ?_
    simp only [orderSlots_append, orderSlots_cons, ← append_assoc]
    exact (perm_append_comm.append_right _).append_right _
  · intro orderId slot found
    rcases lookup orderId slot found with ⟨entry, queued, isSlot, isId⟩ | ⟨old, outside⟩
    · refine ⟨side, { level with orders := queue }, ?_, entry, queued, isSlot, isId⟩
      simp
    · obtain ⟨other, home, member, entry, queued, isSlot, isId⟩ := rep.lookup orderId slot old
      refine ⟨other, home, ?_, entry, queued, isSlot, isId⟩
      rcases Side.eq_or_opposite side other with rfl | rfl
      · rw [update_self]
        rw [split] at member
        have moved : home ≠ level := by
          rintro rfl
          exact outside (isSlot ▸ mem_map_of_mem queued)
        simp only [mem_append, mem_cons, moved, false_or] at member ⊢
        tauto
      · rw [update_of_ne side.opposite_ne]
        exact member

end

/-- The price of a bid leads to the level that holds it; the price of an ask does if no bid level
has it. -/
theorem locate_of_clear (member : level ∈ view side)
    (clear : side = .buy ∨ ∀ bid ∈ view .buy, bid.price ≠ level.price) :
    book.locate level.price = some (side, level.slot) := by
  have found := (rep.sides side).findLevel_eq_some member
  cases side with
  | buy => simp [LimitOrderBook.locate, found]
  | sell =>
    have absent : (book.sides .buy).findLevel level.price = none :=
      ((rep.sides .buy).findLevel_eq_none level.price).mpr (clear.resolve_left nofun)
    simp [LimitOrderBook.locate, absent, found]

/-- A resting order's price leads to the level that holds it. -/
theorem locate_eq (apart : NoOverlap view) (member : level ∈ view side) :
    book.locate level.price = some (side, level.slot) := by
  apply rep.locate_of_clear member
  cases side with
  | buy => exact Or.inl rfl
  | sell => exact Or.inr fun bid bidMember => apart bid bidMember level member

/-- So it does where the level stands in the list. -/
theorem locate_split (apart : NoOverlap view) (split : view side = front ++ level :: back) :
    book.locate level.price = some (side, level.slot) :=
  rep.locate_eq apart (by simp [split])

/-- Removing an empty level. -/
theorem dropLevel (split : view side = front ++ level :: back) (isEmpty : level.orders = [])
    {book' : LimitOrderBook} (sides : book'.sides = update book.sides side
      ((book.sides side).removeLevel book.levelPool level.slot).1)
    (levelPool : book'.levelPool = ((book.sides side).removeLevel book.levelPool level.slot).2)
    (orderPool : book'.orderPool = book.orderPool) (lookup : book'.lookup = book.lookup) :
    BookRep book' (update view side (front ++ back)) := by
  have near := rep.sides side
  rw [split] at near
  rw [near.removeLevel_eq] at sides levelPool
  have accounts := rep.levelAccounts_side side
  have apart (slot : Nat) (listed : slot ∈ levelSlots (front ++ level :: back)) :
      slot ∉ levelSlots (view side.opposite) := rep.levels_apart (split ▸ listed)
  rw [split] at accounts
  apply of_side side
  · rw [update_self, sides, levelPool, orderPool, update_self,
      deallocate_storage]
    exact near.unlink
  · rw [update_of_ne side.opposite_ne, sides, levelPool, orderPool,
      update_of_ne side.opposite_ne, deallocate_storage]
    apply (rep.sides side.opposite).congr _ fun _ _ => rfl
    intro slot member
    apply joinAround_frame
    · intro same
      apply apart slot _ member
      simp only [levelSlots, map_append]
      exact mem_append_left _ (mem_of_getLast? same)
    · intro same
      apply apart slot _ member
      simp only [levelSlots, map_append, map_cons]
      exact mem_append_right _ (mem_cons_of_mem _ (mem_of_head? same))
  · rw [update_self, update_of_ne side.opposite_ne, levelPool]
    apply Accounts.deallocate
    refine (accounts.perm ?_).of_freeList rfl
    simp only [levelSlots, map_append, map_cons, append_assoc, cons_append]
    exact perm_middle.symm
  · rw [update_self, update_of_ne side.opposite_ne, orderPool]
    have orderAccounts := rep.orderAccounts_side side
    rw [split] at orderAccounts
    simpa [isEmpty] using orderAccounts
  · intro orderId slot found
    rw [LimitOrderBook.findOrder, lookup] at found
    obtain ⟨other, home, member, entry, queued, isSlot, isId⟩ := rep.lookup orderId slot found
    refine ⟨other, home, ?_, entry, queued, isSlot, isId⟩
    rcases Side.eq_or_opposite side other with rfl | rfl
    · rw [update_self]
      rw [split] at member
      have moved : home ≠ level := by
        rintro rfl
        simp [isEmpty] at queued
      simp only [mem_append, mem_cons, moved, false_or] at member ⊢
      exact member
    · rw [update_of_ne side.opposite_ne]
      exact member

end BookRep

/-- A level stays in the list as long as its queue is not empty. -/
def pruned (level : LevelView) : List LevelView := if level.orders = [] then [] else [level]

/-- Pruning keeps the orders. -/
@[simp]
theorem restingOrders_pruned (level : LevelView) : restingOrders (pruned level) = level.orders := by
  unfold pruned
  split
  · simp_all
  · simp

namespace BookRep

variable {book : LimitOrderBook} {view : BookView} {side : Side} {front back : List LevelView}
  {level : LevelView} {ahead behind : List OrderView} {entry : OrderView}
variable {orderId : OrderId} {slot : Nat} {book' : LimitOrderBook}

variable (rep : BookRep book view)
include rep

/-- `dropEmptyLevel` prunes the level. -/
theorem dropEmptyLevel (split : view side = front ++ level :: back) (price : Price) :
    BookRep (book.dropEmptyLevel side level.slot price)
      (update view side (front ++ pruned level ++ back)) := by
  have queue := (rep.node split).queue
  unfold LimitOrderBook.dropEmptyLevel
  by_cases isEmpty : level.orders = []
  · rw [if_pos (queue.isEmpty_iff.mpr isEmpty)]
    simp only [pruned, isEmpty, if_true, append_nil]
    apply BookRep.notify
    exact rep.dropLevel split isEmpty rfl rfl rfl rfl
  · rw [if_neg (fun bad => isEmpty (queue.isEmpty_iff.mp bad))]
    simp only [pruned, isEmpty, if_false, append_assoc, singleton_append]
    rw [← split, update_eq_self]
    exact rep

/-- A linked order shows its entry. -/
theorem order_view (member : level ∈ view side) (queued : entry ∈ level.orders) :
    (book.order entry.slot).view entry.slot = entry :=
  ((rep.sides side).nodes level member).queue.contents entry queued

/-- A looked-up order carries the identifier it was looked up by. -/
theorem findOrder_orderId (found : book.findOrder orderId = some slot) :
    (book.order slot).key.orderId = orderId := by
  obtain ⟨side, level, member, entry, queued, rfl, rfl⟩ := rep.lookup orderId slot found
  exact congrArg (fun entry => entry.key.orderId) (rep.order_view member queued)

/-- A looked-up order rests in a given queue or outside it. -/
theorem findOrder_cases (member : level ∈ view side) (found : book.findOrder orderId = some slot) :
    (∃ entry ∈ level.orders, entry.slot = slot ∧ entry.key.orderId = orderId) ∨
      slot ∉ queueSlots level.orders := by
  by_cases inside : slot ∈ queueSlots level.orders
  · obtain ⟨entry, queued, rfl⟩ := mem_map.mp inside
    refine Or.inl ⟨entry, queued, rfl, ?_⟩
    rw [← rep.findOrder_orderId found]
    exact congrArg (fun entry => entry.key.orderId) (rep.order_view member queued).symm
  · exact Or.inr inside

section

variable (split : view side = front ++ level :: back)
  (queued : level.orders = ahead ++ entry :: behind)
include split queued

/-- Taking an order out of its queue, before the level is pruned. -/
theorem takeOut (sides : book'.sides = book.sides)
    (levelPool : book'.levelPool = book.levelPool.modify level.slot fun node =>
      { node with
        orders := ((book.level level.slot).orders.remove book.orderPool.storage entry.slot).1
        totalQty := node.totalQty - entry.remainingQty
        orderCount := node.orderCount - 1 }) (orderPool : book'.orderPool = deallocate
      { book.orderPool with
        storage := ((book.level level.slot).orders.remove book.orderPool.storage entry.slot).2 }
      entry.slot) (lookup : book'.lookup = book.lookup.erase entry.key.orderId) :
    BookRep book' (update view side
      (front ++ { level with orders := ahead ++ behind } :: back)) := by
  have node := rep.node split
  have listed : level ∈ view side := by simp [split]
  have queue := node.queue
  rw [queued] at queue
  apply rep.replace split sides levelPool rfl rfl
  · intro slot member
    rw [LimitOrderBook.order, orderPool, deallocate_storage]
    apply queue.remove_outside
    rw [← queued]
    exact fun inside => rep.orders_apart split inside member
  · rw [orderPool, deallocate_storage]
    have total := node.total
    have count := node.count
    rw [queued] at total count
    refine ⟨node.priced, ?_, ?_, queue.remove⟩
    · change (book.level level.slot).totalQty - entry.remainingQty = openQty (ahead ++ behind)
      rw [total]
      simp only [openQty_append, openQty]
      grind
    · change (book.level level.slot).orderCount - 1 = UInt32.ofNat (ahead ++ behind).length
      rw [count]
      simp only [length_append, length_cons, ← Nat.add_assoc, UInt32.ofNat_add]
      simp
  · rw [orderPool]
    apply Accounts.deallocate
    refine ((rep.orderAccounts_split split).perm ?_).of_freeList rfl
    rw [queued, ← cons_append]
    apply Perm.append_right
    exact (perm_middle.map OrderView.slot).symm
  · intro orderId slot found
    rw [LimitOrderBook.findOrder, lookup] at found
    by_cases same : orderId = entry.key.orderId
    · rw [same, Finmap.lookup_erase] at found
      cases found
    · rw [Finmap.lookup_erase_ne same] at found
      rcases rep.findOrder_cases listed found with ⟨other, member, isSlot, isId⟩ | outside
      · refine Or.inl ⟨other, ?_, isSlot, isId⟩
        have moved : other ≠ entry := by
          rintro rfl
          exact same isId.symm
        rw [queued] at member
        exact (mem_cons.mp (perm_middle.mem_iff.mp member)).resolve_left moved
      · exact Or.inr ⟨found, outside⟩

/-- Rewriting the quantity and the priority of a resting order in place. -/
theorem rewriteEntry {qty : Quantity} {prioritySeq : UInt64} (sides : book'.sides = book.sides)
    (levelPool : book'.levelPool = book.levelPool.modify level.slot fun node =>
      { node with totalQty := node.totalQty - entry.remainingQty + qty })
    (orderPool : book'.orderPool = book.orderPool.modify entry.slot fun node =>
      { node with remainingQty := qty, prioritySeq }) (lookup : book'.lookup = book.lookup) :
    BookRep book' (update view side (front ++
      { level with
        orders := ahead ++ { entry with remainingQty := qty, prioritySeq } :: behind } ::
      back)) := by
  have node := rep.node split
  have listed : level ∈ view side := by simp [split]
  have queue := node.queue
  rw [queued] at queue
  have inside : entry.slot ∈ queueSlots level.orders := by simp [queued]
  apply rep.replace split sides levelPool rfl rfl
  · intro slot member
    rw [LimitOrderBook.order, orderPool, modify_storage, modifyAt_of_ne]
    · rfl
    · rintro rfl
      exact rep.orders_apart split inside member
  · rw [orderPool]
    have total := node.total
    have count := node.count
    rw [queued] at total count
    refine ⟨node.priced, ?_, ?_, ?_⟩
    · change (book.level level.slot).totalQty - entry.remainingQty + qty = _
      rw [total]
      simp only [openQty_append, openQty]
      grind
    · simpa using count
    · have contents := queue.contents entry (by simp)
      rw [modify_storage]
      apply queue.rewrite
      · rfl
      · rfl
      · rfl
      · rfl
      · rw [← contents]
        rfl
  · rw [orderPool]
    refine ((rep.orderAccounts_split split).perm ?_).of_freeList rfl
    simp [queued]
  · intro orderId slot found
    rw [LimitOrderBook.findOrder, lookup] at found
    rcases rep.findOrder_cases listed found with ⟨other, member, isSlot, isId⟩ | outside
    · rw [queued] at member
      rcases mem_cons.mp (perm_middle.mem_iff.mp member) with rfl | member
      · exact Or.inl ⟨_, mem_append_right _ mem_cons_self, isSlot, isId⟩
      · exact Or.inl ⟨other, perm_middle.mem_iff.mpr (mem_cons_of_mem _ member),
          isSlot, isId⟩
    · exact Or.inr ⟨found, outside⟩

/-- Moving a resting order to the tail of its queue. -/
theorem requeue :
    BookRep ((book.removeFrom level.slot entry.slot).appendTo level.slot entry.slot)
      (update view side
        (front ++ { level with orders := ahead ++ behind ++ [entry] } :: back)) := by
  have node := rep.node split
  have listed : level ∈ view side := by simp [split]
  have queue := node.queue
  rw [queued] at queue
  have sides : ((book.removeFrom level.slot entry.slot).appendTo level.slot entry.slot).sides =
      book.sides := rfl
  have levelPool :
      ((book.removeFrom level.slot entry.slot).appendTo level.slot entry.slot).levelPool =
        book.levelPool.modify level.slot fun node =>
          { node with
            orders := (((book.level level.slot).orders.remove book.orderPool.storage
              entry.slot).1.append ((book.level level.slot).orders.remove book.orderPool.storage
              entry.slot).2 entry.slot).1 } := by
    simp only [LimitOrderBook.appendTo, LimitOrderBook.removeFrom, LimitOrderBook.level,
      modify_modify, modify_storage, modifyAt_same]
  have orderPool :
      ((book.removeFrom level.slot entry.slot).appendTo level.slot entry.slot).orderPool.storage =
        (((book.level level.slot).orders.remove book.orderPool.storage entry.slot).1.append
          ((book.level level.slot).orders.remove book.orderPool.storage entry.slot).2
          entry.slot).2 := by
    simp only [LimitOrderBook.appendTo, LimitOrderBook.removeFrom, LimitOrderBook.level,
      modify_storage, modifyAt_same]
  have total := node.total
  have count := node.count
  rw [queued] at total count
  apply rep.replace split sides levelPool rfl rfl
  · intro slot member
    have outside : slot ∉ queueSlots (ahead ++ entry :: behind) := by
      rw [← queued]
      exact fun inside => rep.orders_apart split inside member
    rw [LimitOrderBook.order, orderPool]
    rw [queue.remove.append_outside, queue.remove_outside outside]
    · rfl
    · rintro rfl
      exact outside (by simp)
    · intro inside
      obtain ⟨other, queuedOther, rfl⟩ := mem_map.mp inside
      exact outside (mem_map_of_mem
        (perm_middle.mem_iff.mpr (mem_cons_of_mem _ queuedOther)))
  · rw [orderPool]
    refine ⟨node.priced, ?_, ?_, queue.requeue⟩
    · change (book.level level.slot).totalQty = _
      rw [total]
      simp only [openQty_append, openQty]
      grind
    · change (book.level level.slot).orderCount = _
      rw [count]
      congr 1
      simp only [length_append, length_cons, length_nil]
      omega
  · refine ((rep.orderAccounts_split split).perm ?_).of_freeList rfl
    rw [queued]
    apply Perm.append_right
    apply Perm.map
    rw [append_assoc]
    exact (perm_append_singleton entry behind).append_left ahead
  · intro orderId slot found
    rcases rep.findOrder_cases listed found with ⟨other, member, isSlot, isId⟩ | outside
    · refine Or.inl ⟨other, ?_, isSlot, isId⟩
      rw [queued] at member
      simp only [mem_append, mem_cons, not_mem_nil, or_false] at member ⊢
      tauto
    · exact Or.inr ⟨found, outside⟩

end

/-- Linking a newly allocated order at the tail of a level. -/
theorem pushBack (split : view side = front ++ level :: back) {rest : List Nat} {new : LiveOrder}
    (free : book.orderPool.freeList = slot :: rest) (priced : new.price = level.price)
    (sides : book'.sides = book.sides)
    (levelPool : book'.levelPool = book.levelPool.modify level.slot fun node =>
      { node with
        orders := ((book.level level.slot).orders.append
          (update book.orderPool.storage slot new) slot).1
        totalQty := node.totalQty + new.remainingQty
        orderCount := node.orderCount + 1 })
    (orderPool : book'.orderPool = ⟨((book.level level.slot).orders.append
      (update book.orderPool.storage slot new) slot).2, rest⟩)
    (lookup : book'.lookup = book.lookup.insert new.key.orderId slot) :
    BookRep book' (update view side
      (front ++ { level with orders := level.orders ++ [new.view slot] } :: back)) := by
  have node := rep.node split
  have listed : level ∈ view side := by simp [split]
  have isFree : slot ∈ book.orderPool.freeList := by simp [free]
  have fresh := (rep.orderAccounts_split split).fresh isFree
  rw [mem_append, not_or] at fresh
  have queue : QueueRep (update book.orderPool.storage slot new)
      (book.level level.slot).orders level.price level.orders := by
    apply node.queue.congr
    intro other member
    apply update_of_ne
    rintro rfl
    exact fresh.1 member
  have appended := queue.append fresh.1 (by rw [update_self, priced])
  rw [update_self] at appended
  apply rep.replace split sides levelPool rfl rfl
  · intro other member
    have apart : other ≠ slot := by
      rintro rfl
      exact fresh.2 member
    rw [LimitOrderBook.order, orderPool]
    change ((book.level level.slot).orders.append _ slot).2 other = _
    rw [queue.append_outside apart, update_of_ne apart]
    · rfl
    · exact fun inside => rep.orders_apart split inside member
  · rw [orderPool]
    refine ⟨node.priced, ?_, ?_, appended⟩
    · change (book.level level.slot).totalQty + new.remainingQty = _
      rw [node.total]
      simp only [openQty_append, openQty, LiveOrder.view]
      grind
    · change (book.level level.slot).orderCount + 1 = _
      rw [node.count]
      simp [UInt32.ofNat_add]
  · rw [orderPool]
    have accounts := rep.orderAccounts_split split
    simp only [Accounts, free] at accounts ⊢
    refine Perm.trans ?_ accounts
    simp only [queueSlots, map_append, map_cons, map_nil, LiveOrder.view_slot,
      append_assoc, cons_append, nil_append]
    simpa only [append_assoc] using
      (perm_middle : (rest ++ queueSlots level.orders ++ slot :: _).Perm _)
  · intro orderId other found
    rw [LimitOrderBook.findOrder, lookup] at found
    by_cases same : orderId = new.key.orderId
    · subst same
      rw [Finmap.lookup_insert] at found
      refine Or.inl ⟨new.view slot, by simp, Option.some.inj found, rfl⟩
    · rw [Finmap.lookup_insert_of_ne _ same] at found
      rcases rep.findOrder_cases listed found with ⟨old, member, isSlot, isId⟩ | outside
      · exact Or.inl ⟨old, mem_append_left _ member, isSlot, isId⟩
      · exact Or.inr ⟨found, outside⟩

end BookRep

end FluxTrade
