import FluxTrade.Matching.BookView

/-!
# The limit order book

`LimitOrderBook` as the source computes it: pools, intrusive links, the two
price indices and the identifier lookup. A call that would fail an assertion,
exhaust a pool or follow links without end returns a fault. The source finds
the side of a resting order by asking the bid index for its price and, if the
bids have no such level, the ask index; `locate` is that search.
-/

namespace FluxTrade

open LinkedList

/-- The callbacks of `IOrderBookListener`. -/
inductive BookEvent where
  | orderInserted (order : LiveOrder)
  | orderCancelled (order : LiveOrder)
  | orderFilled (order : LiveOrder) (filledQty : Quantity)
  | priceLevelCreated (price : Price) (side : Side)
  | priceLevelRemoved (price : Price) (side : Side)
  deriving DecidableEq

/-- Slots of the order pool. -/
def orderCapacity : Nat := 10240

/-- `ObjectPool<LiveOrder, 10240>`. -/
abbrev OrderPool := ObjectPool LiveOrder orderCapacity

/-- `OrderLookup`. -/
abbrev OrderLookup := Finmap fun _ : OrderId => Nat

/-- The node that `insert` builds before linking it. -/
def Order.live (order : Order) (prioritySeq : UInt64) : LiveOrder :=
  ⟨⟨order.symbolId, order.orderId⟩, order.price, order.qty, prioritySeq, none, none⟩

/-- `LimitOrderBook`. -/
structure LimitOrderBook where
  /-- `listener_`: the callbacks received so far, the last one first, if there is a listener. -/
  listener : Option (List BookEvent)
  /-- `bids_` and `asks_`. -/
  sides : Side → SideBook
  lookup : OrderLookup
  levelPool : LevelPool
  orderPool : OrderPool

namespace LimitOrderBook

/-- A book as constructed. -/
def new (listener : Option (List BookEvent)) : LimitOrderBook :=
  ⟨listener, fun _ => ⟨none, ∅⟩, ∅, ObjectPool.new, ObjectPool.new⟩

/-- Call the listener, if any. -/
def notify (book : LimitOrderBook) (event : BookEvent) : LimitOrderBook :=
  { book with listener := book.listener.map (event :: ·) }

/-- `find_order`. -/
def findOrder (book : LimitOrderBook) (orderId : OrderId) : Option Nat :=
  book.lookup.lookup orderId

/-- The order behind a pointer. -/
def order (book : LimitOrderBook) (slot : Nat) : LiveOrder := book.orderPool.storage slot

/-- The level behind a pointer. -/
def level (book : LimitOrderBook) (slot : Nat) : PriceLevelNode := book.levelPool.storage slot

/-- `best_bid_level` and `best_ask_level`. -/
def bestLevel (book : LimitOrderBook) (side : Side) : Option Nat := (book.sides side).bestLevel

/-- `best_bid` and `best_ask`: zero for an empty side. -/
def bestPrice (book : LimitOrderBook) (side : Side) : Price :=
  match book.bestLevel side with
  | some slot => (book.level slot).price
  | none => 0

/-- The search for the level of an order's price: bids first, then asks. -/
def locate (book : LimitOrderBook) (price : Price) : Option (Side × Nat) :=
  match (book.sides .buy).findLevel price with
  | some level => some (.buy, level)
  | none => ((book.sides .sell).findLevel price).map fun level => (.sell, level)

/-- Write to a level. -/
def modifyLevel (book : LimitOrderBook) (slot : Nat) (change : PriceLevelNode → PriceLevelNode) :
    LimitOrderBook :=
  { book with levelPool := book.levelPool.modify slot change }

/-- Write to an order. -/
def modifyOrder (book : LimitOrderBook) (slot : Nat) (change : LiveOrder → LiveOrder) :
    LimitOrderBook :=
  { book with orderPool := book.orderPool.modify slot change }

/-- `level->orders.append(order)`. -/
def appendTo (book : LimitOrderBook) (level order : Nat) : LimitOrderBook :=
  let appended := (book.level level).orders.append book.orderPool.storage order
  { book with
    levelPool := book.levelPool.modify level fun node => { node with orders := appended.1 }
    orderPool := { book.orderPool with storage := appended.2 } }

/-- `level->orders.remove(order)`. -/
def removeFrom (book : LimitOrderBook) (level order : Nat) : LimitOrderBook :=
  let removed := (book.level level).orders.remove book.orderPool.storage order
  { book with
    levelPool := book.levelPool.modify level fun node => { node with orders := removed.1 }
    orderPool := { book.orderPool with storage := removed.2 } }

/-- Find the level of a price, or create it and tell the listener. -/
def findOrCreateLevel (book : LimitOrderBook) (side : Side) (price : Price) :
    Except Fault (Nat × LimitOrderBook) :=
  match (book.sides side).findLevel price with
  | some level => .ok (level, book)
  | none =>
    match SideBook.createLevel side (book.sides side) price book.levelPool with
    | .error fault => .error fault
    | .ok (level, half, levelPool) =>
      let book := { book with sides := Function.update book.sides side half, levelPool }
      .ok (level, book.notify (.priceLevelCreated price side))

/-- `LimitOrderBook::insert`: the whole quantity of the order rests. -/
def insert (book : LimitOrderBook) (order : Order) (prioritySeq : UInt64) :
    Except Fault (Nat × LimitOrderBook) := do
  let (slot, orderPool) ← book.orderPool.allocate (order.live prioritySeq)
  let book := { book with orderPool, lookup := book.lookup.insert order.orderId slot }
  let (level, book) ← book.findOrCreateLevel order.side order.price
  let book := book.appendTo level slot
  let book := book.modifyLevel level fun node =>
    { node with totalQty := node.totalQty + order.qty, orderCount := node.orderCount + 1 }
  .ok (slot, book.notify (.orderInserted (book.order slot)))

/-- Remove a level that has become empty and tell the listener. -/
def dropEmptyLevel (book : LimitOrderBook) (side : Side) (level : Nat) (price : Price) :
    LimitOrderBook :=
  if (book.level level).orders.isEmpty then
    let removed := (book.sides side).removeLevel book.levelPool level
    let book := { book with
      sides := Function.update book.sides side removed.1, levelPool := removed.2 }
    book.notify (.priceLevelRemoved price side)
  else book

/-- Erase an identifier from the lookup and return the order to the pool. -/
def forget (book : LimitOrderBook) (orderId : OrderId) (order : Nat) : LimitOrderBook :=
  { book with
    lookup := book.lookup.erase orderId
    orderPool := book.orderPool.deallocate order }

/-- `LimitOrderBook::cancel`. -/
def cancel (book : LimitOrderBook) (orderId : OrderId) : Except Fault (Bool × LimitOrderBook) :=
  match book.findOrder orderId with
  | none => .ok (false, book)
  | some order =>
    match book.locate (book.order order).price with
    | none => .error .assertion
    | some (side, level) =>
      let book := book.removeFrom level order
      let remaining := (book.order order).remainingQty
      let book := book.modifyLevel level fun node =>
        { node with totalQty := node.totalQty - remaining, orderCount := node.orderCount - 1 }
      let book := book.notify (.orderCancelled (book.order order))
      let book := book.dropEmptyLevel side level (book.order order).price
      .ok (true, book.forget orderId order)

/-- `LimitOrderBook::modify_qty`: a decrease keeps the place in the queue, an increase moves the
order to the tail under a new priority. -/
def modifyQty (book : LimitOrderBook) (orderId : OrderId) (newQty : Quantity)
    (prioritySeq : UInt64) : Except Fault (Bool × LimitOrderBook) :=
  match book.findOrder orderId with
  | none => .ok (false, book)
  | some order =>
    match book.locate (book.order order).price with
    | none => .error .assertion
    | some (_, level) =>
      let oldQty := (book.order order).remainingQty
      if newQty < oldQty then
        let book := book.modifyLevel level fun node =>
          { node with totalQty := node.totalQty - (oldQty - newQty) }
        .ok (true, book.modifyOrder order fun node => { node with remainingQty := newQty })
      else if oldQty < newQty then
        let book := book.modifyLevel level fun node =>
          { node with totalQty := node.totalQty + (newQty - oldQty) }
        let book := book.modifyOrder order fun node =>
          { node with remainingQty := newQty, prioritySeq }
        .ok (true, (book.removeFrom level order).appendTo level order)
      else .ok (true, book)

/-- The first part of `fill_order`: both quantities shrink and the listener is told. -/
def applyFill (book : LimitOrderBook) (level order : Nat) (filledQty : Quantity) :
    LimitOrderBook :=
  let book := book.modifyLevel level fun node =>
    { node with totalQty := node.totalQty - filledQty }
  let book := book.modifyOrder order fun node =>
    { node with remainingQty := node.remainingQty - filledQty }
  book.notify (.orderFilled (book.order order) filledQty)

/-- The second part of `fill_order`: an order without open quantity leaves the book. -/
def retire (book : LimitOrderBook) (side : Side) (level order : Nat) : LimitOrderBook :=
  let book := book.removeFrom level order
  let book := book.modifyLevel level fun node => { node with orderCount := node.orderCount - 1 }
  let book := book.dropEmptyLevel side level (book.order order).price
  book.forget (book.order order).key.orderId order

/-- `LimitOrderBook::fill_order`. -/
def fillOrder (book : LimitOrderBook) (order : Nat) (filledQty : Quantity) :
    Except Fault LimitOrderBook :=
  if (book.order order).remainingQty < filledQty then .error .assertion
  else
    match book.locate (book.order order).price with
    | none => .error .assertion
    | some (side, level) =>
      let book := book.applyFill level order filledQty
      if (book.order order).remainingQty = 0 then .ok (book.retire side level order)
      else .ok book

/-- The inner loop of `clear`: return the orders of one level. -/
def releaseOrders : Nat → Option Nat → OrderPool → Except Fault OrderPool
  | _, none, pool => .ok pool
  | 0, some _, _ => .error .outOfFuel
  | fuel + 1, some order, pool =>
    releaseOrders fuel (pool.storage order).next (pool.deallocate order)

/-- The outer loop of `clear`: return the levels of one side with their orders. -/
def releaseLevels : Nat → Option Nat → LevelPool → OrderPool →
    Except Fault (LevelPool × OrderPool)
  | _, none, levels, orders => .ok (levels, orders)
  | 0, some _, _, _ => .error .outOfFuel
  | fuel + 1, some level, levels, orders => do
    let orders ← releaseOrders orderCapacity (levels.storage level).orders.head orders
    releaseLevels fuel (levels.storage level).next (levels.deallocate level) orders

/-- `BidBook::clear` and `AskBook::clear`. -/
def clearSide (book : LimitOrderBook) (side : Side) : Except Fault LimitOrderBook := do
  let (levelPool, orderPool) ←
    releaseLevels levelCapacity (book.bestLevel side) book.levelPool book.orderPool
  .ok { book with sides := Function.update book.sides side ⟨none, ∅⟩, levelPool, orderPool }

/-- `LimitOrderBook::clear`. -/
def clear (book : LimitOrderBook) : Except Fault LimitOrderBook := do
  let book ← book.clearSide .buy
  let book ← book.clearSide .sell
  .ok { book with lookup := ∅ }

/-! ## Reading a book -/

/-- The queue of a level, read along its links. -/
def queueOf (book : LimitOrderBook) (level : Nat) : List OrderView :=
  (walk (fun slot => (book.order slot).next) orderCapacity (book.level level).orders.head).map
    fun slot => (book.order slot).view slot

/-- The levels of a side, read along their links. -/
def levelsOf (book : LimitOrderBook) (side : Side) : List LevelView :=
  (walk (fun slot => (book.level slot).next) levelCapacity (book.bestLevel side)).map
    fun slot => ⟨slot, (book.level slot).price, book.queueOf slot⟩

end LimitOrderBook

end FluxTrade
