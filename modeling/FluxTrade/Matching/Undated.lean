import FluxTrade.Library.Execution
import FluxTrade.Matching.OrderBook

/-!
# Books without priorities

`undated` forgets the priorities of the stored orders. No operation of the book
reads a priority, so each commutes with forgetting, its result and its fault
included: where the source puts orders is decided by the links alone.
-/

namespace FluxTrade

open LinkedList Execution

/-- An order without its priority. -/
def LiveOrder.undated (node : LiveOrder) : LiveOrder := { node with prioritySeq := 0 }

/-- A callback without the priority of its order. -/
def BookEvent.undated : BookEvent → BookEvent
  | orderInserted order => orderInserted order.undated
  | orderCancelled order => orderCancelled order.undated
  | orderFilled order filledQty => orderFilled order.undated filledQty
  | priceLevelCreated price side => priceLevelCreated price side
  | priceLevelRemoved price side => priceLevelRemoved price side

/-- A book without the priorities of its orders. -/
def LimitOrderBook.undated (book : LimitOrderBook) : LimitOrderBook :=
  { book with
    listener := book.listener.map (List.map BookEvent.undated)
    orderPool := book.orderPool.map LiveOrder.undated }

/-- Forgetting twice is forgetting once. -/
theorem LimitOrderBook.undated_undated (book : LimitOrderBook) :
    book.undated.undated = book.undated := by
  have events (event : BookEvent) : event.undated.undated = event.undated := by
    cases event <;> rfl
  unfold undated
  cases book.listener with
  | none => rfl
  | some told => simp [ObjectPool.map, LiveOrder.undated, events]

/-! ## Queues -/

namespace IntrusiveOrderList

/-- The orders of a store without their priorities. -/
def undatedStore (orders : Nat → LiveOrder) : Nat → LiveOrder := fun slot => (orders slot).undated

/-- A change that reads no priority commutes with forgetting. -/
theorem undatedStore_modifyAt {change : LiveOrder → LiveOrder}
    (commutes : ∀ node, (change node).undated = change node.undated) (orders : Nat → LiveOrder)
    (slot : Nat) :
    modifyAt (undatedStore orders) slot change = undatedStore (modifyAt orders slot change) :=
  (map_modifyAt commutes orders slot).symm

variable (list : IntrusiveOrderList) (orders : Nat → LiveOrder) (order : Nat)

/-- Linking an order reads no priority. -/
theorem append_undated : list.append (undatedStore orders) order =
    ((list.append orders order).1, undatedStore (list.append orders order).2) := by
  unfold append
  rw [undatedStore_modifyAt (by exact fun _ => rfl)]
  cases list.tail with
  | none => rfl
  | some tail =>
    dsimp only
    rw [undatedStore_modifyAt (by exact fun _ => rfl)]

/-- Nor does joining its predecessor. -/
theorem unlinkPrev_undated : list.unlinkPrev (undatedStore orders) order =
    ((list.unlinkPrev orders order).1, undatedStore (list.unlinkPrev orders order).2) := by
  have prev : (undatedStore orders order).prev = (orders order).prev := rfl
  unfold unlinkPrev
  rw [prev]
  cases (orders order).prev with
  | none => rfl
  | some prev =>
    dsimp only
    rw [← undatedStore_modifyAt (by exact fun _ => rfl)]
    rfl

/-- Nor does joining its successor. -/
theorem unlinkNext_undated : list.unlinkNext (undatedStore orders) order =
    ((list.unlinkNext orders order).1, undatedStore (list.unlinkNext orders order).2) := by
  have next : (undatedStore orders order).next = (orders order).next := rfl
  unfold unlinkNext
  rw [next]
  cases (orders order).next with
  | none => rfl
  | some next =>
    dsimp only
    rw [← undatedStore_modifyAt (by exact fun _ => rfl)]
    rfl

/-- Nor does unlinking it. -/
theorem remove_undated : list.remove (undatedStore orders) order =
    ((list.remove orders order).1, undatedStore (list.remove orders order).2) := by
  unfold remove
  dsimp only
  rw [unlinkPrev_undated]
  dsimp only
  rw [unlinkNext_undated, undatedStore_modifyAt (by exact fun _ => rfl)]

end IntrusiveOrderList

/-! ## Operations -/

namespace LimitOrderBook

section

variable (book : LimitOrderBook)

/-- The levels hold no priority. -/
@[simp]
theorem undated_level (slot : Nat) : book.undated.level slot = book.level slot := rfl

/-- Nor do the sides. -/
@[simp]
theorem undated_sides : book.undated.sides = book.sides := rfl

/-- The index holds no priority. -/
@[simp]
theorem undated_findOrder (orderId : OrderId) :
    book.undated.findOrder orderId = book.findOrder orderId := rfl

/-- Nor do the prices. -/
@[simp]
theorem undated_locate (price : Price) : book.undated.locate price = book.locate price := rfl

/-- The listener hears undated events. -/
theorem undated_notify (event : BookEvent) :
    book.undated.notify event.undated = (book.notify event).undated := by
  unfold notify undated
  cases book.listener <;> rfl

/-- Changing a level reads no priority. -/
theorem undated_modifyLevel (slot : Nat) (change : PriceLevelNode → PriceLevelNode) :
    book.undated.modifyLevel slot change = (book.modifyLevel slot change).undated := rfl

/-- A change of an order and its undated form. -/
theorem undated_modifyOrder {change change' : LiveOrder → LiveOrder}
    (commutes : ∀ node, (change node).undated = change' node.undated) (slot : Nat) :
    book.undated.modifyOrder slot change' = (book.modifyOrder slot change).undated := by
  unfold modifyOrder undated ObjectPool.modify ObjectPool.map
  dsimp only
  rw [map_modifyAt commutes]

/-- Queueing an order reads no priority. -/
theorem undated_appendTo (level order : Nat) :
    book.undated.appendTo level order = (book.appendTo level order).undated := by
  have stored : book.undated.orderPool.storage =
      IntrusiveOrderList.undatedStore book.orderPool.storage := rfl
  unfold appendTo
  dsimp only
  rw [undated_level, stored, IntrusiveOrderList.append_undated]
  rfl

/-- Nor does taking it out. -/
theorem undated_removeFrom (level order : Nat) :
    book.undated.removeFrom level order = (book.removeFrom level order).undated := by
  have stored : book.undated.orderPool.storage =
      IntrusiveOrderList.undatedStore book.orderPool.storage := rfl
  unfold removeFrom
  dsimp only
  rw [undated_level, stored, IntrusiveOrderList.remove_undated]
  rfl

/-- Nor does releasing it. -/
theorem undated_forget (orderId : OrderId) (order : Nat) :
    book.undated.forget orderId order = (book.forget orderId order).undated := by
  unfold forget undated
  dsimp only
  rw [ObjectPool.deallocate_map]

/-- Nor does dropping its level. -/
theorem undated_dropEmptyLevel (side : Side) (level : Nat) (price : Price) :
    book.undated.dropEmptyLevel side level price =
      (book.dropEmptyLevel side level price).undated := by
  unfold dropEmptyLevel
  rw [undated_level]
  split
  · rw [← undated_notify]
    rfl
  · rfl

/-- Nor does finding a level. -/
theorem undated_findOrCreateLevel (side : Side) (price : Price) :
    book.undated.findOrCreateLevel side price =
      (book.findOrCreateLevel side price).map fun found => (found.1, found.2.undated) := by
  unfold findOrCreateLevel
  rw [undated_sides]
  cases (book.sides side).findLevel price with
  | some level => rfl
  | none =>
    have pool : book.undated.levelPool = book.levelPool := rfl
    dsimp only
    rw [pool]
    cases SideBook.createLevel side (book.sides side) price book.levelPool with
    | error fault => rfl
    | ok created =>
      dsimp only [Except.map]
      rw [← undated_notify]
      rfl

/-- Insertion under any priority. -/
theorem undated_insert (order : Order) (prioritySeq : UInt64) :
    book.undated.insert order 0 =
      (book.insert order prioritySeq).map fun inserted => (inserted.1, inserted.2.undated) := by
  have allocated : book.undated.orderPool.allocate (order.live 0) = _ :=
    book.orderPool.allocate_map LiveOrder.undated (order.live prioritySeq)
  unfold insert
  rw [allocated]
  apply bind_image
  rintro ⟨slot, orderPool⟩
  dsimp only
  have found := undated_findOrCreateLevel
    { book with orderPool, lookup := book.lookup.insert order.orderId slot } order.side order.price
  refine (congrArg (Except.bind · _) found).trans (bind_image ?_ _)
  rintro ⟨level, book⟩
  dsimp only
  rw [undated_appendTo, undated_modifyLevel]
  exact congrArg (fun book => Except.ok (slot, book)) (undated_notify _ (.orderInserted _))

/-- A cancel reads no priority. -/
theorem undated_cancel (orderId : OrderId) :
    book.undated.cancel orderId =
      (book.cancel orderId).map fun cancelled => (cancelled.1, cancelled.2.undated) := by
  have told (book : LimitOrderBook) (order : Nat) :
      book.undated.notify (.orderCancelled (book.undated.order order)) =
        (book.notify (.orderCancelled (book.order order))).undated :=
    book.undated_notify (.orderCancelled (book.order order))
  unfold cancel
  rw [undated_findOrder]
  cases book.findOrder orderId with
  | none => rfl
  | some order =>
    have price : (book.undated.order order).price = (book.order order).price := rfl
    dsimp only
    rw [undated_locate, price]
    cases book.locate (book.order order).price with
    | none => rfl
    | some found =>
      dsimp only
      rw [undated_removeFrom, undated_modifyLevel, told, undated_dropEmptyLevel, undated_forget]
      rfl

/-- A change of quantity, whatever priority an increase is given. -/
theorem undated_modifyQty (orderId : OrderId) (newQty : Quantity) (prioritySeq : UInt64) :
    book.undated.modifyQty orderId newQty 0 =
      (book.modifyQty orderId newQty prioritySeq).map
        fun modified => (modified.1, modified.2.undated) := by
  unfold modifyQty
  rw [undated_findOrder]
  cases book.findOrder orderId with
  | none => rfl
  | some order =>
    have price : (book.undated.order order).price = (book.order order).price := rfl
    have remaining : (book.undated.order order).remainingQty = (book.order order).remainingQty :=
      rfl
    dsimp only
    rw [undated_locate, price]
    cases book.locate (book.order order).price with
    | none => rfl
    | some found =>
      dsimp only
      rw [remaining]
      split
      · have decreased (node : LiveOrder) :
            LiveOrder.undated { node with remainingQty := newQty } =
              { node.undated with remainingQty := newQty } := rfl
        rw [undated_modifyLevel, undated_modifyOrder _ decreased]
        rfl
      · split
        · have increased (node : LiveOrder) :
              LiveOrder.undated { node with remainingQty := newQty, prioritySeq } =
                { node.undated with remainingQty := newQty, prioritySeq := 0 } := rfl
          rw [undated_modifyLevel, undated_modifyOrder _ increased, undated_removeFrom,
            undated_appendTo]
          rfl
        · rfl

/-- Nor does booking a fill. -/
theorem undated_applyFill (level order : Nat) (filledQty : Quantity) :
    book.undated.applyFill level order filledQty =
      (book.applyFill level order filledQty).undated := by
  have told (book : LimitOrderBook) :
      book.undated.notify (.orderFilled (book.undated.order order) filledQty) =
        (book.notify (.orderFilled (book.order order) filledQty)).undated :=
    book.undated_notify (.orderFilled (book.order order) filledQty)
  have filled (node : LiveOrder) :
      LiveOrder.undated { node with remainingQty := node.remainingQty - filledQty } =
        { node.undated with remainingQty := node.undated.remainingQty - filledQty } := rfl
  unfold applyFill
  dsimp only
  rw [undated_modifyLevel, undated_modifyOrder _ filled, told]

/-- Nor does retiring a filled order. -/
theorem undated_retire (side : Side) (level order : Nat) :
    book.undated.retire side level order = (book.retire side level order).undated := by
  unfold retire
  dsimp only
  rw [undated_removeFrom, undated_modifyLevel, undated_dropEmptyLevel, undated_forget]
  rfl

/-- A fill reads no priority. -/
theorem undated_fillOrder (order : Nat) (filledQty : Quantity) :
    book.undated.fillOrder order filledQty = (book.fillOrder order filledQty).map undated := by
  have price : (book.undated.order order).price = (book.order order).price := rfl
  have remaining (book : LimitOrderBook) :
      (book.undated.order order).remainingQty = (book.order order).remainingQty := rfl
  unfold fillOrder
  rw [remaining, undated_locate, price]
  split
  · rfl
  · cases book.locate (book.order order).price with
    | none => rfl
    | some found =>
      dsimp only
      rw [undated_applyFill, remaining]
      split
      · rw [undated_retire]
        rfl
      · rfl

end

/-! ## Clearing -/

/-- Releasing a queue reads no priority. -/
theorem releaseOrders_undated (fuel : Nat) (start : Option Nat) (pool : OrderPool) :
    releaseOrders fuel start (pool.map LiveOrder.undated) =
      (releaseOrders fuel start pool).map (ObjectPool.map LiveOrder.undated) := by
  induction fuel generalizing start pool with
  | zero => cases start <;> rfl
  | succ fuel ih =>
    cases start with
    | none => rfl
    | some order =>
      simp only [releaseOrders, ObjectPool.deallocate_map]
      exact ih _ _

/-- Nor does releasing the levels. -/
theorem releaseLevels_undated (fuel : Nat) (start : Option Nat) (levels : LevelPool)
    (orders : OrderPool) :
    releaseLevels fuel start levels (orders.map LiveOrder.undated) =
      (releaseLevels fuel start levels orders).map
        fun released => (released.1, released.2.map LiveOrder.undated) := by
  induction fuel generalizing start levels orders with
  | zero => cases start <;> rfl
  | succ fuel ih =>
    cases start with
    | none => rfl
    | some level =>
      simp only [releaseLevels, releaseOrders_undated]
      exact bind_image (fun released => ih _ _ released) _

/-- Nor does clearing a side. -/
theorem undated_clearSide (book : LimitOrderBook) (side : Side) :
    book.undated.clearSide side = (book.clearSide side).map undated := by
  unfold clearSide
  refine (congrArg (Except.bind · _) (releaseLevels_undated _ _ _ _)).trans (bind_image ?_ _)
  exact fun _ => rfl

/-- Nor does clearing the book. -/
theorem undated_clear (book : LimitOrderBook) : book.undated.clear = book.clear.map undated := by
  unfold clear
  refine (congrArg (Except.bind · _) (undated_clearSide book .buy)).trans (bind_image ?_ _)
  intro bought
  refine (congrArg (Except.bind · _) (undated_clearSide bought .sell)).trans (bind_image ?_ _)
  exact fun _ => rfl

end LimitOrderBook

end FluxTrade
