import FluxTrade.Library.Execution
import FluxTrade.Matching.BookOps

/-!
# Level lists of any book

If a price stands on both sides, `cancel` looks for an ask in the bid level of its
price, and the queues of the book are no longer what they should be. Its level
lists are: `bare` forgets the queues, and creating and removing a level commute
with forgetting. So `insert` fails only for want of a slot, and `cancel` only for
want of a level, in every book that was built by calls of the two.
-/

namespace FluxTrade

open LinkedList Execution

/-- A level without its queue. -/
def PriceLevelNode.bare (node : PriceLevelNode) : PriceLevelNode :=
  { blankLevel node.price with next := node.next, prev := node.prev }

/-- The level lists of a book and no orders. -/
def LimitOrderBook.bare (book : LimitOrderBook) : LimitOrderBook :=
  { LimitOrderBook.new none with
    sides := book.sides
    levelPool := book.levelPool.map PriceLevelNode.bare }

/-! ## Levels without their queues -/

/-- The levels of a store without their queues. -/
def bareStore (levels : Nat → PriceLevelNode) : Nat → PriceLevelNode := fun slot =>
  (levels slot).bare

section Store

variable (levels : Nat → PriceLevelNode)

/-- A change that reads no queue commutes with forgetting. -/
theorem bareStore_modifyAt {change : PriceLevelNode → PriceLevelNode}
    (commutes : ∀ node, (change node).bare = change node.bare) (slot : Nat) :
    modifyAt (bareStore levels) slot change = bareStore (modifyAt levels slot change) :=
  (map_modifyAt commutes levels slot).symm

/-- Setting a forward link reads no queue. -/
theorem bareStore_setNext (slot target : Option Nat) :
    setNext (bareStore levels) slot target = bareStore (setNext levels slot target) := by
  cases slot with
  | none => rfl
  | some slot =>
    dsimp only [setNext]
    rw [bareStore_modifyAt levels (by exact fun _ => rfl)]

/-- Nor does setting a backward link. -/
theorem bareStore_setPrev (slot target : Option Nat) :
    setPrev (bareStore levels) slot target = bareStore (setPrev levels slot target) := by
  cases slot with
  | none => rfl
  | some slot =>
    dsimp only [setPrev]
    rw [bareStore_modifyAt levels (by exact fun _ => rfl)]

/-- Nor does linking a node. -/
theorem bareStore_linkBetween (node : Nat) (before after : Option Nat) :
    linkBetween (bareStore levels) node before after =
      bareStore (linkBetween levels node before after) := by
  unfold linkBetween
  dsimp only
  rw [bareStore_modifyAt levels (by exact fun _ => rfl), bareStore_setPrev, bareStore_setNext]

/-- Nor does closing a gap. -/
theorem bareStore_joinAround (before after : Option Nat) :
    joinAround (bareStore levels) before after = bareStore (joinAround levels before after) := by
  unfold joinAround
  rw [bareStore_setNext, bareStore_setPrev]

end Store

namespace SideBook

/-- Nor does the search for a place. -/
theorem insertionPoint_bare (side : Side) (levels : Nat → PriceLevelNode) (price : Price)
    (fuel current : Nat) :
    insertionPoint side (bareStore levels) price fuel current =
      insertionPoint side levels price fuel current := by
  induction fuel generalizing current with
  | zero => rfl
  | succ fuel ih =>
    have next : (bareStore levels current).next = (levels current).next := rfl
    unfold insertionPoint
    rw [next]
    cases (levels current).next with
    | none => rfl
    | some next =>
      have price : (bareStore levels next).price = (levels next).price := rfl
      dsimp only
      rw [price, ih]

/-- Nor does making a level. -/
theorem createLevel_bare (side : Side) (half : SideBook) (price : Price) (pool : LevelPool) :
    createLevel side half price (pool.map PriceLevelNode.bare) =
      (createLevel side half price pool).map fun made =>
        (made.1, made.2.1, made.2.2.map PriceLevelNode.bare) := by
  have allocated : (pool.map PriceLevelNode.bare).allocate (blankLevel price) = _ :=
    pool.allocate_map PriceLevelNode.bare (blankLevel price)
  unfold createLevel
  rw [allocated]
  apply bind_image
  rintro ⟨node, pool⟩
  have stored : (pool.map PriceLevelNode.bare).storage = bareStore pool.storage := rfl
  dsimp only
  rw [stored]
  cases half.bestLevel with
  | none =>
    dsimp only
    rw [bareStore_linkBetween]
    rfl
  | some best =>
    have bestPrice : (bareStore pool.storage best).price = (pool.storage best).price := rfl
    dsimp only
    rw [bestPrice, insertionPoint_bare]
    split
    · rw [bareStore_linkBetween]
      rfl
    · cases insertionPoint side pool.storage price levelCapacity best with
      | error fault => rfl
      | ok current =>
        have next : (bareStore pool.storage current).next = (pool.storage current).next := rfl
        dsimp only [bind, Except.bind]
        rw [next, bareStore_linkBetween]
        rfl

/-- Nor does removing one. -/
theorem removeLevel_bare (half : SideBook) (pool : LevelPool) (node : Nat) :
    half.removeLevel (pool.map PriceLevelNode.bare) node =
      ((half.removeLevel pool node).1,
        (half.removeLevel pool node).2.map PriceLevelNode.bare) := by
  have stored : (pool.map PriceLevelNode.bare).storage = bareStore pool.storage := rfl
  have price : (bareStore pool.storage node).price = (pool.storage node).price := rfl
  have next : (bareStore pool.storage node).next = (pool.storage node).next := rfl
  have prev : (bareStore pool.storage node).prev = (pool.storage node).prev := rfl
  unfold removeLevel
  dsimp only
  rw [stored, price, next, prev, bareStore_joinAround, bareStore_joinAround]
  split
  · rw [← ObjectPool.deallocate_map]
    rfl
  · rw [← ObjectPool.deallocate_map]
    rfl

end SideBook

namespace LimitOrderBook

variable {book : LimitOrderBook}

/-- The listener is no part of the levels. -/
theorem bare_notify (book : LimitOrderBook) (event : BookEvent) :
    (book.notify event).bare = book.bare := rfl

/-- Writing to a level without touching its price and links. -/
theorem bare_modifyLevel {change : PriceLevelNode → PriceLevelNode}
    (kept : ∀ node, (change node).bare = node.bare) (book : LimitOrderBook) (slot : Nat) :
    (book.modifyLevel slot change).bare = book.bare := by
  have stored : (fun other => (modifyAt book.levelPool.storage slot change other).bare) =
      fun other => (book.levelPool.storage other).bare :=
    funext (read_modifyAt_of_eq PriceLevelNode.bare _ slot change (kept _))
  unfold bare modifyLevel ObjectPool.map
  dsimp only [ObjectPool.modify]
  rw [stored]

/-- Queues may be written to as well. -/
theorem bare_appendTo (book : LimitOrderBook) (level order : Nat) :
    (book.appendTo level order).bare = book.bare :=
  bare_modifyLevel (by exact fun _ => rfl) book level

/-- Taking an order out keeps the links. -/
theorem bare_removeFrom (book : LimitOrderBook) (level order : Nat) :
    (book.removeFrom level order).bare = book.bare :=
  bare_modifyLevel (by exact fun _ => rfl) book level

/-- Finding a level reads no queue. -/
theorem bare_findOrCreateLevel (book : LimitOrderBook) (side : Side) (price : Price) :
    book.bare.findOrCreateLevel side price =
      (book.findOrCreateLevel side price).map fun found => (found.1, found.2.bare) := by
  have sides : book.bare.sides = book.sides := rfl
  have pool : book.bare.levelPool = book.levelPool.map PriceLevelNode.bare := rfl
  unfold findOrCreateLevel
  rw [sides]
  cases (book.sides side).findLevel price with
  | some level => rfl
  | none =>
    dsimp only
    rw [pool, SideBook.createLevel_bare]
    cases SideBook.createLevel side (book.sides side) price book.levelPool with
    | error fault => rfl
    | ok created => rfl

/-- An empty pool fails the creation of a level. -/
theorem findOrCreateLevel_full {side : Side} {price : Price}
    (missing : (book.sides side).findLevel price = none)
    (exhausted : book.levelPool.freeList = []) :
    book.findOrCreateLevel side price = .error .badAlloc := by
  simp [findOrCreateLevel, missing, SideBook.createLevel, ObjectPool.allocate, exhausted, bind,
    Except.bind]

/-! ## Linked level lists -/

/-- The level lists of both sides are linked, indexed and ordered, whatever their queues hold. -/
def LevelsLinked (book : LimitOrderBook) : Prop := ∃ view, BookRep book.bare view

/-- The book has a slot for one more order and one for its level, if that is missing. -/
def Admits (book : LimitOrderBook) (side : Side) (price : Price) : Prop :=
  book.orderPool.freeList ≠ [] ∧
    ((book.sides side).findLevel price = none → book.levelPool.freeList ≠ [])
  deriving Decidable

/-- The price of the order under the identifier, if there is one, has a level. -/
def Locates (book : LimitOrderBook) (orderId : OrderId) : Prop :=
  ∀ slot ∈ book.findOrder orderId, book.locate (book.order slot).price ≠ none
  deriving Decidable

/-- A located level is the one that the index of its side has for the price. -/
theorem findLevel_of_locate {price : Price} {side : Side} {level : Nat}
    (located : book.locate price = some (side, level)) :
    (book.sides side).findLevel price = some level := by
  unfold locate at located
  cases bid : (book.sides .buy).findLevel price with
  | some found =>
    rw [bid] at located
    cases located
    exact bid
  | none =>
    rw [bid] at located
    obtain ⟨found, ask, same⟩ := Option.map_eq_some_iff.mp located
    cases same
    exact ask

namespace LevelsLinked

/-- The links decide the invariant. -/
theorem of_bare {book' : LimitOrderBook} (linked : book.LevelsLinked)
    (same : book'.bare = book.bare) : book'.LevelsLinked := by
  unfold LevelsLinked
  rw [same]
  exact linked

/-- A book with sound queues has linked level lists. -/
theorem of_rep {view : BookView} (rep : BookRep book view) : book.LevelsLinked := by
  let emptied (level : LevelView) : LevelView := { level with orders := [] }
  have slots (side : Side) : levelSlots ((view side).map emptied) = levelSlots (view side) := by
    rw [levelSlots, List.map_map]
    rfl
  have noOrders (side : Side) : orderSlots ((view side).map emptied) = [] := by
    rw [orderSlots, List.flatMap_map]
    exact List.flatMap_eq_nil_iff.mpr fun _ _ => rfl
  refine ⟨fun side => (view side).map emptied, fun side => ?_, ?_, ?_, ?_⟩
  · have near := rep.sides side
    constructor
    · rw [slots]
      exact near.chain
    · intro price slot
      constructor
      · intro found
        obtain ⟨level, member, priced, slotted⟩ := (near.index price slot).mp found
        exact ⟨emptied level, List.mem_map_of_mem member, priced, slotted⟩
      · rintro ⟨_, member, priced, slotted⟩
        obtain ⟨level, listed, rfl⟩ := List.mem_map.mp member
        exact (near.index price slot).mpr ⟨level, listed, priced, slotted⟩
    · exact List.pairwise_map.mpr near.sorted
    · intro level member
      obtain ⟨old, listed, rfl⟩ := List.mem_map.mp member
      exact ⟨(near.nodes old listed).priced, rfl, rfl, QueueRep.nil _ _⟩
  · rw [slots, slots]
    exact rep.levelAccounts
  · rw [noOrders, noOrders]
    exact ObjectPool.new_accounts
  · intro orderId slot found
    cases found

/-- A new book is linked. -/
theorem new (listener : Option (List BookEvent)) : (LimitOrderBook.new listener).LevelsLinked :=
  of_rep (BookRep.new listener)

variable (linked : book.LevelsLinked)
include linked

/-- The level of a price is found or created, unless no slot is free for it. -/
theorem findOrCreateLevel (side : Side) (price : Price) :
    (∃ level book', book.findOrCreateLevel side price = .ok (level, book') ∧
      book'.LevelsLinked) ∨
    book.findOrCreateLevel side price = .error .badAlloc ∧ book.levelPool.freeList = [] := by
  obtain ⟨view, rep⟩ := linked
  have image := book.bare_findOrCreateLevel side price
  rcases rep.findOrCreateLevel side price with ⟨_, node, _, found, kept, _⟩ | ⟨failed, exhausted⟩
  · rw [found] at image
    cases made : book.findOrCreateLevel side price with
    | error fault =>
      rw [made] at image
      cases image
    | ok result =>
      rw [made] at image
      cases image
      exact Or.inl ⟨_, _, rfl, _, kept⟩
  · rw [failed] at image
    cases made : book.findOrCreateLevel side price with
    | error fault =>
      rw [made] at image
      cases image
      exact Or.inr ⟨rfl, exhausted⟩
    | ok result =>
      rw [made] at image
      cases image

/-- `insert` returns exactly if the book admits the order, and keeps the level lists linked. -/
theorem insert_decided (order : Order) (prioritySeq : UInt64) :
    (∃ slot book', book.insert order prioritySeq = .ok (slot, book') ∧ book'.LevelsLinked) ∧
      book.Admits order.side order.price ∨
    book.insert order prioritySeq = .error .badAlloc ∧ ¬book.Admits order.side order.price := by
  cases free : book.orderPool.freeList with
  | nil =>
    refine Or.inr ⟨?_, fun admits => admits.1 free⟩
    simp [LimitOrderBook.insert, ObjectPool.allocate, free, bind, Except.bind]
  | cons slot rest =>
    let stored : LimitOrderBook :=
      { book with
        orderPool := ⟨Function.update book.orderPool.storage slot (order.live prioritySeq), rest⟩
        lookup := book.lookup.insert order.orderId slot }
    have inserted : book.insert order prioritySeq =
        (stored.findOrCreateLevel order.side order.price).bind fun placed =>
          let book := (placed.2.appendTo placed.1 slot).modifyLevel placed.1 fun node =>
            { node with totalQty := node.totalQty + order.qty, orderCount := node.orderCount + 1 }
          .ok (slot, book.notify (.orderInserted (book.order slot))) := by
      simp only [LimitOrderBook.insert, ObjectPool.allocate, free, bind, Except.bind]
      rfl
    have storedLinked : stored.LevelsLinked := linked
    rw [inserted]
    rcases storedLinked.findOrCreateLevel order.side order.price with
      ⟨level, placed, found, kept⟩ | ⟨failed, exhausted⟩
    · have present : (book.sides order.side).findLevel order.price = none →
          book.levelPool.freeList ≠ [] := by
        intro missing exhausted
        rw [stored.findOrCreateLevel_full missing exhausted] at found
        cases found
      rw [found]
      refine Or.inl ⟨⟨_, _, rfl, ?_⟩, by simp [free], present⟩
      apply kept.of_bare
      rw [bare_notify, bare_modifyLevel (by exact fun _ => rfl), bare_appendTo]
    · rw [failed]
      refine Or.inr ⟨rfl, fun admits => admits.2 ?_ exhausted⟩
      cases found : (book.sides order.side).findLevel order.price with
      | none => rfl
      | some level =>
        have again : stored.findOrCreateLevel order.side order.price = .ok (level, stored) := by
          unfold LimitOrderBook.findOrCreateLevel
          have same : (stored.sides order.side).findLevel order.price = some level := found
          rw [same]
        rw [again] at failed
        cases failed

/-- Removing a level of one side keeps the lists linked. -/
theorem dropEmptyLevel {side : Side} {level : Nat} {price : Price}
    (found : (book.sides side).findLevel price = some level) (told : Price) :
    (book.dropEmptyLevel side level told).LevelsLinked := by
  unfold LimitOrderBook.dropEmptyLevel
  split
  · obtain ⟨view, rep⟩ := linked
    obtain ⟨home, member, _, rfl⟩ := ((rep.sides side).index price level).mp found
    obtain ⟨front, back, split⟩ := List.append_of_mem member
    have isEmpty : home.orders = [] := ((rep.node split).queue.isEmpty_iff).mp rfl
    have removed := SideBook.removeLevel_bare (book.sides side) book.levelPool home.slot
    refine ⟨_, rep.dropLevel split isEmpty ?_ ?_ rfl rfl⟩
    · exact congrArg (Function.update book.sides side) (congrArg Prod.fst removed).symm
    · exact (congrArg Prod.snd removed).symm
  · exact linked

/-- Releasing an order keeps the links. -/
theorem forget (orderId : OrderId) (order : Nat) :
    (book.forget orderId order).LevelsLinked := linked

/-- `cancel` returns exactly if it finds a level, and keeps the level lists linked. -/
theorem cancel_decided (orderId : OrderId) :
    (∃ known book', book.cancel orderId = .ok (known, book') ∧ book'.LevelsLinked) ∧
      book.Locates orderId ∨
    book.cancel orderId = .error .assertion ∧ ¬book.Locates orderId := by
  unfold LimitOrderBook.cancel Locates
  cases known : book.findOrder orderId with
  | none => exact Or.inl ⟨⟨_, _, rfl, linked⟩, nofun⟩
  | some order =>
    dsimp only
    cases located : book.locate (book.order order).price with
    | none => exact Or.inr ⟨rfl, fun locates => locates order rfl located⟩
    | some place =>
      obtain ⟨side, level⟩ := place
      refine Or.inl ⟨⟨_, _, rfl, ?_⟩, ?_⟩
      · apply forget
        apply dropEmptyLevel
        · apply linked.of_bare
          rw [bare_notify, bare_modifyLevel (by exact fun _ => rfl), bare_removeFrom]
        · exact findLevel_of_locate located
      · intro slot same
        cases same
        rw [located]
        exact Option.some_ne_none _

end LevelsLinked

end LimitOrderBook

end FluxTrade
