import FluxTrade.Matching.BookInvariant
import Mathlib.Data.List.TakeWhile

/-!
# What a book holds, wherever it is stored

A book that is rebuilt keeps its orders in other slots of its pools. `contents`
forgets the slots: two lists of levels, each with a price and a queue of keys,
open quantities and priorities. In a consistent book insertion, cancellation and
clearing are operations on the contents, and so is the question whether the
pools have room left.
-/

namespace FluxTrade

open Function LevelView List

/-! ## Contents -/

/-- A resting order without its place in memory. -/
structure OrderContents where
  key : OrderKey
  remainingQty : Quantity
  prioritySeq : UInt64
  deriving DecidableEq, Inhabited

/-- A level without its place in memory. -/
structure LevelContents where
  price : Price
  orders : List OrderContents
  deriving DecidableEq, Inhabited

/-- Levels of both sides, best price first. -/
abbrev BookContents := Side → List LevelContents

/-- A resting order without its slot. -/
def OrderView.contents (entry : OrderView) : OrderContents :=
  ⟨entry.key, entry.remainingQty, entry.prioritySeq⟩

/-- A level without slots. -/
def LevelView.contents (level : LevelView) : LevelContents :=
  ⟨level.price, level.orders.map OrderView.contents⟩

/-- The price is kept. -/
@[simp]
theorem LevelView.contents_price (level : LevelView) : level.contents.price = level.price := rfl

/-- The orders are kept. -/
@[simp]
theorem LevelView.contents_orders (level : LevelView) :
    level.contents.orders = level.orders.map OrderView.contents := rfl

/-- The contents of level lists. -/
def contentsOf (view : BookView) : BookContents := fun side => (view side).map contents

/-- What a book holds. -/
def LimitOrderBook.contents (book : LimitOrderBook) : BookContents := contentsOf book.levelsOf

/-- The orders of a side, best price first and head to tail within a level. -/
def heldOrders (levels : List LevelContents) : List OrderContents :=
  levels.flatMap LevelContents.orders

/-- No level holds nothing. -/
@[simp]
theorem heldOrders_nil : heldOrders [] = [] := rfl

/-- One level more. -/
@[simp]
theorem heldOrders_cons (level : LevelContents) (rest : List LevelContents) :
    heldOrders (level :: rest) = level.orders ++ heldOrders rest := by
  simp [heldOrders]

/-- More levels. -/
@[simp]
theorem heldOrders_append (front back : List LevelContents) :
    heldOrders (front ++ back) = heldOrders front ++ heldOrders back := by
  simp [heldOrders]

/-- Held orders are the resting ones. -/
theorem heldOrders_contents (levels : List LevelView) :
    heldOrders (levels.map contents) =
      (restingOrders levels).map OrderView.contents := by
  simp [heldOrders, restingOrders, flatMap_map, map_flatMap]

namespace BookContents

/-- All orders, bids first. -/
def held (contents : BookContents) : List OrderContents :=
  heldOrders (contents .buy) ++ heldOrders (contents .sell)

/-- The identifiers of all orders, bids first. -/
def ids (contents : BookContents) : List OrderId :=
  contents.held.map fun entry => entry.key.orderId

/-- The number of levels of both sides. -/
def levelCount (contents : BookContents) : Nat :=
  (contents .buy).length + (contents .sell).length

/-- The pools can take one more order at a price. -/
def HasRoom (contents : BookContents) (side : Side) (price : Price) : Prop :=
  contents.held.length < orderCapacity ∧
    (contents.levelCount < levelCapacity ∨ ∃ level ∈ contents side, level.price = price)

/-- The contents fit into the pools, and no two orders share an identifier. -/
structure Fits (contents : BookContents) : Prop where
  ids : contents.ids.Nodup
  orders : contents.held.length ≤ orderCapacity
  levels : contents.levelCount ≤ levelCapacity

/-- An order at the end of the queue of its price, in a new level if there is none. -/
def place (side : Side) (price : Price) (entry : OrderContents) (levels : List LevelContents) :
    List LevelContents :=
  if levels.any fun level => level.price = price then
    levels.map fun level =>
      if level.price = price then { level with orders := level.orders ++ [entry] } else level
  else
    levels.takeWhile (fun level => side.Better level.price price) ++
      ⟨price, [entry]⟩ :: levels.dropWhile fun level => side.Better level.price price

/-- The contents with one more order. -/
def insert (contents : BookContents) (side : Side) (price : Price) (entry : OrderContents) :
    BookContents :=
  update contents side (place side price entry (contents side))

/-- The levels without the orders of an identifier, and without the levels they leave empty. -/
def withdraw (orderId : OrderId) (levels : List LevelContents) : List LevelContents :=
  (levels.map fun level => { level with
    orders := level.orders.filter fun entry => entry.key.orderId ≠ orderId }).filter
    fun level => level.orders ≠ []

/-- The contents without the orders of an identifier. -/
def cancel (contents : BookContents) (orderId : OrderId) : BookContents :=
  fun side => withdraw orderId (contents side)

end BookContents

/-- So are their identifiers. -/
theorem ids_contentsOf (view : BookView) :
    (contentsOf view).ids = (restingBoth view).map fun entry => entry.key.orderId := by
  simp only [BookContents.ids, BookContents.held, contentsOf, heldOrders_contents,
    ← map_append, map_map]
  rfl

/-- An identifier that rests. -/
theorem mem_ids_contentsOf {view : BookView} {orderId : OrderId} :
    orderId ∈ (contentsOf view).ids ↔
      ∃ side, ∃ entry ∈ restingOrders (view side), entry.key.orderId = orderId := by
  rw [ids_contentsOf, mem_map]
  constructor
  · rintro ⟨entry, member, isId⟩
    obtain ⟨side, rests⟩ := mem_restingBoth_side.mp member
    exact ⟨side, entry, rests, isId⟩
  · rintro ⟨side, entry, rests, isId⟩
    exact ⟨entry, mem_restingBoth_side.mpr ⟨side, rests⟩, isId⟩

/-- One side changes. -/
theorem contentsOf_update (view : BookView) (side : Side) (levels : List LevelView) :
    contentsOf (update view side levels) =
      update (contentsOf view) side (levels.map contents) := by
  funext other
  by_cases same : other = side
  · subst same
    simp [contentsOf]
  · simp [contentsOf, update_of_ne same]

/-! ## Operations on level lists seen on their contents -/

section Lists

variable {entry : OrderView}
variable {level : LevelView} {ahead behind : List OrderView}

/-- Placing an order, seen on the contents. -/
theorem contents_placeOrder (side : Side) (price : Price) (node : Nat) (entry : OrderView)
    (levels : List LevelView) :
    (placeOrder side price node entry levels).map contents =
      BookContents.place side price entry.contents (levels.map contents) := by
  have same : ((levels.map contents).any fun level => level.price = price) =
      levels.any fun level => level.price = price := any_map
  unfold placeOrder ensureLevel BookContents.place
  rw [same]
  split
  · rw [map_map, map_map]
    apply map_congr_left
    intro level _
    by_cases priced : level.price = price <;> simp [contents, priced]
  · rename_i absent
    have elsewhere (part : List LevelView) (sub : ∀ level ∈ part, level ∈ levels) :
        (part.map fun level => if level.price = price then
          { level with orders := level.orders ++ [entry] } else level) = part := by
      conv_rhs => rw [← map_id part]
      apply map_congr_left
      intro level member
      have apart : level.price ≠ price := by
        intro priced
        exact absent (any_eq_true.mpr ⟨level, sub level member, by simpa using priced⟩)
      simp [apart]
    have ahead := elsewhere (levelsAhead side price levels) fun _ member =>
      (takeWhile_sublist _).subset member
    have behind := elsewhere (levelsBehind side price levels) fun _ member =>
      (dropWhile_sublist _).subset member
    simp only [insertLevel, map_append, map_cons, ahead, behind, if_true,
      takeWhile_map, dropWhile_map]
    rfl

/-- Levels without an identifier lose nothing by its withdrawal. -/
theorem withdraw_of_not_mem {orderId : OrderId} {levels : List LevelContents}
    (proper : ∀ level ∈ levels, level.orders ≠ [])
    (absent : ∀ entry ∈ heldOrders levels, entry.key.orderId ≠ orderId) :
    BookContents.withdraw orderId levels = levels := by
  have kept (level : LevelContents) (member : level ∈ levels) :
      { level with orders := level.orders.filter fun entry => entry.key.orderId ≠ orderId } =
        level := by
    have all : level.orders.filter (fun entry => entry.key.orderId ≠ orderId) = level.orders :=
      filter_eq_self.mpr fun entry queued => decide_eq_true
        (absent entry (mem_flatMap.mpr ⟨level, member, queued⟩))
    rw [all]
  have same := map_congr_left kept
  rw [map_id'] at same
  rw [BookContents.withdraw, same]
  exact filter_eq_self.mpr fun level member => decide_eq_true (proper level member)

/-- Withdrawing from two lists. -/
theorem withdraw_append (orderId : OrderId) (front back : List LevelContents) :
    BookContents.withdraw orderId (front ++ back) =
      BookContents.withdraw orderId front ++ BookContents.withdraw orderId back := by
  simp [BookContents.withdraw]

/-- The level that an order leaves, seen on its contents. -/
theorem contents_pruned (queued : level.orders = ahead ++ entry :: behind)
    (unique : ∀ other ∈ ahead ++ behind, other.key.orderId ≠ entry.key.orderId) :
    (pruned { level with orders := ahead ++ behind }).map contents =
      BookContents.withdraw entry.key.orderId [level.contents] := by
  have kept (part : List OrderView) (sub : ∀ other ∈ part, other ∈ ahead ++ behind) :
      part.filter (fun other => other.key.orderId ≠ entry.key.orderId) = part :=
    filter_eq_self.mpr fun other member => decide_eq_true (unique other (sub other member))
  have gone : (entry :: behind).filter (fun other => other.key.orderId ≠ entry.key.orderId) =
      behind.filter fun other => other.key.orderId ≠ entry.key.orderId :=
    filter_cons_of_neg (by simp)
  have views : level.orders.filter (fun other => other.key.orderId ≠ entry.key.orderId) =
      ahead ++ behind := by
    rw [queued, filter_append, gone,
      kept ahead fun _ member => mem_append_left _ member,
      kept behind fun _ member => mem_append_right _ member]
  have left : level.contents.orders.filter
      (fun other => other.key.orderId ≠ entry.key.orderId) =
      (ahead ++ behind).map OrderView.contents := by
    rw [contents_orders, filter_map, ← views]
    rfl
  rw [BookContents.withdraw, map_cons, map_nil, left]
  unfold pruned
  by_cases empty : ahead ++ behind = []
  · simp [empty]
  · have queue : (ahead ++ behind).map OrderView.contents ≠ [] := by simpa using empty
    rw [if_neg empty]
    symm
    apply filter_cons_of_pos
    exact decide_eq_true queue

/-- Taking an order out of its level, seen on the contents. -/
theorem contents_takeOut {front back : List LevelView}
    (proper : ∀ other ∈ front ++ level :: back, other.orders ≠ [])
    (queued : level.orders = ahead ++ entry :: behind)
    (unique : ∀ other ∈ restingOrders front ++ (ahead ++ behind) ++ restingOrders back,
      other.key.orderId ≠ entry.key.orderId) :
    (front ++ pruned { level with orders := ahead ++ behind } ++ back).map contents =
      BookContents.withdraw entry.key.orderId
        ((front ++ level :: back).map contents) := by
  have outside (part : List LevelView) (sub : ∀ other ∈ part, other ∈ front ++ level :: back)
      (apart : ∀ other ∈ restingOrders part, other.key.orderId ≠ entry.key.orderId) :
      BookContents.withdraw entry.key.orderId (part.map contents) =
        part.map contents := by
    apply withdraw_of_not_mem
    · intro other member
      obtain ⟨view, listed, rfl⟩ := mem_map.mp member
      simpa using proper view (sub view listed)
    · intro other member
      rw [heldOrders_contents] at member
      obtain ⟨view, listed, rfl⟩ := mem_map.mp member
      exact apart view listed
  have here := contents_pruned queued fun other member =>
    unique other (mem_append_left _ (mem_append_right _ member))
  have before := outside front (fun _ member => mem_append_left _ member)
    fun other member => unique other (mem_append_left _ (mem_append_left _ member))
  have after := outside back
    (fun _ member => mem_append_right _ (mem_cons_of_mem _ member))
    fun other member => unique other (mem_append_right _ member)
  rw [map_append, map_append, here, map_append, map_cons, append_cons,
    withdraw_append, withdraw_append, before, after]

end Lists

/-! ## Room -/

namespace BookRep

variable {book : LimitOrderBook} {view : BookView}

/-- The free slots are what the contents leave of the pools. -/
theorem free_lengths (rep : BookRep book view) :
    book.orderPool.freeList.length + (contentsOf view).held.length = orderCapacity ∧
      book.levelPool.freeList.length + (contentsOf view).levelCount = levelCapacity := by
  have orders := rep.orders_length .buy
  have levels := rep.levels_length .buy
  simp only [BookContents.held, BookContents.levelCount, contentsOf, heldOrders_contents,
    length_append, length_map]
  exact ⟨orders, levels⟩

/-- `insert` needs a free order and, for a price without a level, a free level. -/
theorem insert_of_full (rep : BookRep book view) {order : Order} (prioritySeq : UInt64)
    (full : ¬(contentsOf view).HasRoom order.side order.price) :
    book.insert order prioritySeq = .error .badAlloc := by
  obtain ⟨orders, levels⟩ := rep.free_lengths
  cases free : book.orderPool.freeList with
  | nil => simp [LimitOrderBook.insert, ObjectPool.allocate, free, bind, Except.bind]
  | cons slot rest =>
    rw [free, length_cons] at orders
    have crowded : ¬((contentsOf view).levelCount < levelCapacity ∨
        ∃ level ∈ contentsOf view order.side, level.price = order.price) :=
      fun room => full ⟨by omega, room⟩
    have exhausted : book.levelPool.freeList = [] := by
      apply eq_nil_of_length_eq_zero
      have bound : ¬(contentsOf view).levelCount < levelCapacity :=
        fun room => crowded (Or.inl room)
      omega
    have missing : (book.sides order.side).findLevel order.price = none := by
      apply ((rep.sides order.side).findLevel_eq_none order.price).mpr
      intro level listed priced
      exact crowded (Or.inr ⟨level.contents, mem_map_of_mem listed, priced⟩)
    simp [LimitOrderBook.insert, LimitOrderBook.findOrCreateLevel, SideBook.createLevel,
      ObjectPool.allocate, free, exhausted, missing, bind, Except.bind]

/-- `insert` with room places the order. -/
theorem insert_of_room (rep : BookRep book view) {order : Order} (prioritySeq : UInt64)
    (room : (contentsOf view).HasRoom order.side order.price) :
    ∃ slot node book', book.insert order prioritySeq = .ok (slot, book') ∧
      BookRep book' (update view order.side
        (placeOrder order.side order.price node ((order.live prioritySeq).view slot)
          (view order.side))) ∧
      book'.lookup = book.lookup.insert order.orderId slot := by
  rcases rep.insert order prioritySeq with placed | ⟨failed, exhausted⟩
  · exact placed
  · -- The pools have free slots, so the call cannot have failed.
    exfalso
    obtain ⟨orders, levels⟩ := rep.free_lengths
    cases free : book.orderPool.freeList with
    | nil =>
      rw [free, length_nil] at orders
      have bound := room.1
      omega
    | cons slot rest =>
      have noLevel : book.levelPool.freeList = [] := by simpa [free] using exhausted
      rw [noLevel, length_nil] at levels
      rcases room.2 with bound | ⟨level, member, priced⟩
      · omega
      · obtain ⟨home, listed, rfl⟩ := mem_map.mp member
        have found := (rep.sides order.side).findLevel_eq_some listed
        rw [← contents_price, priced] at found
        simp [LimitOrderBook.insert, LimitOrderBook.findOrCreateLevel, ObjectPool.allocate, free,
          found, bind, Except.bind] at failed

end BookRep

/-! ## Consistent books -/

/-- The invariant of a book: it represents the levels read along its links, no level is empty, and
every linked order is found under its identifier. -/
structure Consistent (book : LimitOrderBook) : Prop where
  rep : BookRep book book.levelsOf
  proper : Proper book.levelsOf
  complete : Complete book book.levelsOf

namespace Consistent

variable {book : LimitOrderBook}
variable {orderId : OrderId} {side : Side}

/-- A complete view is consistent. -/
theorem of_view {view : BookView} (rep : BookRep book view) (proper : Proper view)
    (complete : Complete book view) : Consistent book ∧ book.contents = contentsOf view := by
  obtain rfl := rep.view_eq
  exact ⟨⟨rep, proper, complete⟩, rfl⟩

/-- A new book is consistent. -/
theorem new (listener : Option (List BookEvent)) : Consistent (LimitOrderBook.new listener) :=
  (of_view (BookRep.new listener) (fun _ _ member => by cases member)
    fun _ _ member => by cases member).1

section

variable (consistent : Consistent book)
include consistent

/-- No two orders share an identifier. -/
theorem ids_nodup : book.contents.ids.Nodup := by
  rw [LimitOrderBook.contents, ids_contentsOf]
  exact consistent.complete.ids_nodup consistent.rep

/-- An identifier is looked up exactly if an order of it rests. -/
theorem findOrder_eq_none :
    book.findOrder orderId = none ↔ orderId ∉ book.contents.ids := by
  rw [LimitOrderBook.contents, mem_ids_contentsOf]
  constructor
  · rintro missing ⟨side, entry, resting, rfl⟩
    obtain ⟨level, listed, queued⟩ := mem_restingOrders.mp resting
    rw [consistent.complete side level listed entry queued] at missing
    cases missing
  · intro absent
    cases found : book.findOrder orderId with
    | none => rfl
    | some slot =>
      obtain ⟨side, level, listed, entry, queued, _, isId⟩ :=
        consistent.rep.lookup orderId slot found
      exact absurd ⟨side, entry, mem_restingOrders.mpr ⟨level, listed, queued⟩, isId⟩ absent

/-- The lookup leads to the linked orders and to nothing else. -/
theorem findOrder_eq_some {slot : Nat} :
    book.findOrder orderId = some slot ↔ ∃ side, Links (book.levelsOf side) orderId slot := by
  constructor
  · exact consistent.rep.lookup orderId slot
  · rintro ⟨side, level, listed, entry, queued, rfl, rfl⟩
    exact consistent.complete side level listed entry queued

/-- The free slots are what the contents leave of the pools. -/
theorem free_lengths :
    book.orderPool.freeList.length + book.contents.held.length = orderCapacity ∧
      book.levelPool.freeList.length + book.contents.levelCount = levelCapacity :=
  consistent.rep.free_lengths

/-- Its contents fit the pools. -/
theorem fits : book.contents.Fits := by
  obtain ⟨orders, levels⟩ := consistent.free_lengths
  exact ⟨consistent.ids_nodup, by omega, by omega⟩

/-- `insert` needs a free order and, for a price without a level, a free level. -/
theorem insert_of_full {order : Order} (prioritySeq : UInt64)
    (full : ¬book.contents.HasRoom order.side order.price) :
    book.insert order prioritySeq = .error .badAlloc :=
  consistent.rep.insert_of_full prioritySeq full

/-- `insert` with room, seen on the contents. The book stays consistent if the identifier is not
resting. -/
theorem insert_placed {order : Order} (prioritySeq : UInt64)
    (room : book.contents.HasRoom order.side order.price) :
    ∃ slot book', book.insert order prioritySeq = .ok (slot, book') ∧
      book'.contents = book.contents.insert order.side order.price
        ⟨⟨order.symbolId, order.orderId⟩, order.qty, prioritySeq⟩ ∧
      (order.orderId ∉ book.contents.ids → Consistent book') := by
  obtain ⟨slot, node, book', inserted, rep, lookup⟩ :=
    consistent.rep.insert_of_room prioritySeq room
  refine ⟨slot, book', inserted, ?_, ?_⟩
  · rw [LimitOrderBook.contents, ← rep.view_eq, contentsOf_update, contents_placeOrder]
    rfl
  · intro fresh
    have sorted := (consistent.rep.sides order.side).sorted
    have unknown := consistent.findOrder_eq_none.mpr fresh
    exact (of_view rep consistent.proper.place
      (consistent.complete.place sorted unknown lookup)).1

/-- `insert` of an unknown identifier, seen on the contents. -/
theorem insert_of_room {order : Order} (prioritySeq : UInt64)
    (room : book.contents.HasRoom order.side order.price)
    (fresh : order.orderId ∉ book.contents.ids) :
    ∃ slot book', book.insert order prioritySeq = .ok (slot, book') ∧ Consistent book' ∧
      book'.contents = book.contents.insert order.side order.price
        ⟨⟨order.symbolId, order.orderId⟩, order.qty, prioritySeq⟩ := by
  obtain ⟨slot, book', inserted, contents, kept⟩ := consistent.insert_placed prioritySeq room
  exact ⟨slot, book', inserted, kept fresh, contents⟩

end

/-- A new book takes every order. -/
theorem insert_new (listener : Option (List BookEvent)) (order : Order) (prioritySeq : UInt64) :
    ∃ slot book, (LimitOrderBook.new listener).insert order prioritySeq = .ok (slot, book) ∧
      Consistent book ∧ book.contents = BookContents.insert (fun _ => []) order.side order.price
        ⟨⟨order.symbolId, order.orderId⟩, order.qty, prioritySeq⟩ := by
  have orders : 0 < orderCapacity := by decide
  have levels : 0 < levelCapacity := by decide
  exact (new listener).insert_of_room prioritySeq ⟨orders, Or.inl levels⟩ not_mem_nil

variable (consistent : Consistent book)
include consistent

/-- No other order has the identifier of a linked one. -/
theorem others_apart {front back : List LevelView} {level : LevelView}
    {ahead behind : List OrderView} {entry : OrderView}
    (split : book.levelsOf side = front ++ level :: back)
    (queued : level.orders = ahead ++ entry :: behind) :
    ∀ other ∈ restingOrders front ++ (ahead ++ behind) ++ restingOrders back ++
      restingOrders (book.levelsOf side.opposite), other.key.orderId ≠ entry.key.orderId := by
  have perm : (restingBoth book.levelsOf).Perm (entry :: (restingOrders front ++
      (ahead ++ behind) ++ restingOrders back ++ restingOrders (book.levelsOf side.opposite))) := by
    apply (restingBoth_perm book.levelsOf side).trans
    rw [split, restingOrders_append, restingOrders_cons, queued]
    simp only [append_assoc, cons_append]
    exact (perm_middle.append_left _).trans perm_middle
  have nodup := consistent.ids_nodup
  rw [LimitOrderBook.contents, ids_contentsOf, (perm.map _).nodup_iff, map_cons] at nodup
  intro other member same
  exact (nodup_cons.mp nodup).1 (mem_map.mpr ⟨other, member, same⟩)

/-- Withdrawing an identifier that does not rest on a side changes nothing there. -/
theorem withdraw_eq
    (absent : ∀ entry ∈ restingOrders (book.levelsOf side), entry.key.orderId ≠ orderId) :
    BookContents.withdraw orderId (book.contents side) = book.contents side := by
  apply withdraw_of_not_mem
  · intro level member
    obtain ⟨view, listed, rfl⟩ := mem_map.mp member
    simpa using consistent.proper side view listed
  · intro entry member
    rw [LimitOrderBook.contents, contentsOf, heldOrders_contents] at member
    obtain ⟨view, listed, rfl⟩ := mem_map.mp member
    exact absent view listed

/-- `cancel`, seen on the contents. -/
theorem cancel (apart : NoOverlap book.levelsOf) (orderId : OrderId) :
    ∃ found book', book.cancel orderId = .ok (found, book') ∧ Consistent book' ∧
      book'.contents = book.contents.cancel orderId := by
  cases found : book.findOrder orderId with
  | none =>
    refine ⟨false, book, BookRep.cancel_unknown found, consistent, ?_⟩
    have absent := consistent.findOrder_eq_none.mp found
    rw [LimitOrderBook.contents, mem_ids_contentsOf] at absent
    funext side
    exact (consistent.withdraw_eq fun entry resting isId =>
      absent ⟨side, entry, resting, isId⟩).symm
  | some slot =>
    obtain ⟨side, front, level, back, ahead, entry, behind, split, queued, rfl, rfl⟩ :=
      consistent.rep.exists_split found
    have located := consistent.rep.locate_split apart split
    obtain ⟨book', cancelled, rep, lookup⟩ := consistent.rep.cancel located split queued found
    obtain ⟨kept, contents⟩ := of_view rep (consistent.proper.replaced split)
      (consistent.complete.takeOut consistent.rep split queued lookup)
    refine ⟨true, book', cancelled, kept, ?_⟩
    have others := consistent.others_apart split queued
    rw [contents, contentsOf_update]
    funext other
    rcases side.eq_or_opposite other with rfl | rfl
    · rw [update_self, contents_takeOut _ queued fun entry member =>
        others entry (mem_append_left _ member), ← split]
      · rfl
      · rw [← split]
        exact consistent.proper _
    · rw [update_of_ne side.opposite_ne]
      exact (consistent.withdraw_eq fun entry member =>
        others entry (mem_append_right _ member)).symm

/-- `clear`, seen on the contents. -/
theorem clear :
    ∃ book', book.clear = .ok book' ∧ Consistent book' ∧ book'.contents = fun _ => [] := by
  obtain ⟨book', cleared, rep, _⟩ := consistent.rep.clear
  obtain ⟨kept, contents⟩ := of_view rep (fun _ _ member => by cases member)
    fun _ _ member => by cases member
  exact ⟨book', cleared, kept, contents⟩

end Consistent

/-! ## Rebuilding -/

namespace BookContents

variable {side : Side} {price : Price} {entry : OrderContents}
variable {contents : BookContents}

section

variable (side : Side) (price : Price) (entry : OrderContents) (levels : List LevelContents)

/-- Placing an order adds it to the orders of the side. -/
theorem subperm_heldOrders_place :
    (entry :: heldOrders levels).Subperm (heldOrders (place side price entry levels)) := by
  unfold place
  split
  · rename_i present
    obtain ⟨home, member, priced⟩ := any_eq_true.mp present
    obtain ⟨front, back, rfl⟩ := append_of_mem member
    have priced : home.price = price := of_decide_eq_true priced
    have grown (part : List LevelContents) : (heldOrders part).Sublist
        (heldOrders (part.map fun level => if level.price = price then
          { level with orders := level.orders ++ [entry] } else level)) := by
      induction part with
      | nil => exact Sublist.slnil
      | cons level rest ih =>
        rw [map_cons, heldOrders_cons, heldOrders_cons]
        apply Sublist.append _ ih
        split
        · exact sublist_append_left _ _
        · exact Sublist.refl _
    refine ⟨heldOrders front ++ ((home.orders ++ [entry]) ++ heldOrders back), ?_, ?_⟩
    · simp only [heldOrders_append, heldOrders_cons, append_assoc, singleton_append]
      exact (perm_middle.append_left _).trans perm_middle
    · rw [map_append, map_cons, if_pos priced, heldOrders_append, heldOrders_cons]
      exact (grown front).append ((Sublist.refl _).append (grown back))
  · refine Perm.subperm ?_
    conv_lhs =>
      rw [← takeWhile_append_dropWhile
        (p := fun level : LevelContents => side.Better level.price price) (l := levels)]
    simp only [heldOrders_append, heldOrders_cons, singleton_append]
    exact perm_middle.symm

/-- Placing an order keeps the levels and adds one for a new price. -/
theorem length_place :
    (place side price entry levels).length =
      levels.length + if levels.any (fun level => level.price = price) then 0 else 1 := by
  unfold place
  split
  · rw [length_map]
    rfl
  · have whole := congrArg length (takeWhile_append_dropWhile
      (p := fun level : LevelContents => side.Better level.price price) (l := levels))
    rw [length_append] at whole
    rw [length_append, length_cons]
    omega

end

section

variable (contents : BookContents) (side : Side) (price : Price) (entry : OrderContents)

/-- A new price adds a level. -/
theorem levelCount_insert :
    (contents.insert side price entry).levelCount = contents.levelCount +
      if (contents side).any (fun level => level.price = price) then 0 else 1 := by
  have placed := length_place side price entry (contents side)
  cases side with
  | buy =>
    simp only [levelCount, insert, update_self,
      update_of_ne (show Side.sell ≠ Side.buy by decide), placed]
    omega
  | sell =>
    simp only [levelCount, insert, update_self,
      update_of_ne (show Side.buy ≠ Side.sell by decide), placed]
    omega

/-- After placing an order there is a level for its price. -/
theorem any_insert :
    ((contents.insert side price entry) side).any (fun level => level.price = price) = true := by
  rw [insert, update_self, place]
  split
  · rename_i present
    obtain ⟨level, member, priced⟩ := any_eq_true.mp present
    have priced : level.price = price := of_decide_eq_true priced
    rw [any_map]
    refine any_eq_true.mpr ⟨level, member, ?_⟩
    simp [priced]
  · simp

/-- Insertion keeps what is held. -/
theorem subperm_held_insert :
    (entry :: contents.held).Subperm (contents.insert side price entry).held := by
  have placed := subperm_heldOrders_place side price entry (contents side)
  cases side with
  | buy => exact (subperm_append_right _).mpr placed
  | sell => exact perm_middle.symm.subperm.trans ((subperm_append_left _).mpr placed)

end

/-- Identifiers that are distinct with an order were distinct before, and its own was unused. -/
theorem nodup_of_insert (nodup : (contents.insert side price entry).ids.Nodup) :
    (entry.key.orderId :: contents.ids).Nodup := by
  obtain ⟨moved, perm, sub⟩ := subperm_held_insert contents side price entry
  have subIds := sub.map fun entry : OrderContents => entry.key.orderId
  have permIds := perm.map fun entry : OrderContents => entry.key.orderId
  exact permIds.nodup_iff.mp (subIds.nodup nodup)

/-- Contents that fit with an order have room for it and an unused identifier. -/
theorem Fits.of_insert (fits : (contents.insert side price entry).Fits) :
    contents.Fits ∧ contents.HasRoom side price ∧ entry.key.orderId ∉ contents.ids := by
  have nodup := nodup_of_insert fits.ids
  have more : contents.held.length + 1 ≤ (contents.insert side price entry).held.length :=
    (subperm_held_insert contents side price entry).length_le
  have orders := fits.orders
  have levels := fits.levels
  rw [levelCount_insert] at levels
  refine ⟨⟨(nodup_cons.mp nodup).2, by omega, by omega⟩, ⟨by omega, ?_⟩,
    (nodup_cons.mp nodup).1⟩
  by_cases present : (contents side).any (fun level => level.price = price)
  · obtain ⟨level, member, priced⟩ := any_eq_true.mp present
    exact Or.inr ⟨level, member, of_decide_eq_true priced⟩
  · rw [if_neg present] at levels
    exact Or.inl (by omega)

/-- The orders of a level, inserted from head to tail. -/
def insertLevel (side : Side) (contents : BookContents) (level : LevelContents) : BookContents :=
  level.orders.foldl (fun contents entry => contents.insert side level.price entry) contents

/-- The orders of levels, inserted from the best price on. -/
def insertLevels (side : Side) (contents : BookContents) (levels : List LevelContents) :
    BookContents :=
  levels.foldl (insertLevel side) contents

/-- Less fits as well. -/
theorem Fits.of_insertLevel {contents : BookContents} {level : LevelContents}
    (fits : (insertLevel side contents level).Fits) : contents.Fits := by
  obtain ⟨price, orders⟩ := level
  induction orders generalizing contents with
  | nil => exact fits
  | cons entry rest ih => exact (ih fits).of_insert.1

/-- So does much less. -/
theorem Fits.of_insertLevels {contents : BookContents} {levels : List LevelContents}
    (fits : (insertLevels side contents levels).Fits) : contents.Fits := by
  induction levels generalizing contents with
  | nil => exact fits
  | cons level rest ih => exact (ih fits).of_insertLevel

/-- An order for a price that no level of the side is worse than goes to the end. -/
theorem place_last {front : List LevelContents} {queue : List OrderContents}
    (better : ∀ level ∈ front, side.Better level.price price) :
    place side price entry (front ++ if queue = [] then [] else [⟨price, queue⟩]) =
      front ++ [⟨price, queue ++ [entry]⟩] := by
  have apart (level : LevelContents) (member : level ∈ front) : level.price ≠ price := by
    intro same
    have ahead := better level member
    rw [same] at ahead
    exact Side.Better.irrefl ahead
  unfold place
  by_cases empty : queue = []
  · have absent : front.any (fun level => level.price = price) = false := by simpa using apart
    have allBetter : ∀ level ∈ front, decide (side.Better level.price price) = true :=
      fun level member => decide_eq_true (better level member)
    rw [if_pos empty, append_nil, absent, if_neg Bool.false_ne_true,
      takeWhile_eq_self_iff.mpr allBetter, dropWhile_eq_nil_iff.mpr allBetter, empty,
      nil_append]
  · have same : (front.map fun level => if level.price = price then
        { level with orders := level.orders ++ [entry] } else level) = front := by
      conv_rhs => rw [← map_id front]
      apply map_congr_left
      intro level member
      exact if_neg (apart level member)
    rw [if_neg empty, if_pos (by simp), map_append, same]
    simp

/-- The orders of a level go one after the other to the end of the side. -/
theorem foldl_insert {contents : BookContents} {front : List LevelContents}
    {queue orders : List OrderContents}
    (better : ∀ level ∈ front, side.Better level.price price)
    (here : contents side = front ++ if queue = [] then [] else [⟨price, queue⟩]) :
    orders.foldl (fun contents entry => contents.insert side price entry) contents =
      update contents side
        (front ++ if queue ++ orders = [] then [] else [⟨price, queue ++ orders⟩]) := by
  induction orders generalizing contents queue with
  | nil =>
    rw [append_nil, ← here]
    exact (update_eq_self side contents).symm
  | cons entry rest ih =>
    have next : contents.insert side price entry side = front ++
        if queue ++ [entry] = [] then [] else [⟨price, queue ++ [entry]⟩] := by
      rw [insert, update_self, here, place_last better, if_neg (by simp)]
    rw [foldl_cons, ih next, insert, update_idem, append_assoc,
      singleton_append]

/-- Inserting levels from the best price on puts them at the end of the side. -/
theorem insertLevels_eq {front levels : List LevelContents} (here : contents side = front)
    (sorted : (front ++ levels).Pairwise fun left right => side.Better left.price right.price)
    (proper : ∀ level ∈ levels, level.orders ≠ []) :
    insertLevels side contents levels = update contents side (front ++ levels) := by
  induction levels generalizing contents front with
  | nil =>
    rw [append_nil, ← here, update_eq_self]
    rfl
  | cons level rest ih =>
    have better (other : LevelContents) (member : other ∈ front) :
        side.Better other.price level.price :=
      (pairwise_append.mp sorted).2.2 other member level mem_cons_self
    have first : insertLevel side contents level =
        update contents side (front ++ [level]) := by
      have inserted := @foldl_insert side level.price contents front [] level.orders better
        (by rw [here, if_pos rfl, append_nil])
      rw [nil_append, if_neg (proper level mem_cons_self)] at inserted
      exact inserted
    rw [insertLevels, foldl_cons, first]
    change insertLevels side _ rest = _
    rw [ih (update_self ..) (by rwa [append_assoc, singleton_append])
      fun other member => proper other (mem_cons_of_mem _ member),
      update_idem, append_assoc, singleton_append]

end BookContents

/-- Inserting the levels of a book, bids first, rebuilds its contents. -/
theorem Consistent.insertLevels_eq {book : LimitOrderBook} (consistent : Consistent book) :
    BookContents.insertLevels .sell
        (BookContents.insertLevels .buy (fun _ => []) (book.contents .buy))
        (book.contents .sell) = book.contents := by
  have sorted (side : Side) : ([] ++ book.contents side).Pairwise
      fun left right : LevelContents => side.Better left.price right.price :=
    pairwise_map.mpr (consistent.rep.sides side).sorted
  have proper (side : Side) (level : LevelContents) (member : level ∈ book.contents side) :
      level.orders ≠ [] := by
    obtain ⟨view, listed, rfl⟩ := mem_map.mp member
    simpa using consistent.proper side view listed
  rw [BookContents.insertLevels_eq rfl (sorted .buy) (proper .buy),
    BookContents.insertLevels_eq rfl (sorted .sell) (proper .sell)]
  funext side
  cases side <;> rfl

end FluxTrade
