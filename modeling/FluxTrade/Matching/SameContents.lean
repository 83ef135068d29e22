import FluxTrade.Library.Execution
import FluxTrade.Matching.BookContents

/-!
# Books of the same contents

What a reader of a book can see depends on its contents: the totals in its level
nodes, and the order that an identifier leads to. Insertion and cancellation do
the same to two consistent books of the same contents, failures included.
-/

namespace FluxTrade

open Execution

/-! ## Totals -/

/-- A level with the totals that its node keeps. -/
structure LevelRecord where
  price : Price
  totalQty : Quantity
  orderCount : UInt32
  orders : List OrderContents
  deriving DecidableEq

/-- The levels of a side with the totals in their nodes. -/
def LimitOrderBook.records (book : LimitOrderBook) (side : Side) : List LevelRecord :=
  (book.levelsOf side).map fun level => ⟨level.price, (book.level level.slot).totalQty,
    (book.level level.slot).orderCount, level.contents.orders⟩

/-- Total open quantity of a queue. -/
def heldQty : List OrderContents → Quantity
  | [] => 0
  | entry :: rest => entry.remainingQty + heldQty rest

/-- The totals that belong to a level's contents. -/
def LevelContents.record (level : LevelContents) : LevelRecord :=
  ⟨level.price, heldQty level.orders, UInt32.ofNat level.orders.length, level.orders⟩

/-- The total of a queue. -/
theorem heldQty_contents (queue : List OrderView) :
    heldQty (queue.map OrderView.contents) = openQty queue := by
  induction queue with
  | nil => rfl
  | cons entry rest ih =>
    rw [List.map_cons, heldQty, ih]
    rfl

/-- The nodes of a represented book keep the totals of its contents. -/
theorem BookRep.records_eq {book : LimitOrderBook} {view : BookView} (rep : BookRep book view)
    (side : Side) : book.records side = (contentsOf view side).map LevelContents.record := by
  rw [LimitOrderBook.records, rep.levelsOf_eq, contentsOf, List.map_map]
  apply List.map_congr_left
  intro level listed
  have node := (rep.sides side).nodes level listed
  have total : (book.level level.slot).totalQty = openQty level.orders := node.total
  have count : (book.level level.slot).orderCount = UInt32.ofNat level.orders.length := node.count
  rw [total, count, ← heldQty_contents]
  simp [LevelContents.record, LevelView.contents]

/-- Records show the contents. -/
theorem Consistent.records_eq {book : LimitOrderBook} (consistent : Consistent book)
    (side : Side) : book.records side = (book.contents side).map LevelContents.record :=
  consistent.rep.records_eq side

/-! ## Lookups -/

/-- All orders with the prices of their levels, bids first. -/
def BookContents.priced (contents : BookContents) : List (Price × OrderContents) :=
  (contents .buy ++ contents .sell).flatMap fun level =>
    level.orders.map fun entry => (level.price, entry)

/-- The order of an identifier and its price. -/
def BookContents.find (contents : BookContents) (orderId : OrderId) :
    Option (Price × OrderContents) :=
  contents.priced.find? fun found => found.2.key.orderId = orderId

/-- An order and its price, as the pool stores them. -/
def LimitOrderBook.stored (book : LimitOrderBook) (slot : Nat) : Price × OrderContents :=
  ((book.order slot).price, ((book.order slot).view slot).contents)

/-- An order with its price. -/
theorem BookContents.mem_priced {contents : BookContents} {found : Price × OrderContents} :
    found ∈ contents.priced ↔ ∃ side, ∃ level ∈ contents side, ∃ entry ∈ level.orders,
      found = (level.price, entry) := by
  simp only [priced, List.mem_flatMap, List.mem_append, List.mem_map, Side.exists, or_and_right,
    exists_or, eq_comm]

/-- A linked order is stored as the contents have it. -/
theorem BookRep.stored_eq {book : LimitOrderBook} {view : BookView} (rep : BookRep book view)
    {side : Side} {level : LevelView} (listed : level ∈ view side) {entry : OrderView}
    (queued : entry ∈ level.orders) : book.stored entry.slot = (level.price, entry.contents) := by
  have queue := ((rep.sides side).nodes level listed).queue
  have price : (book.order entry.slot).price = level.price := queue.priced entry queued
  have shown : (book.order entry.slot).view entry.slot = entry := queue.contents entry queued
  rw [LimitOrderBook.stored, price, shown]

namespace Consistent

variable {book : LimitOrderBook}

/-- An order of the contents is stored where the lookup leads. -/
theorem findOrder_of_priced (consistent : Consistent book) {found : Price × OrderContents}
    (member : found ∈ book.contents.priced) :
    ∃ slot, book.findOrder found.2.key.orderId = some slot ∧ book.stored slot = found := by
  obtain ⟨side, level, listed, entry, queued, rfl⟩ := BookContents.mem_priced.mp member
  obtain ⟨home, isHome, rfl⟩ := List.mem_map.mp listed
  obtain ⟨view, isView, rfl⟩ := List.mem_map.mp queued
  exact ⟨view.slot, consistent.complete side home isHome view isView,
    consistent.rep.stored_eq isHome isView⟩

/-- The lookup of a consistent book is a search of its contents. -/
theorem findOrder_stored (consistent : Consistent book) (orderId : OrderId) :
    (book.findOrder orderId).map book.stored = book.contents.find orderId := by
  cases hit : book.contents.find orderId with
  | some found =>
    have isId : found.2.key.orderId = orderId := by
      have matched := List.find?_some hit
      exact of_decide_eq_true matched
    obtain ⟨slot, looked, stored⟩ :=
      consistent.findOrder_of_priced (List.mem_of_find?_eq_some hit)
    rw [← isId, looked, Option.map_some, stored]
  | none =>
    cases looked : book.findOrder orderId with
    | none => rfl
    | some slot =>
      obtain ⟨side, level, listed, entry, queued, _, isId⟩ :=
        consistent.findOrder_eq_some.mp looked
      have member : (level.price, entry.contents) ∈ book.contents.priced :=
        BookContents.mem_priced.mpr ⟨side, level.contents, List.mem_map_of_mem listed,
          entry.contents, List.mem_map_of_mem queued, rfl⟩
      exact absurd (decide_eq_true isId) (List.find?_eq_none.mp hit _ member)

end Consistent

/-- Two books show the same levels, queues and totals, and look up the same orders. -/
structure SameBook (left right : LimitOrderBook) : Prop where
  records : ∀ side, left.records side = right.records side
  lookup : ∀ orderId, (left.findOrder orderId).map left.stored =
    (right.findOrder orderId).map right.stored

/-- Consistent books of the same contents. -/
structure SameContents (left right : LimitOrderBook) : Prop where
  ofLeft : Consistent left
  ofRight : Consistent right
  contents : left.contents = right.contents

/-- What the two books show does not depend on where their orders are stored. -/
theorem SameContents.sameBook {left right : LimitOrderBook} (same : SameContents left right) :
    SameBook left right where
  records side := by rw [same.ofLeft.records_eq, same.ofRight.records_eq, same.contents]
  lookup orderId := by
    rw [same.ofLeft.findOrder_stored, same.ofRight.findOrder_stored, same.contents]

/-! ## Operations on both -/

/-- Contents decide the overlap. -/
theorem noOverlap_of_contents {left right : LimitOrderBook}
    (same : left.contents = right.contents) (apart : NoOverlap left.levelsOf) :
    NoOverlap right.levelsOf := by
  intro bid bidListed ask askListed priced
  have bidHeld : bid.contents ∈ left.contents .buy := by
    rw [same]
    exact List.mem_map_of_mem bidListed
  have askHeld : ask.contents ∈ left.contents .sell := by
    rw [same]
    exact List.mem_map_of_mem askListed
  obtain ⟨bid', listed, bidSame⟩ := List.mem_map.mp bidHeld
  obtain ⟨ask', listed', askSame⟩ := List.mem_map.mp askHeld
  apply apart bid' listed ask' listed'
  have bidPrice := congrArg LevelContents.price bidSame
  have askPrice := congrArg LevelContents.price askSame
  simp only [LevelView.contents_price] at bidPrice askPrice
  rw [bidPrice, askPrice, priced]

namespace SameContents

variable {left right : LimitOrderBook}

/-- Inserting an order into both, if it leaves the identifiers distinct. -/
theorem insert (same : SameContents left right) {order : Order} {prioritySeq : UInt64}
    (distinct : ∀ slot book, left.insert order prioritySeq = .ok (slot, book) →
      book.contents.ids.Nodup) :
    Agree SameContents ((left.insert order prioritySeq).map Prod.snd)
      ((right.insert order prioritySeq).map Prod.snd) := by
  by_cases room : left.contents.HasRoom order.side order.price
  · have room' := room
    rw [same.contents] at room'
    obtain ⟨slot, book, inserted, contents, kept⟩ := same.ofLeft.insert_placed prioritySeq room
    obtain ⟨slot', book', inserted', contents', kept'⟩ :=
      same.ofRight.insert_placed prioritySeq room'
    have nodup := distinct slot book inserted
    rw [contents] at nodup
    have fresh := (List.nodup_cons.mp (BookContents.nodup_of_insert nodup)).1
    have fresh' := fresh
    rw [same.contents] at fresh'
    rw [inserted, inserted']
    exact .states ⟨kept fresh, kept' fresh', by rw [contents, contents', same.contents]⟩
  · have full := room
    rw [same.contents] at full
    rw [same.ofLeft.insert_of_full prioritySeq room, same.ofRight.insert_of_full prioritySeq full]
    exact .fault Fault.badAlloc

/-- Cancelling an identifier in both, if no price stands on both sides. -/
theorem cancel (same : SameContents left right) (apart : NoOverlap left.levelsOf)
    (orderId : OrderId) :
    Agree SameContents ((left.cancel orderId).map Prod.snd)
      ((right.cancel orderId).map Prod.snd) := by
  obtain ⟨_, book, cancelled, kept, contents⟩ := same.ofLeft.cancel apart orderId
  obtain ⟨_, book', cancelled', kept', contents'⟩ :=
    same.ofRight.cancel (noOverlap_of_contents same.contents apart) orderId
  rw [cancelled, cancelled']
  exact .states ⟨kept, kept', by rw [contents, contents', same.contents]⟩

end SameContents

end FluxTrade
