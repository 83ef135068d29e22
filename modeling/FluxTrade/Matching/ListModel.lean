import FluxTrade.Library.QueueBook
import FluxTrade.Matching.BookFrame
import FluxTrade.Matching.LookupComplete

/-!
# The book as lists of queues

The pools, links and indices of a book stand for two lists of levels, each with a
queue of identifiers and quantities. Every operation does to those lists what its
name says, and nothing else.
-/

namespace FluxTrade

open QueueBook Function LimitOrderBook List

/-- An order in the list model. -/
def OrderView.listed (entry : OrderView) : OrderId × Quantity :=
  (entry.key.orderId, entry.remainingQty)

/-- A level in the list model. -/
def LevelView.listed (level : LevelView) : Price × List (OrderId × Quantity) :=
  (level.price, level.orders.map OrderView.listed)

/-- The list model of a book. -/
def LimitOrderBook.listed (book : LimitOrderBook) (side : Side) : Levels Price OrderId Quantity :=
  (book.levelsOf side).map LevelView.listed

/-- What the operations of a book do to its list model. `Consistent` is the invariant of a book, and
every operation returns a book that has it again. -/
structure RefinesLists (book : LimitOrderBook) : Prop where
  sorted : ∀ side, (book.listed side).Pairwise fun left right => side.Better left.1 right.1
  insert : ∀ (order : Order) (prioritySeq : UInt64), order.orderId ∉ book.contents.ids →
    book.contents.HasRoom order.side order.price →
    ∃ slot next, book.insert order prioritySeq = .ok (slot, next) ∧ Consistent next ∧
      next.listed = update book.listed order.side (append order.side.Better order.price
        (order.orderId, order.qty) (book.listed order.side))
  cancel : ∀ side id qty, Holds (book.listed side) id qty →
    ∃ next, book.cancel id = .ok (true, next) ∧ Consistent next ∧
      next.listed = fun side => rewrite (without id) (book.listed side)
  modifyQty_less : ∀ side id qty newQty prioritySeq, Holds (book.listed side) id qty →
    newQty < qty → ∃ next, book.modifyQty id newQty prioritySeq = .ok (true, next) ∧
      Consistent next ∧ next.listed = fun side => rewrite (withQty id newQty) (book.listed side)
  modifyQty_more : ∀ side id qty newQty prioritySeq, Holds (book.listed side) id qty →
    qty < newQty → ∃ next, book.modifyQty id newQty prioritySeq = .ok (true, next) ∧
      Consistent next ∧ next.listed = fun side => rewrite (requeued id newQty) (book.listed side)
  modifyQty_same : ∀ side id qty prioritySeq, Holds (book.listed side) id qty →
    book.modifyQty id qty prioritySeq = .ok (true, book)
  fillOrder : ∀ entry ∈ restingBoth book.levelsOf, ∀ filledQty ≤ entry.remainingQty,
    ∃ next, book.fillOrder entry.slot filledQty = .ok next ∧ Consistent next ∧
      next.listed = fun side => if entry.remainingQty = filledQty
        then rewrite (without entry.key.orderId) (book.listed side)
        else rewrite (withQty entry.key.orderId (entry.remainingQty - filledQty))
          (book.listed side)
  unknown : ∀ id, (∀ side qty, ¬Holds (book.listed side) id qty) →
    book.cancel id = .ok (false, book) ∧
      ∀ newQty prioritySeq, book.modifyQty id newQty prioritySeq = .ok (false, book)
  best : ∀ side, book.bestPrice side = ((book.listed side).head?.map Prod.fst).getD 0

/-! ## Lists and views -/

/-- An item is a resting order. -/
theorem holds_iff {book : LimitOrderBook} {side : Side} {id : OrderId} {qty : Quantity} :
    Holds (book.listed side) id qty ↔ ∃ level ∈ book.levelsOf side, ∃ entry ∈ level.orders,
      entry.key.orderId = id ∧ entry.remainingQty = qty := by
  simp only [Holds, listed, mem_map, LevelView.listed]
  constructor
  · rintro ⟨_, ⟨level, listed, rfl⟩, member⟩
    obtain ⟨entry, queued, same⟩ := mem_map.mp member
    cases same
    exact ⟨level, listed, entry, queued, rfl, rfl⟩
  · rintro ⟨level, listed, entry, queued, rfl, rfl⟩
    exact ⟨_, ⟨level, listed, rfl⟩, mem_map_of_mem queued⟩

/-- Where a held order is linked. -/
theorem located_of_holds {book : LimitOrderBook} {side : Side} {id : OrderId} {qty : Quantity}
    (held : Holds (book.listed side) id qty) :
    ∃ front level back ahead entry behind, book.levelsOf side = front ++ level :: back ∧
      level.orders = ahead ++ entry :: behind ∧ entry.key.orderId = id ∧
      entry.remainingQty = qty := by
  obtain ⟨level, listed, entry, queued, isId, isQty⟩ := holds_iff.mp held
  obtain ⟨front, back, split⟩ := append_of_mem listed
  obtain ⟨ahead, behind, queue⟩ := append_of_mem queued
  exact ⟨front, level, back, ahead, entry, behind, split, queue, isId, isQty⟩

/-- A level of the contents in the list model. -/
def LevelContents.listed (level : LevelContents) : Price × List (OrderId × Quantity) :=
  (level.price, level.orders.map fun entry => (entry.key.orderId, entry.remainingQty))

/-- The lists are the contents. -/
theorem listed_eq_contents (book : LimitOrderBook) (side : Side) :
    book.listed side = (book.contents side).map LevelContents.listed := by
  simp only [listed, contents, contentsOf, map_map]
  refine map_congr_left fun level _ => ?_
  simp [LevelView.listed, LevelContents.listed, LevelView.contents, OrderView.listed,
    OrderView.contents, comp_def]

/-- Placing is appending. -/
theorem listed_place (side : Side) (price : Price) (entry : OrderContents)
    (levels : List LevelContents) :
    (BookContents.place side price entry levels).map LevelContents.listed =
      append side.Better price (entry.key.orderId, entry.remainingQty)
        (levels.map LevelContents.listed) := by
  have same : ((levels.map LevelContents.listed).any fun level => level.1 = price) =
      levels.any fun level => level.price = price := by
    rw [any_map]
    rfl
  unfold BookContents.place append
  rw [same]
  split
  · rw [map_map, map_map]
    refine map_congr_left fun level _ => ?_
    by_cases priced : level.price = price <;> simp [LevelContents.listed, priced]
  · rw [map_append, map_cons, takeWhile_map, dropWhile_map]
    rfl

namespace Consistent

variable {book next : LimitOrderBook} {side : Side} {front back : List LevelView}
  {level : LevelView} {ahead behind : List OrderView} {entry : OrderView}
variable {change : List (OrderId × Quantity) → List (OrderId × Quantity)}

section

variable (consistent : Consistent book)
include consistent

/-- No queue is empty. -/
theorem listed_nonempty (side : Side) :
    ∀ level ∈ book.listed side, level.2 ≠ [] := by
  intro level member
  obtain ⟨home, listed, rfl⟩ := mem_map.mp member
  simpa [LevelView.listed] using consistent.proper side home listed

section

variable (split : book.levelsOf side = front ++ level :: back)
  (queued : level.orders = ahead ++ entry :: behind)
include split queued

/-- Rewriting one queue of a book rewrites its list model. -/
theorem listed_replaced {queue : List OrderView} (rep : BookRep next (update book.levelsOf side
      (front ++ pruned { level with orders := queue } ++ back)))
    (isLocal : Local entry.key.orderId change)
    (changed : change (level.orders.map OrderView.listed) = queue.map OrderView.listed) :
    next.listed = fun side => rewrite change (book.listed side) := by
  have others := consistent.others_apart split queued
  have absent (levels : List LevelView) (apart : ∀ other ∈ restingOrders levels,
      other.key.orderId ≠ entry.key.orderId) :
      ∀ home ∈ levels.map LevelView.listed, ∀ item ∈ home.2, item.1 ≠ entry.key.orderId := by
    intro home listed item member
    obtain ⟨home, here, rfl⟩ := mem_map.mp listed
    obtain ⟨other, inside, rfl⟩ := mem_map.mp member
    exact apart other (mem_restingOrders.mpr ⟨home, here, inside⟩)
  funext other
  rw [listed, ← rep.view_eq]
  rcases side.eq_or_opposite other with rfl | rfl
  · have proper := consistent.listed_nonempty other
    rw [listed, split, map_append, map_cons] at proper
    rw [update_self, listed, split, map_append, map_append,
      map_append, map_cons, append_assoc]
    rw [LevelView.listed, rewrite_middle isLocal, changed]
    · congr 2
      by_cases empty : queue = [] <;> simp [pruned, empty, LevelView.listed]
    · intro home member
      refine proper home ?_
      rcases mem_append.mp member with before | after
      · exact mem_append_left _ before
      · exact mem_append_right _ (mem_cons_of_mem _ after)
    · rw [← map_append]
      refine absent _ fun other member => others other ?_
      rw [restingOrders_append] at member
      rcases mem_append.mp member with before | after
      · simp [before]
      · simp [after]
  · rw [update_of_ne side.opposite_ne]
    refine (rewrite_absent isLocal (consistent.listed_nonempty _) ?_).symm
    exact absent _ fun other member => others other (mem_append_right _ member)

/-- The neighbours of an order in its queue have other identifiers. -/
theorem neighbours_apart :
    (∀ item ∈ ahead.map OrderView.listed, item.1 ≠ entry.key.orderId) ∧
      ∀ item ∈ behind.map OrderView.listed, item.1 ≠ entry.key.orderId := by
  have others := consistent.others_apart split queued
  constructor
  · intro item member
    obtain ⟨other, inside, rfl⟩ := mem_map.mp member
    exact others other (by simp [inside])
  · intro item member
    obtain ⟨other, inside, rfl⟩ := mem_map.mp member
    exact others other (by simp [inside])

end

section

variable (apart : NoOverlap book.levelsOf) (split : book.levelsOf side = front ++ level :: back)
  (queued : level.orders = ahead ++ entry :: behind)
include apart split queued

/-- `cancel` removes the item. -/
theorem cancel_listed :
    ∃ next, book.cancel entry.key.orderId = .ok (true, next) ∧ Consistent next ∧
      next.listed = fun side => rewrite (without entry.key.orderId) (book.listed side) := by
  have found := consistent.complete side level (by simp [split]) entry (by simp [queued])
  have located := consistent.rep.locate_split apart split
  obtain ⟨next, cancelled, rep, lookup⟩ := consistent.rep.cancel located split queued found
  obtain ⟨kept, _⟩ := of_view rep (consistent.proper.replaced split)
    (consistent.complete.takeOut consistent.rep split queued lookup)
  refine ⟨next, cancelled, kept, consistent.listed_replaced split queued rep without_local ?_⟩
  obtain ⟨before, after⟩ := consistent.neighbours_apart split queued
  rw [queued, map_append, map_cons, map_append]
  exact without_middle before after

/-- `fill_order` reduces it. -/
theorem fillOrder_listed {filledQty : Quantity} (fits : filledQty ≤ entry.remainingQty) :
    ∃ next, book.fillOrder entry.slot filledQty = .ok next ∧ Consistent next ∧
      next.listed = fun side => if entry.remainingQty = filledQty
        then rewrite (without entry.key.orderId) (book.listed side)
        else rewrite (withQty entry.key.orderId (entry.remainingQty - filledQty))
          (book.listed side) := by
  have located := consistent.rep.locate_split apart split
  obtain ⟨next, filled, rep, lookup⟩ := consistent.rep.fillOrder located split queued fits
  obtain ⟨kept, _⟩ := of_view rep (consistent.proper.replaced split)
    (consistent.complete.fill consistent.rep split queued lookup)
  refine ⟨next, filled, kept, ?_⟩
  obtain ⟨before, after⟩ := consistent.neighbours_apart split queued
  by_cases whole : entry.remainingQty = filledQty
  · simp only [if_pos whole]
    refine consistent.listed_replaced split queued rep without_local ?_
    rw [queued, reduced, if_pos whole, map_append, map_cons, map_append]
    exact without_middle before after
  · simp only [if_neg whole]
    refine consistent.listed_replaced split queued rep withQty_local ?_
    rw [queued, reduced, if_neg whole, map_append, map_cons, map_append]
    exact withQty_middle before after

/-- `modify_qty`, seen on the lists through any function that amends the queue of the order. -/
theorem modifyQty_listed {newQty : Quantity} {prioritySeq : UInt64}
    (isLocal : Local entry.key.orderId change)
    (changed : change (level.orders.map OrderView.listed) =
      (amended ahead behind entry newQty prioritySeq).map OrderView.listed) :
    ∃ next, book.modifyQty entry.key.orderId newQty prioritySeq = .ok (true, next) ∧
      Consistent next ∧ next.listed = fun side => rewrite change (book.listed side) := by
  have located := consistent.rep.locate_split apart split
  obtain ⟨next, modified, rep, complete⟩ :=
    consistent.modifyQty_replaced located split queued newQty prioritySeq
  obtain ⟨kept, _⟩ := of_view rep (consistent.proper.replaced split) complete
  exact ⟨next, modified, kept, consistent.listed_replaced split queued rep isLocal changed⟩

/-- `modify_qty` to the quantity that the order has. -/
theorem modifyQty_same_listed (prioritySeq : UInt64) :
    book.modifyQty entry.key.orderId entry.remainingQty prioritySeq = .ok (true, book) := by
  have found := consistent.complete side level (by simp [split]) entry (by simp [queued])
  have price := consistent.rep.order_price split queued
  have located := consistent.rep.locate_split apart split
  have qty := consistent.rep.order_remainingQty split queued
  simp [modifyQty, found, price, located, qty]

end

/-- An absent item is not found. -/
theorem findOrder_absent {id : OrderId} (absent : ∀ side qty, ¬Holds (book.listed side) id qty) :
    book.findOrder id = none := by
  refine consistent.findOrder_eq_none.mpr fun known => ?_
  obtain ⟨side, entry, resting, isId⟩ := mem_ids_contentsOf.mp known
  obtain ⟨level, listed, queued⟩ := mem_restingOrders.mp resting
  exact absent side _ (holds_iff.mpr ⟨level, listed, entry, queued, isId, rfl⟩)

end

/-- The operations of every consistent book without a price on both sides are those of the list
model. -/
theorem refinesLists (consistent : Consistent book) (apart : NoOverlap book.levelsOf) :
    RefinesLists book where
  sorted side := by
    rw [listed, pairwise_map]
    exact (consistent.rep.sides side).sorted
  insert order prioritySeq fresh room := by
    obtain ⟨slot, next, inserted, kept, contents⟩ :=
      consistent.insert_of_room prioritySeq room fresh
    refine ⟨slot, next, inserted, kept, ?_⟩
    funext other
    rw [listed_eq_contents, contents, BookContents.insert]
    rcases order.side.eq_or_opposite other with rfl | rfl
    · rw [update_self, update_self, listed_place, listed_eq_contents]
    · rw [update_of_ne order.side.opposite_ne,
        update_of_ne order.side.opposite_ne, listed_eq_contents]
  cancel side id qty held := by
    obtain ⟨_, _, _, _, entry, _, split, queued, rfl, _⟩ := located_of_holds held
    exact consistent.cancel_listed apart split queued
  modifyQty_less side id qty newQty prioritySeq held less := by
    obtain ⟨_, _, _, _, entry, _, split, queued, rfl, rfl⟩ := located_of_holds held
    refine consistent.modifyQty_listed apart split queued withQty_local ?_
    obtain ⟨before, after⟩ := consistent.neighbours_apart split queued
    rw [queued, amended, if_pos less, map_append, map_cons, map_append]
    exact withQty_middle before after
  modifyQty_more side id qty newQty prioritySeq held more := by
    obtain ⟨_, _, _, _, entry, _, split, queued, rfl, rfl⟩ := located_of_holds held
    refine consistent.modifyQty_listed apart split queued requeued_local ?_
    obtain ⟨before, after⟩ := consistent.neighbours_apart split queued
    rw [queued, amended, if_neg (UInt64.lt_asymm more), if_pos more, map_append, map_cons,
      map_append, map_append]
    exact requeued_middle before after
  modifyQty_same side id qty prioritySeq held := by
    obtain ⟨_, level, _, _, entry, _, split, queued, rfl, rfl⟩ := located_of_holds held
    exact consistent.modifyQty_same_listed apart split queued prioritySeq
  fillOrder entry resting filledQty fits := by
    obtain ⟨side, level, listed, queued⟩ := mem_restingBoth.mp resting
    obtain ⟨front, back, split⟩ := append_of_mem listed
    obtain ⟨ahead, behind, queued⟩ := append_of_mem queued
    exact consistent.fillOrder_listed apart split queued fits
  unknown id absent := by
    have missing := consistent.findOrder_absent absent
    exact ⟨BookRep.cancel_unknown missing, BookRep.modifyQty_unknown missing⟩
  best side := by
    have best := (consistent.rep.sides side).bestLevel_eq
    unfold bestPrice bestLevel listed
    rw [best]
    cases levels : book.levelsOf side with
    | nil => rfl
    | cons level rest =>
      have split : book.levelsOf side = [] ++ level :: rest := levels
      exact (consistent.rep.node split).priced

/-- A bid at 100 and an ask at 101 are a book of the theorem. -/
theorem refinesLists_quoted :
    ∃ book, book.contents .buy = [⟨100, [⟨⟨1, 1⟩, 5, 0⟩]⟩] ∧
      book.contents .sell = [⟨101, [⟨⟨1, 2⟩, 7, 1⟩]⟩] ∧ RefinesLists book := by
  obtain ⟨_, first, _, firstKept, firstContents⟩ := insert_new none (limitOrder 1 .buy 100 5) 0
  obtain ⟨_, book, _, kept, contents⟩ := @insert_of_room _ firstKept
    (limitOrder 2 .sell 101 7) 1 (by rw [firstContents]; exact ⟨by decide, Or.inl (by decide)⟩)
    (by rw [firstContents]; decide)
  rw [firstContents] at contents
  have bids : book.contents .buy = [⟨100, [⟨⟨1, 1⟩, 5, 0⟩]⟩] := by
    rw [contents]
    rfl
  have asks : book.contents .sell = [⟨101, [⟨⟨1, 2⟩, 7, 1⟩]⟩] := by
    rw [contents]
    rfl
  refine ⟨book, bids, asks, kept.refinesLists fun bid bidListed ask askListed => ?_⟩
  have low : bid.contents ∈ book.contents .buy := mem_map_of_mem bidListed
  have high : ask.contents ∈ book.contents .sell := mem_map_of_mem askListed
  rw [bids, mem_singleton] at low
  rw [asks, mem_singleton] at high
  have bidPrice : bid.price = 100 := congrArg LevelContents.price low
  have askPrice : ask.price = 101 := congrArg LevelContents.price high
  rw [bidPrice, askPrice]
  decide

end Consistent

end FluxTrade
