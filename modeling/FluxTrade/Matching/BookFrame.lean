import FluxTrade.Matching.EngineRun
import FluxTrade.Matching.SameContents

/-!
# What a book operation leaves alone

`LimitOrderBook` is used without the engine as well: replay and snapshot loading
insert bids and asks at any prices. The side of a resting order is not stored.
It is read off the bid index first, so an ask at the price of a bid level is
taken for a bid. An operation on any other order touches the level of the order
and nothing else.
-/

namespace FluxTrade

open Execution

/-- The operations of `LimitOrderBook`; a fill names the order by its pointer. -/
inductive BookCall where
  | insert (order : Order) (prioritySeq : UInt64)
  | cancel (orderId : OrderId)
  | modifyQty (orderId : OrderId) (newQty : Quantity) (prioritySeq : UInt64)
  | fillOrder (order : Nat) (filledQty : Quantity)

namespace LimitOrderBook

/-- One operation. -/
def step (book : LimitOrderBook) : BookCall → Except Fault LimitOrderBook
  | .insert order prioritySeq => (book.insert order prioritySeq).map Prod.snd
  | .cancel orderId => (book.cancel orderId).map Prod.snd
  | .modifyQty orderId newQty prioritySeq =>
    (book.modifyQty orderId newQty prioritySeq).map Prod.snd
  | .fillOrder order filledQty => book.fillOrder order filledQty

/-- The resting order that an operation acts on. -/
def target (book : LimitOrderBook) : BookCall → Option Nat
  | .insert _ _ => none
  | .cancel orderId => book.findOrder orderId
  | .modifyQty orderId _ _ => book.findOrder orderId
  | .fillOrder order _ => some order

/-- An inserted identifier does not rest yet, and a fill is of a resting order and at most of its
quantity. -/
def Legal (book : LimitOrderBook) : BookCall → Prop
  | .insert order _ => order.orderId ∉ book.contents.ids
  | .fillOrder order filledQty => ∃ entry ∈ restingBoth book.levelsOf,
      entry.slot = order ∧ filledQty ≤ entry.remainingQty
  | _ => True

instance (book : LimitOrderBook) (call : BookCall) : Decidable (book.Legal call) := by
  cases call <;> dsimp only [Legal] <;> infer_instance

/-- An order that is a bid, or an ask at a price without bids. -/
def OwnSideFound (book : LimitOrderBook) (slot : Nat) : Prop :=
  slot ∈ orderSlots (book.levelsOf .buy) ∨
    ∀ bid ∈ book.levelsOf .buy, bid.price ≠ (book.order slot).price
  deriving Decidable

/-- The operation acts on no ask at the price of a bid level. -/
def Unshadowed (book : LimitOrderBook) (call : BookCall) : Prop :=
  ∀ slot ∈ book.target call, book.OwnSideFound slot
  deriving Decidable

/-- At most the level that holds the order differs: every other level of both sides keeps its
orders, their sequence and its totals. -/
def ChangesOnly (book : LimitOrderBook) (slot : Nat) (next : LimitOrderBook) : Prop :=
  ∃ side, ∃ level ∈ book.levelsOf side, slot ∈ queueSlots level.orders ∧
    next.records side.opposite = book.records side.opposite ∧
    (next.records side).filter (fun record => record.price ≠ level.price) =
      (book.records side).filter fun record => record.price ≠ level.price

/-- The operation returns; it changes only the level of the order it acts on, and nothing at all if
there is no such order. -/
def Framed (book : LimitOrderBook) : BookCall → Prop
  | .insert _ _ => True
  | call =>
    match book.target call with
    | some slot => ∃ next, book.step call = .ok next ∧ book.ChangesOnly slot next
    | none => book.step call = .ok book

/-- The lookup has exactly the linked orders, each under its own identifier. -/
structure InBijection (book : LimitOrderBook) : Prop where
  distinct : book.contents.ids.Nodup
  linked : ∀ orderId slot, book.findOrder orderId = some slot ↔
    ∃ side, Links (book.levelsOf side) orderId slot

end LimitOrderBook

namespace Consistent

variable {book next : LimitOrderBook} {side : Side} {front back : List LevelView}
  {level : LevelView} {queue : List OrderView} {slot : Nat}

variable (consistent : Consistent book)
include consistent

section

variable (split : book.levelsOf side = front ++ level :: back)
  (queued : slot ∈ queueSlots level.orders)
include split queued

/-- A book in which one level has another queue keeps all other levels. -/
theorem replaced (rep : BookRep next (Function.update book.levelsOf side
      (front ++ pruned { level with orders := queue } ++ back)))
    (complete : Complete next (Function.update book.levelsOf side
      (front ++ pruned { level with orders := queue } ++ back))) :
    Consistent next ∧ book.ChangesOnly slot next := by
  obtain ⟨kept, contents⟩ := of_view rep (consistent.proper.replaced split) complete
  have listed : level ∈ book.levelsOf side := by simp [split]
  refine ⟨kept, side, level, listed, queued, ?_, ?_⟩
  · rw [kept.records_eq, consistent.records_eq, contents, contentsOf_update,
      Function.update_of_ne side.opposite_ne]
    rfl
  · rw [kept.records_eq, consistent.records_eq, contents, LimitOrderBook.contents,
      contentsOf_update, Function.update_self, contentsOf, split]
    have home : ((pruned { level with orders := queue }).map fun other =>
        other.contents.record).filter (fun record => record.price ≠ level.price) = [] := by
      rw [List.filter_eq_nil_iff]
      intro record member
      obtain ⟨other, here, rfl⟩ := List.mem_map.mp member
      rw [mem_pruned here]
      simp [LevelContents.record]
    have old : level.contents.record.price = level.price := rfl
    simp only [List.map_append, List.map_cons, List.map_map, Function.comp_def,
      List.filter_append, home, List.append_nil, List.filter_cons, old, ne_eq, not_true_eq_false,
      decide_false, Bool.false_eq_true, if_false]

/-- The price of an order with a clear side leads to its level. -/
theorem locate_eq (clear : book.OwnSideFound slot) :
    book.locate level.price = some (side, level.slot) := by
  have listed : level ∈ book.levelsOf side := by simp [split]
  apply consistent.rep.locate_of_clear listed
  obtain ⟨entry, member, rfl⟩ := List.mem_map.mp queued
  have price : (book.order entry.slot).price = level.price :=
    ((consistent.rep.sides side).nodes level listed).queue.priced entry member
  cases side with
  | buy => exact Or.inl rfl
  | sell =>
    refine Or.inr (clear.elim (fun bid => ?_) (price ▸ ·))
    -- A slot is used on one side only.
    have apart := consistent.rep.orders_apart split queued
    exact absurd (List.mem_append_right _ bid) apart

end

/-- `cancel` touches one order. -/
theorem cancel_framed {orderId : OrderId} (found : book.findOrder orderId = some slot)
    (clear : book.OwnSideFound slot) :
    ∃ next, book.cancel orderId = .ok (true, next) ∧ Consistent next ∧
      book.ChangesOnly slot next := by
  obtain ⟨side, front, level, back, ahead, entry, behind, split, queued, rfl, rfl⟩ :=
    consistent.rep.exists_split found
  have here : entry.slot ∈ queueSlots level.orders := by simp [queueSlots, queued]
  obtain ⟨next, cancelled, rep, lookup⟩ := consistent.rep.cancel
    (consistent.locate_eq split here clear) split queued found
  exact ⟨next, cancelled, consistent.replaced split here rep
    (consistent.complete.takeOut consistent.rep split queued lookup)⟩

/-- `modify_qty` in the form of a replaced queue: an amended queue is not empty, so pruning its
level does nothing. -/
theorem modifyQty_replaced {entry : OrderView} {ahead behind : List OrderView}
    (located : book.locate level.price = some (side, level.slot))
    (split : book.levelsOf side = front ++ level :: back)
    (queued : level.orders = ahead ++ entry :: behind) (newQty : Quantity) (prioritySeq : UInt64) :
    ∃ next, book.modifyQty entry.key.orderId newQty prioritySeq = .ok (true, next) ∧
      BookRep next (Function.update book.levelsOf side (front ++ pruned { level with
        orders := amended ahead behind entry newQty prioritySeq } ++ back)) ∧
      Complete next (Function.update book.levelsOf side (front ++ pruned { level with
        orders := amended ahead behind entry newQty prioritySeq } ++ back)) := by
  have found := consistent.complete side level (by simp [split]) entry (by simp [queued])
  obtain ⟨next, modified, rep, lookup⟩ :=
    consistent.rep.modifyQty located split queued found newQty prioritySeq
  have whole : front ++ { level with orders := amended ahead behind entry newQty prioritySeq } ::
      back = front ++ pruned { level with
        orders := amended ahead behind entry newQty prioritySeq } ++ back := by
    simp [pruned, amended_ne_nil]
  rw [whole] at rep
  refine ⟨next, modified, rep, consistent.complete.keep lookup ?_⟩
  apply entries_replaced split
  intro found member
  rw [queued]
  exact mem_amended member

/-- So does `modify_qty`. -/
theorem modifyQty_framed {orderId : OrderId} (found : book.findOrder orderId = some slot)
    (clear : book.OwnSideFound slot) (newQty : Quantity) (prioritySeq : UInt64) :
    ∃ next, book.modifyQty orderId newQty prioritySeq = .ok (true, next) ∧ Consistent next ∧
      book.ChangesOnly slot next := by
  obtain ⟨side, front, level, back, ahead, entry, behind, split, queued, rfl, rfl⟩ :=
    consistent.rep.exists_split found
  have here : entry.slot ∈ queueSlots level.orders := by simp [queueSlots, queued]
  obtain ⟨next, modified, rep, complete⟩ := consistent.modifyQty_replaced
    (consistent.locate_eq split here clear) split queued newQty prioritySeq
  exact ⟨next, modified, consistent.replaced split here rep complete⟩

/-- So does `fill_order`. -/
theorem fillOrder_framed {entry : OrderView} (resting : entry ∈ restingBoth book.levelsOf)
    {filledQty : Quantity} (fits : filledQty ≤ entry.remainingQty)
    (clear : book.OwnSideFound entry.slot) :
    ∃ next, book.fillOrder entry.slot filledQty = .ok next ∧ Consistent next ∧
      book.ChangesOnly entry.slot next := by
  obtain ⟨side, level, listed, member⟩ := mem_restingBoth.mp resting
  obtain ⟨front, back, split⟩ := List.append_of_mem listed
  obtain ⟨ahead, behind, queued⟩ := List.append_of_mem member
  have here : entry.slot ∈ queueSlots level.orders := List.mem_map_of_mem member
  obtain ⟨next, filled, rep, lookup⟩ := consistent.rep.fillOrder
    (consistent.locate_eq split here clear) split queued fits
  exact ⟨next, filled, consistent.replaced split here rep
    (consistent.complete.fill consistent.rep split queued lookup)⟩

end Consistent

namespace LimitOrderBook

variable {book next : LimitOrderBook} {call : BookCall}

/-- An operation that acts on no shadowed ask is framed and keeps the book consistent. -/
theorem step_spec (consistent : Consistent book) (legal : book.Legal call)
    (unshadowed : book.Unshadowed call) :
    book.Framed call ∧ ∀ next, book.step call = .ok next → Consistent next := by
  cases call with
  | insert order prioritySeq =>
    refine ⟨trivial, fun next taken => ?_⟩
    by_cases room : book.contents.HasRoom order.side order.price
    · obtain ⟨slot, book', inserted, kept, _⟩ := consistent.insert_of_room prioritySeq room legal
      rw [step, inserted] at taken
      cases taken
      exact kept
    · rw [step, consistent.insert_of_full prioritySeq room] at taken
      cases taken
  | cancel orderId =>
    cases found : book.findOrder orderId with
    | none =>
      have unchanged := BookRep.cancel_unknown found
      simp only [Framed, target, found, step, unchanged]
      exact ⟨rfl, fun next taken => by cases taken; exact consistent⟩
    | some slot =>
      obtain ⟨book', cancelled, kept, frame⟩ :=
        consistent.cancel_framed found (unshadowed slot found)
      simp only [Framed, target, found, step, cancelled]
      exact ⟨⟨book', rfl, frame⟩, fun next taken => by cases taken; exact kept⟩
  | modifyQty orderId newQty prioritySeq =>
    cases found : book.findOrder orderId with
    | none =>
      have unchanged := BookRep.modifyQty_unknown found newQty prioritySeq
      simp only [Framed, target, found, step, unchanged]
      exact ⟨rfl, fun next taken => by cases taken; exact consistent⟩
    | some slot =>
      obtain ⟨book', modified, kept, frame⟩ :=
        consistent.modifyQty_framed found (unshadowed slot found) newQty prioritySeq
      simp only [Framed, target, found, step, modified]
      exact ⟨⟨book', rfl, frame⟩, fun next taken => by cases taken; exact kept⟩
  | fillOrder order filledQty =>
    obtain ⟨entry, resting, rfl, fits⟩ := legal
    obtain ⟨book', filled, kept, frame⟩ :=
      consistent.fillOrder_framed resting fits (unshadowed entry.slot rfl)
    simp only [Framed, target, step, filled]
    exact ⟨⟨book', rfl, frame⟩, fun next taken => by cases taken; exact kept⟩

/-- In every sequence of operations that act on no ask at the price of a bid level, every
cancellation, modification and fill changes only the level of its order, and the lookup has exactly
the linked orders. -/
theorem framed_of_unshadowed {listener : Option (List BookEvent)} {calls : List BookCall}
    (legal : Along Legal step (new listener) calls)
    (unshadowed : Along Unshadowed step (new listener) calls) :
    Along Framed step (new listener) calls ∧
      Throughout InBijection step (new listener) calls := by
  have kept : ∀ book call next, Consistent book → book.Legal call ∧ book.Unshadowed call →
      book.step call = .ok next → Consistent next :=
    fun book call next consistent guard taken =>
      (step_spec consistent guard.1 guard.2).2 next taken
  constructor
  · exact Along.of_invariant (Consistent.new listener) kept
      (fun book call consistent guard => (step_spec consistent guard.1 guard.2).1)
      (legal.and unshadowed)
  · exact Throughout.of_guarded (Consistent.new listener) kept
      (fun book consistent => ⟨consistent.ids_nodup, fun _ _ => consistent.findOrder_eq_some⟩)
      (legal.and unshadowed)

/-- A bid and an ask rest at one price; the bid is amended, filled and cancelled, then the ask. -/
theorem framed_of_unshadowed_bidsFirst :
    Throughout InBijection step (new none)
      [.insert (limitOrder 1 .sell 100 5) 1, .insert (limitOrder 2 .buy 100 7) 2,
        .modifyQty 2 9 3, .fillOrder 10238 4, .cancel 2, .cancel 1] :=
  (framed_of_unshadowed (by decide +kernel) (by decide +kernel)).2

/-- An ask and a bid rest at one price. Cancelling the ask takes the bid's level out of the book;
the ask's level keeps its order and its totals, and the lookup keeps the bid. -/
theorem shadowed_cancel_removes_bid :
    Along Legal step (new none) [.insert (limitOrder 1 .sell 100 5) 1,
        .insert (limitOrder 2 .buy 100 7) 2, .cancel 1] ∧
      Returns (fun book => 10239 ∈ orderSlots (book.levelsOf .sell) ∧
          book.findOrder 1 = some 10239 ∧
          book.records .buy = [⟨100, 7, 1, [⟨⟨1, 2⟩, 7, 2⟩]⟩] ∧
          Returns (fun next => next.records .buy = [] ∧
              next.records .sell = [⟨100, 5, 1, [⟨⟨1, 1⟩, 5, 1⟩]⟩] ∧
              next.findOrder 1 = none ∧ next.findOrder 2 = some 10238)
            (book.step (.cancel 1)))
        (runAll step (new none) [.insert (limitOrder 1 .sell 100 5) 1,
          .insert (limitOrder 2 .buy 100 7) 2]) := by
  decide +kernel

end LimitOrderBook

end FluxTrade
