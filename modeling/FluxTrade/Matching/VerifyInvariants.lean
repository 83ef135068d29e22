import FluxTrade.Matching.BookContents

/-!
# The book's own checks

`verify_invariants` walks the levels of both sides and asserts the order of the
prices, non-empty queues and matching links. With assertions compiled out it
does nothing, so the model is of the build that checks. A consistent book
passes.
-/

namespace FluxTrade

namespace SideBook

/-- The loop of `verify_invariants`: no level is better than the one before it, every level has
orders, and the next level links back. -/
def verifyLevels (side : Side) (levels : Nat → PriceLevelNode) :
    Nat → Option Nat → Price → Except Fault Unit
  | _, none, _ => .ok ()
  | 0, some _, _ => .error .outOfFuel
  | fuel + 1, some current, prevPrice =>
    let level := levels current
    if side.Better level.price prevPrice then .error .assertion
    else if level.orders.isEmpty then .error .assertion
    else if level.orders.head = none ∨ level.orders.tail = none then .error .assertion
    else if ∃ next ∈ level.next, (levels next).prev ≠ some current then .error .assertion
    else verifyLevels side levels fuel level.next level.price

/-- `BidBook::verify_invariants` and `AskBook::verify_invariants`. -/
def verifyInvariants (side : Side) (book : SideBook) (levels : Nat → PriceLevelNode) :
    Except Fault Unit :=
  match book.bestLevel with
  | none => if book.index = ∅ then .ok () else .error .assertion
  | some best =>
    if (levels best).prev ≠ none then .error .assertion
    else verifyLevels side levels levelCapacity (some best) (levels best).price

end SideBook

/-- `LimitOrderBook::verify_invariants`. -/
def LimitOrderBook.verifyInvariants (book : LimitOrderBook) : Except Fault Unit := do
  (book.sides .buy).verifyInvariants .buy book.levelPool.storage
  (book.sides .sell).verifyInvariants .sell book.levelPool.storage

namespace SideRep

variable {side : Side} {levels : Nat → PriceLevelNode} {orders : Nat → LiveOrder}
  {book : SideBook} {view : List LevelView}

variable (rep : SideRep side levels orders book view) (proper : ∀ level ∈ view, level.orders ≠ [])
include rep proper

/-- The loop passes over the levels from any place of the list on. -/
theorem verifyLevels_ok {front back : List LevelView} (split : view = front ++ back) {fuel : Nat}
    (fits : back.length ≤ fuel) {prevPrice : Price}
    (descends : ∀ level ∈ back, ¬side.Better level.price prevPrice) :
    SideBook.verifyLevels side levels fuel (levelSlots back).head? prevPrice = .ok () := by
  induction back generalizing front fuel prevPrice with
  | nil => cases fuel <;> rfl
  | cons level rest ih =>
    cases fuel with
    | zero => simp at fits
    | succ fuel =>
      have listed : level ∈ view := by simp [split]
      have node := rep.nodes level listed
      have chain := rep.chain
      rw [split, levelSlots, List.map_append, List.map_cons] at chain
      have next : (levels level.slot).next = (levelSlots rest).head? := chain.next_eq
      have filled : (levels level.slot).orders.isEmpty = false := by
        rw [Bool.eq_false_iff, ne_eq, node.queue.isEmpty_iff]
        exact proper level listed
      have ends : ¬((levels level.slot).orders.head = none ∨
          (levels level.slot).orders.tail = none) := by
        rw [node.queue.links.head_eq, node.queue.links.tail_eq]
        simpa using proper level listed
      have linked : ¬∃ next ∈ (levels level.slot).next,
          (levels next).prev ≠ some level.slot := by
        rintro ⟨successor, isNext, broken⟩
        rw [next] at isNext
        cases rest with
        | nil => cases isNext
        | cons following further =>
          obtain rfl := Option.some.inj isNext
          rw [List.map_cons, List.append_cons] at chain
          apply broken
          rw [chain.prev_eq]
          simp
      have sorted := rep.sorted
      rw [split] at sorted
      have tail := (List.pairwise_append.mp sorted).2.1
      rw [levelSlots, List.map_cons, List.head?_cons, SideBook.verifyLevels,
        if_neg (by rw [node.priced]; exact descends level List.mem_cons_self),
        if_neg (by rw [filled]; decide), if_neg ends, if_neg linked, next, node.priced]
      apply ih (by rw [split, List.append_cons])
      · simp only [List.length_cons] at fits
        omega
      · intro other member
        exact ((List.pairwise_cons.mp tail).1 other member).asymm

/-- A represented side without empty levels passes its checks. -/
theorem verifyInvariants_ok (fits : view.length ≤ levelCapacity) :
    book.verifyInvariants side levels = .ok () := by
  have best := rep.bestLevel_eq
  unfold SideBook.verifyInvariants
  cases view with
  | nil =>
    have empty : book.index = ∅ := by
      apply Finmap.ext_lookup
      intro price
      rw [Finmap.lookup_empty]
      exact (rep.findLevel_eq_none price).mpr fun _ member => by cases member
    rw [best]
    exact if_pos empty
  | cons level rest =>
    have split : level :: rest = [] ++ level :: rest := rfl
    have chain := rep.chain
    rw [split, levelSlots, List.map_append, List.map_cons] at chain
    have prev : (levels level.slot).prev = none := chain.prev_eq
    have price := (rep.nodes level List.mem_cons_self).priced
    have sorted := List.pairwise_cons.mp rep.sorted
    rw [best, levelSlots, List.map_cons, List.head?_cons]
    dsimp only
    rw [if_neg (not_not.mpr prev), price]
    apply rep.verifyLevels_ok proper split fits
    intro other member
    rcases List.mem_cons.mp member with rfl | later
    · exact Side.Better.irrefl
    · exact (sorted.1 other later).asymm

end SideRep

/-- A consistent book passes its checks. -/
theorem Consistent.verifyInvariants {book : LimitOrderBook} (consistent : Consistent book) :
    book.verifyInvariants = .ok () := by
  have sides (side : Side) := (consistent.rep.sides side).verifyInvariants_ok
    (consistent.proper side) (consistent.rep.levels_length_le side)
  rw [LimitOrderBook.verifyInvariants, sides .buy]
  exact sides .sell

end FluxTrade
