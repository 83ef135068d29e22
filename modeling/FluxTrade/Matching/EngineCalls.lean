import FluxTrade.Matching.EngineRefines

/-!
# Calls of the engine on level lists

A submission sweeps the opposite side and lets the remainder of a limit order
rest; a cancellation takes one order out; a modification rewrites one queue; a
reset empties the book. Each call on an uncrossed book without empty levels
succeeds or ends the process because a pool is exhausted, and keeps the book so.
-/

namespace FluxTrade

open Function MatchingEngine

/-- What holds of the book between two calls. -/
structure Sane (book : LimitOrderBook) (view : BookView) : Prop where
  rep : BookRep book view
  proper : Proper view
  uncrossed : Uncrossed view

/-- A new book is sane. -/
theorem Sane.new (listener : Option (List BookEvent)) :
    Sane (LimitOrderBook.new listener) fun _ => [] where
  rep := BookRep.new listener
  proper := fun _ _ member => by cases member
  uncrossed := fun _ member => by cases member

/-- The quantity of an order that its fills leave open. -/
def openAfter (order : Order) (view : BookView) : Quantity :=
  leftAfter order.qty (sweepLevels order order.qty (view order.side.opposite)).1

/-- The book's two pools each have a free slot. -/
def LimitOrderBook.HasRoom (book : LimitOrderBook) : Prop :=
  book.orderPool.freeList ≠ [] ∧ book.levelPool.freeList ≠ []
  deriving Decidable

/-- The level lists after a submission: the opposite side is swept, and the remainder of a limit
order rests with the order's full quantity. -/
structure SubmitView (order : Order) (view view' : BookView) : Prop where
  opposite : view' order.side.opposite =
    (sweepLevels order order.qty (view order.side.opposite)).2
  rests : order.type = .limit → openAfter order view ≠ 0 → ∃ slot node,
    view' order.side = placeOrder order.side order.price node ((order.live order.seqNum).view slot)
      (view order.side)
  leaves : order.type ≠ .limit ∨ openAfter order view = 0 → view' order.side = view order.side

/-- The context that `settle` leaves. -/
def settledCtx (order : Order) (timestamp : UInt64) (crossing : Crossing) : ExecutionContext :=
  if crossing.remaining ≠ 0 ∧ order.type = .market then
    TradeBuilder.buildExpiration crossing.ctx crossing.execSeq order crossing.remaining timestamp
  else crossing.ctx

/-- What a successful submission has done. -/
structure Submitted (engine : MatchingEngine) (order : Order) (ctx : ExecutionContext)
    (clock : ClockReadings) (view : BookView) (submission : Submission) (view' : BookView) :
    Prop where
  crossed : ∃ crossing,
    Crossing.Extends order (engine.beginSubmit order ctx clock.now) crossing submission.calls ∧
      submission.ctx = settledCtx order clock.now crossing ∧
      submission.result.tradesGenerated = crossing.tradesGenerated
  fills : submission.calls.map MatchCall.fill =
    (sweepLevels order order.qty (view order.side.opposite)).1
  views : SubmitView order view view'
  sane : Sane submission.engine.book view'
  complete : Complete engine.book view → engine.book.findOrder order.orderId = none →
    Complete submission.engine.book view'

section Submission

variable {engine : MatchingEngine} {view : BookView} {book : LimitOrderBook}
variable {crossing : Crossing} {order : Order} {qty : Quantity} {book' : LimitOrderBook}
  {view' : BookView}

/-- The book between the loops and the remainder: the opposite side swept. -/
theorem Sane.swept (sane : Sane book view)
    (rep : BookRep crossing.book (update view order.side.opposite
      (sweepLevels order qty (view order.side.opposite)).2)) :
    Sane crossing.book (update view order.side.opposite
      (sweepLevels order qty (view order.side.opposite)).2) where
  rep := rep
  proper := by
    intro side level member
    by_cases same : side = order.side.opposite
    · subst same
      rw [update_self] at member
      exact (mem_sweepLevels (sane.proper _) member).1
    · rw [update_of_ne same] at member
      exact sane.proper side level member
  uncrossed := by
    apply sane.uncrossed.mono
    apply PricesWithin.update
    intro level member
    exact (mem_sweepLevels (sane.proper _) member).2

/-- A pool that is exhausted after the loops was exhausted before. -/
theorem hasRoom_of_swept (rep : BookRep book view)
    (rep' : BookRep book' (update view order.side.opposite
      (sweepLevels order qty (view order.side.opposite)).2)) (room : book.HasRoom) :
    book'.HasRoom := by
  obtain ⟨fewerLevels, fewerOrders⟩ :=
    sweepLevels_length_le order qty (view order.side.opposite)
  have orders := rep.orders_length order.side
  have orders' := rep'.orders_length order.side
  have levels := rep.levels_length order.side
  have levels' := rep'.levels_length order.side
  have near : order.side ≠ order.side.opposite := Ne.symm order.side.opposite_ne
  rw [update_self, update_of_ne near] at orders' levels'
  have someOrder := List.length_pos_of_ne_nil room.1
  have someLevel := List.length_pos_of_ne_nil room.2
  constructor
  · apply List.ne_nil_of_length_pos
    omega
  · apply List.ne_nil_of_length_pos
    omega

/-- An identifier unknown before the loops is unknown after them. -/
theorem findOrder_none_of_swept {orderId : OrderId} (complete : Complete book view)
    (rep' : BookRep book' (update view order.side.opposite
      (sweepLevels order qty (view order.side.opposite)).2)) (fresh : book.findOrder orderId = none)
    : book'.findOrder orderId = none := by
  cases found : book'.findOrder orderId with
  | none => rfl
  | some slot =>
    obtain ⟨side, level, member, entry, queued, _, isId⟩ := rep'.lookup orderId slot found
    have old : ∃ other, ∃ before ∈ restingOrders (view other), before.key = entry.key := by
      by_cases same : side = order.side.opposite
      · subst same
        rw [update_self] at member
        obtain ⟨before, listed, _, _, rfl⟩ :=
          mem_restingOrders_sweepLevels (mem_restingOrders.mpr ⟨level, member, queued⟩)
        exact ⟨_, before, listed, rfl⟩
      · rw [update_of_ne same] at member
        exact ⟨side, entry, mem_restingOrders.mpr ⟨level, member, queued⟩, rfl⟩
    obtain ⟨other, before, resting, key⟩ := old
    obtain ⟨home, listed, linked⟩ := mem_restingOrders.mp resting
    have known := complete other home listed before linked
    rw [key, isId, fresh] at known
    cases known

/-- The book and the level lists after the remainder is settled. -/
inductive Remainder (order : Order) (crossing : Crossing) (view : BookView) :
    LimitOrderBook → BookView → Prop where
  | rests (isLimit : order.type = .limit) (left : crossing.remaining ≠ 0) {slot node : Nat}
      {book : LimitOrderBook}
      (rep : BookRep book (update view order.side (placeOrder order.side order.price node
        ((order.live order.seqNum).view slot) (view order.side))))
      (lookup : book.lookup = crossing.book.lookup.insert order.orderId slot) :
      Remainder order crossing view book (update view order.side
        (placeOrder order.side order.price node ((order.live order.seqNum).view slot)
          (view order.side)))
  | leaves (none' : order.type ≠ .limit ∨ crossing.remaining = 0) :
      Remainder order crossing view crossing.book view

/-- The remainder of a limit order rests if the pools have room; everything else leaves the book
alone. -/
theorem settle_spec (rep : BookRep crossing.book view) (order : Order) (timestamp : UInt64) :
    (∃ crossing' status view', crossing.settle order timestamp = .ok (crossing', status) ∧
      Remainder order crossing view crossing'.book view' ∧
      crossing'.ctx = settledCtx order timestamp crossing ∧
      crossing'.calls = crossing.calls ∧
      crossing'.tradesGenerated = crossing.tradesGenerated) ∨
    crossing.settle order timestamp = .error .badAlloc ∧ order.type = .limit ∧
      crossing.remaining ≠ 0 ∧ ¬crossing.book.HasRoom := by
  unfold Crossing.settle settledCtx
  by_cases zero : crossing.remaining = 0
  · simp only [zero, if_true]
    exact Or.inl ⟨_, _, view, rfl, .leaves (Or.inr zero), by simp, rfl, rfl⟩
  · simp only [zero, if_false]
    cases kind : order.type with
    | limit =>
      rcases rep.insert order order.seqNum with
        ⟨slot, node, book, inserted, rep', lookup⟩ | ⟨failed, exhausted⟩
      · simp only [inserted, bind, Except.bind]
        exact Or.inl ⟨_, _, _, rfl, .rests kind zero rep' lookup, by simp, rfl, rfl⟩
      · simp only [failed, bind, Except.bind]
        refine Or.inr ⟨trivial, trivial, zero, fun room => ?_⟩
        rcases exhausted with orders | levels
        · exact room.1 orders
        · exact room.2 levels
    | market =>
      exact Or.inl ⟨_, _, view, rfl, .leaves (Or.inl (by simp [kind])), by simp [zero], rfl, rfl⟩
    | stop =>
      exact Or.inl ⟨_, _, view, rfl, .leaves (Or.inl (by simp [kind])), by simp, rfl, rfl⟩

/-- Placing the remainder of a sweep keeps the book sane. -/
theorem Sane.remainder (sane : Sane book view)
    (crossed : BookRep crossing.book (update view order.side.opposite
      (sweepLevels order order.qty (view order.side.opposite)).2))
    (left : crossing.remaining = openAfter order view)
    (remainder : Remainder order crossing (update view order.side.opposite
      (sweepLevels order order.qty (view order.side.opposite)).2) book' view') :
    Sane book' view' := by
  have middle := sane.swept crossed
  cases remainder with
  | leaves _ => exact middle
  | rests _ some' rep _ =>
    refine ⟨rep, middle.proper.place, middle.uncrossed.place ?_⟩
    intro far member
    rw [update_self] at member
    rw [left] at some'
    have refused := sweepLevels_refused (sane.rep.sides _).sorted some' far member
    simp only [Order.accepts, not_not] at refused
    exact refused.2

/-- The level lists after sweep and remainder. -/
theorem Remainder.submitView (left : crossing.remaining = openAfter order view)
    (remainder : Remainder order crossing (update view order.side.opposite
      (sweepLevels order order.qty (view order.side.opposite)).2) book' view') :
    SubmitView order view view' := by
  have near : order.side ≠ order.side.opposite := Ne.symm order.side.opposite_ne
  cases remainder with
  | leaves none' =>
    refine ⟨update_self .., ?_, fun _ => update_of_ne near ..⟩
    intro isLimit open'
    rw [← left] at open'
    rcases none' with other | zero
    · exact absurd isLimit other
    · exact absurd zero open'
  | @rests isLimit some' slot node _ _ _ =>
    refine ⟨?_, ?_, ?_⟩
    · rw [update_of_ne order.side.opposite_ne, update_self]
    · intro _ _
      refine ⟨slot, node, ?_⟩
      rw [update_self, update_of_ne near]
    · rintro (other | zero)
      · exact absurd isLimit other
      · exact absurd (left.trans zero) some'

/-- A remainder that rests under an unknown identifier, if it rests, keeps the lookup complete. -/
theorem Remainder.complete_of_rests (remainder : Remainder order crossing view book' view')
    (complete : Complete crossing.book view) (rep : BookRep crossing.book view)
    (fresh : order.type = .limit → crossing.remaining ≠ 0 →
      crossing.book.findOrder order.orderId = none) : Complete book' view' := by
  cases remainder with
  | leaves _ => exact complete
  | rests isLimit left _ lookup =>
    exact complete.place (rep.sides _).sorted (fresh isLimit left) lookup

/-- The remainder of an order with an unknown identifier keeps the lookup complete. -/
theorem Remainder.complete (remainder : Remainder order crossing view book' view')
    (complete : Complete crossing.book view) (rep : BookRep crossing.book view)
    (fresh : crossing.book.findOrder order.orderId = none) : Complete book' view' :=
  remainder.complete_of_rests complete rep fun _ _ => fresh

/-- The matching loops of a submission to a sane book sweep the opposite side. -/
theorem Sane.cross (sane : Sane engine.book view) (order : Order) (ctx : ExecutionContext)
    (timestamp : UInt64) :
    ∃ crossing, Crossing.cross canSelfTrade order timestamp levelCapacity
        (engine.beginSubmit order ctx timestamp) = .ok crossing ∧
      Crossed order (engine.beginSubmit order ctx timestamp) crossing view
        (sweepLevels order order.qty (view order.side.opposite)).1
        (sweepLevels order order.qty (view order.side.opposite)).2 ∧
      crossing.remaining = openAfter order view := by
  have fits : (view order.side.opposite).length ≤ levelCapacity := sane.rep.levels_length_le _
  have start : BookRep (engine.beginSubmit order ctx timestamp).book view := sane.rep
  obtain ⟨crossing, ran, crossed⟩ := Crossing.cross_spec timestamp start
    sane.uncrossed.noOverlap sane.proper fits
  exact ⟨crossing, ran, crossed, crossed.remaining⟩

/-- `submit_order` on a sane book sweeps and settles, or ends the process for want of a slot. -/
theorem submitOrder_spec (sane : Sane engine.book view) (order : Order) (ctx : ExecutionContext)
    (clock : ClockReadings) :
    (∃ submission view', engine.submitOrder order ctx clock = .ok submission ∧
      Submitted engine order ctx clock view submission view') ∨
    engine.submitOrder order ctx clock = .error .badAlloc ∧ order.type = .limit ∧
      openAfter order view ≠ 0 ∧ ¬engine.book.HasRoom := by
  obtain ⟨crossing, ran, crossed, left⟩ := sane.cross order ctx clock.now
  obtain ⟨calls, extend, fills⟩ := crossed.extend
  have log : crossing.calls = calls := extend.log
  simp only [submitOrder, submitOrderWith, ran, bind, Except.bind]
  rcases settle_spec crossed.rep order clock.now with
    ⟨crossing', status, view', settled, remainder, ctx', log', generated⟩ |
    ⟨failed, isLimit, some', full⟩
  · simp only [settled]
    have same : crossing'.calls = calls := log'.trans log
    refine Or.inl ⟨_, view', rfl, ⟨⟨crossing, ?_, ctx', generated⟩, ?_, ?_, ?_, ?_⟩⟩
    · exact same ▸ extend
    · exact same ▸ fills
    · exact remainder.submitView left
    · exact sane.remainder crossed.rep left remainder
    · intro complete fresh
      exact remainder.complete (crossed.complete complete) crossed.rep
        (findOrder_none_of_swept complete crossed.rep fresh)
  · simp only [failed]
    refine Or.inr ⟨trivial, isLimit, left ▸ some', ?_⟩
    exact fun room => full (hasRoom_of_swept sane.rep crossed.rep room)

/-- An order on the submitting side is the remainder of the submitted order or an old one. -/
theorem Submitted.rested {ctx : ExecutionContext} {clock : ClockReadings} {submission : Submission}
    {entry : OrderView} (sane : Sane engine.book view)
    (submitted : Submitted engine order ctx clock view submission view')
    (member : entry ∈ restingOrders (view' order.side)) :
    (order.type = .limit ∧ openAfter order view ≠ 0 ∧
      ∃ slot, entry = (order.live order.seqNum).view slot) ∨
      entry ∈ restingOrders (view order.side) := by
  by_cases rests : order.type = .limit ∧ openAfter order view ≠ 0
  · obtain ⟨slot, node, placed⟩ := submitted.views.rests rests.1 rests.2
    rw [placed] at member
    have among := (placeOrder_perm (sane.rep.sides order.side).sorted).mem_iff.mp member
    rcases List.mem_cons.mp among with new | old
    · exact Or.inl ⟨rests.1, rests.2, slot, new⟩
    · exact Or.inr old
  · rw [not_and_or, not_not] at rests
    rw [submitted.views.leaves rests] at member
    exact Or.inr member

end Submission

/-! ## Cancellation, modification and reset -/

section Others

variable {engine : MatchingEngine} {book : LimitOrderBook} {view : BookView}
variable {found : Option Nat} {view view' : BookView} {entry : OrderView} {newQty : Quantity}
  {prioritySeq : UInt64}

/-- The level lists after the cancellation of the order in a slot, if one was found. -/
inductive CancelView (found : Option Nat) (view : BookView) : BookView → Prop where
  | taken {side : Side} {front back : List LevelView} {level : LevelView}
      {ahead behind : List OrderView} {entry : OrderView}
      (split : view side = front ++ level :: back)
      (queued : level.orders = ahead ++ entry :: behind) (isSlot : found = some entry.slot) :
      CancelView found view (update view side
        (front ++ pruned { level with orders := ahead ++ behind } ++ back))
  | unknown (missing : found = none) : CancelView found view view

/-- A cancellation adds no resting order. -/
theorem CancelView.subset (cancelled : CancelView found view view') (side : Side)
    (member : entry ∈ restingOrders (view' side)) : entry ∈ restingOrders (view side) := by
  cases cancelled with
  | unknown _ => exact member
  | @taken home front back level ahead behind removed split queued isSlot =>
    by_cases same : side = home
    · subst same
      rw [update_self] at member
      rw [split, restingOrders_append, restingOrders_cons, queued]
      simp only [restingOrders_append, restingOrders_pruned, List.mem_append, List.mem_cons]
        at member ⊢
      tauto
    · rw [update_of_ne same] at member
      exact member

/-- A cancellation takes the order in the slot out and no other. -/
theorem CancelView.perm (cancelled : CancelView found view view') :
    (found = none ∧ view' = view) ∨ ∃ entry, found = some entry.slot ∧
      (restingBoth view).Perm (entry :: restingBoth view') := by
  cases cancelled with
  | unknown missing => exact Or.inl ⟨missing, rfl⟩
  | @taken side front back level ahead behind entry split queued isSlot =>
    refine Or.inr ⟨entry, isSlot, ?_⟩
    have before : (restingOrders (view side)).Perm (entry :: restingOrders
        (front ++ pruned { level with orders := ahead ++ behind } ++ back)) := by
      rw [split]
      simp only [restingOrders_append, restingOrders_cons, restingOrders_pruned, queued,
        List.append_assoc]
      exact ((List.perm_middle.append_left _).trans List.perm_middle)
    exact (restingBoth_perm view side).trans ((before.append_right _).trans
      ((restingBoth_update view side _).symm.cons entry))

/-- The context that `cancel_order` leaves. -/
def cancelledCtx (engine : MatchingEngine) (orderId : OrderId) (clientId : ClientId)
    (accountId : AccountId) (symbolId : SymbolId) (ctx : ExecutionContext) (timestamp : UInt64) :
    ExecutionContext :=
  match engine.book.findOrder orderId with
  | none => ctx
  | some slot =>
    TradeBuilder.buildCancel ctx engine.execSeq (engine.book.order slot) clientId accountId
      symbolId timestamp

/-- `cancel_order` takes the order out, or finds no order and changes neither book nor context. -/
theorem cancelOrder_spec (sane : Sane engine.book view) (orderId : OrderId) (clientId : ClientId)
    (accountId : AccountId) (symbolId : SymbolId) (ctx : ExecutionContext)
    (clock : ClockReadings) :
    ∃ engine' view', engine.cancelOrder orderId clientId accountId symbolId ctx clock =
        .ok ((engine.book.findOrder orderId).isSome, engine',
          cancelledCtx engine orderId clientId accountId symbolId ctx clock.now) ∧
      Sane engine'.book view' ∧ CancelView (engine.book.findOrder orderId) view view' ∧
      (Complete engine.book view → Complete engine'.book view') := by
  cases found : engine.book.findOrder orderId with
  | none =>
    simp only [cancelOrder, cancelledCtx, found]
    exact ⟨_, view, rfl, sane, .unknown rfl, id⟩
  | some slot =>
    obtain ⟨side, front, level, back, ahead, entry, behind, split, queued, rfl, rfl⟩ :=
      sane.rep.exists_split found
    have located := sane.rep.locate_split sane.uncrossed.noOverlap split
    obtain ⟨book', cancelled, rep, lookup⟩ := sane.rep.cancel located split queued found
    simp only [cancelOrder, cancelledCtx, found, cancelled, bind, Except.bind]
    refine ⟨_, _, rfl, ⟨rep, ?_, ?_⟩, .taken split queued rfl, ?_⟩
    · exact sane.proper.replaced split
    · exact sane.uncrossed.mono (pricesWithin_replaced split)
    · exact fun complete => complete.takeOut sane.rep split queued lookup

/-- The level lists after a modification. -/
inductive ModifyView (orderId : OrderId) (newQty : Quantity) (prioritySeq : UInt64)
    (view : BookView) : BookView → Prop where
  | amended {side : Side} {front back : List LevelView} {level : LevelView}
      {ahead behind : List OrderView} {entry : OrderView}
      (split : view side = front ++ level :: back)
      (queued : level.orders = ahead ++ entry :: behind) (isId : entry.key.orderId = orderId) :
      ModifyView orderId newQty prioritySeq view (update view side
        (front ++ { level with orders := amended ahead behind entry newQty prioritySeq } :: back))
  | unknown : ModifyView orderId newQty prioritySeq view view

/-- An amended queue is not empty. -/
theorem amended_ne_nil (ahead behind : List OrderView) (entry : OrderView) (newQty : Quantity)
    (prioritySeq : UInt64) : amended ahead behind entry newQty prioritySeq ≠ [] := by
  unfold amended
  split
  · simp
  · split <;> simp

/-- Amending keeps slots and identifiers. -/
theorem mem_amended {ahead behind : List OrderView} {found : OrderView}
    (member : found ∈ amended ahead behind entry newQty prioritySeq) :
    ∃ old ∈ ahead ++ entry :: behind, old.slot = found.slot ∧ old.key = found.key := by
  unfold amended at member
  split at member
  · simp only [List.mem_append, List.mem_cons] at member
    rcases member with before | rfl | after
    · exact ⟨found, by simp [before], rfl, rfl⟩
    · exact ⟨entry, by simp, rfl, rfl⟩
    · exact ⟨found, by simp [after], rfl, rfl⟩
  · split at member
    · simp only [List.mem_append, List.mem_singleton] at member
      rcases member with (before | after) | rfl
      · exact ⟨found, by simp [before], rfl, rfl⟩
      · exact ⟨found, by simp [after], rfl, rfl⟩
      · exact ⟨entry, by simp, rfl, rfl⟩
    · exact ⟨found, member, rfl, rfl⟩

/-- A modification keeps the keys of resting orders. -/
theorem ModifyView.keys {orderId : OrderId}
    (modified : ModifyView orderId newQty prioritySeq view view') (side : Side)
    (member : entry ∈ restingOrders (view' side)) :
    ∃ old ∈ restingOrders (view side), old.key = entry.key := by
  cases modified with
  | unknown => exact ⟨entry, member, rfl⟩
  | @amended home front back level ahead behind found split queued isId =>
    by_cases same : side = home
    · subst same
      rw [update_self] at member
      rw [split, restingOrders_append, restingOrders_cons, queued]
      simp only [restingOrders_append, restingOrders_cons, List.mem_append] at member
      rcases member with before | here | after
      · exact ⟨entry, List.mem_append_left _ before, rfl⟩
      · obtain ⟨old, listed, _, key⟩ := mem_amended here
        exact ⟨old, List.mem_append_right _ (List.mem_append_left _ listed), key⟩
      · exact ⟨entry, List.mem_append_right _ (List.mem_append_right _ after), rfl⟩
    · rw [update_of_ne same] at member
      exact ⟨entry, member, rfl⟩

/-- `modify_order` rewrites one queue, or finds no order and leaves the book alone. -/
theorem modifyOrder_spec (sane : Sane engine.book view) (orderId : OrderId) (newQty : Quantity)
    (clock : ClockReadings) :
    ∃ engine' view', engine.modifyOrder orderId newQty clock =
        .ok ((engine.book.findOrder orderId).isSome, engine') ∧
      Sane engine'.book view' ∧ ModifyView orderId newQty clock.now view view' ∧
      (Complete engine.book view → Complete engine'.book view') := by
  cases found : engine.book.findOrder orderId with
  | none =>
    have unchanged := BookRep.modifyQty_unknown found newQty clock.now
    simp only [modifyOrder, unchanged, bind, Except.bind]
    exact ⟨_, view, rfl, sane, .unknown, id⟩
  | some slot =>
    obtain ⟨side, front, level, back, ahead, entry, behind, split, queued, rfl, rfl⟩ :=
      sane.rep.exists_split found
    have located := sane.rep.locate_split sane.uncrossed.noOverlap split
    obtain ⟨book', modified, rep, lookup⟩ :=
      sane.rep.modifyQty located split queued found newQty clock.now
    have kept := amended_ne_nil ahead behind entry newQty clock.now
    -- An amended queue is not empty, so pruning its level does nothing.
    have whole : front ++ { level with orders := amended ahead behind entry newQty clock.now } ::
        back = front ++ pruned { level with
          orders := amended ahead behind entry newQty clock.now } ++ back := by
      simp [pruned, kept]
    simp only [modifyOrder, modified, bind, Except.bind]
    refine ⟨_, _, rfl, ⟨rep, ?_, ?_⟩, .amended split queued rfl, ?_⟩
    · rw [whole]
      exact sane.proper.replaced split
    · rw [whole]
      exact sane.uncrossed.mono (pricesWithin_replaced split)
    · intro complete
      rw [whole]
      apply complete.keep lookup
      apply entries_replaced split
      intro found member
      rw [queued]
      exact mem_amended member

/-- `reset` empties the book. -/
theorem reset_spec (sane : Sane engine.book view) :
    ∃ engine', engine.reset = .ok engine' ∧ Sane engine'.book (fun _ => []) ∧
      Complete engine'.book fun _ => [] := by
  obtain ⟨book', cleared, rep, _⟩ := sane.rep.clear
  simp only [reset, cleared, bind, Except.bind]
  refine ⟨_, rfl, ⟨rep, ?_, ?_⟩, ?_⟩
  · exact fun _ _ member => by cases member
  · exact fun _ member => by cases member
  · exact fun _ _ member => by cases member

end Others

end FluxTrade
