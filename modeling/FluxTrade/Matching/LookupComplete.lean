import FluxTrade.Matching.BookContents
import FluxTrade.Matching.EngineRun

/-!
# The lookup under reused identifiers

`OrderLookup` maps an identifier to one order. An order that comes to rest under
the identifier of another resting order takes over its entry, and the other
order can no longer be found. Short of that, every linked order has its entry:
an identifier may be used again once the order that had it has left the book,
or by an order that does not come to rest.
-/

namespace FluxTrade

open Execution

/-- The lookup has as many entries as there are linked orders, leads to each of them, and each can
be cancelled. -/
structure LookupComplete (engine : MatchingEngine) : Prop where
  count : engine.book.lookup.keys.card = (restingBoth engine.book.levelsOf).length
  found : ∀ entry ∈ restingBoth engine.book.levelsOf,
    engine.book.findOrder entry.key.orderId = some entry.slot
  cancellable : ∀ entry ∈ restingBoth engine.book.levelsOf,
    ∀ clientId accountId symbolId ctx clock,
      ∃ next ctx', engine.cancelOrder entry.key.orderId clientId accountId symbolId ctx clock =
          .ok (true, next, ctx') ∧
        (restingBoth engine.book.levelsOf).Perm (entry :: restingBoth next.book.levelsOf)

/-- The levels once a submitted order has taken what it can. -/
def sweptView (order : Order) (view : BookView) : BookView :=
  Function.update view order.side.opposite
    (sweepLevels order order.qty (view order.side.opposite)).2

namespace EngineRun

/-- A submitted order that comes to rest does so under an identifier that no order has then. -/
def RestsUnderNewId (run : EngineRun) (input : EngineInput) : Prop :=
  match input.call with
  | .submit order =>
    order.type = .limit ∧ openAfter order run.engine.book.levelsOf ≠ 0 →
      ∀ entry ∈ restingBoth (sweptView order run.engine.book.levelsOf),
        entry.key.orderId ≠ order.orderId
  | _ => True

instance (run : EngineRun) (input : EngineInput) : Decidable (run.RestsUnderNewId input) := by
  obtain ⟨_ | _ | _ | _, _, _⟩ := input <;> dsimp only [RestsUnderNewId] <;> infer_instance

end EngineRun

/-! ## Complete lookups -/

section

variable {engine : MatchingEngine}
variable {view : BookView} {order : Order} {ctx : ExecutionContext} {clock : ClockReadings}
  {submission : Submission}

/-- The keys of the lookup are the identifiers of the linked orders. -/
theorem Consistent.card_keys {book : LimitOrderBook} (consistent : Consistent book) :
    book.lookup.keys.card = (restingBoth book.levelsOf).length := by
  have keys : book.lookup.keys = book.contents.ids.toFinset := by
    ext orderId
    rw [Finmap.mem_keys, List.mem_toFinset, ← not_iff_not, ← consistent.findOrder_eq_none]
    exact Finmap.lookup_eq_none.symm
  rw [keys, List.toFinset_card_of_nodup consistent.ids_nodup, LimitOrderBook.contents,
    ids_contentsOf, List.length_map]

/-- A complete view. -/
theorem LookupComplete.of_complete (sane : Sane engine.book engine.book.levelsOf)
    (complete : Complete engine.book engine.book.levelsOf) : LookupComplete engine where
  count := Consistent.card_keys ⟨sane.rep, sane.proper, complete⟩
  found := by
    intro entry resting
    obtain ⟨side, level, listed, queued⟩ := mem_restingBoth.mp resting
    exact complete side level listed entry queued
  cancellable := by
    intro entry resting clientId accountId symbolId ctx clock
    obtain ⟨side, level, listed, queued⟩ := mem_restingBoth.mp resting
    have found := complete side level listed entry queued
    obtain ⟨next, view', cancelled, sane', views, _⟩ :=
      cancelOrder_spec sane entry.key.orderId clientId accountId symbolId ctx clock
    rw [found] at cancelled views
    refine ⟨next, _, cancelled, ?_⟩
    obtain rfl := sane'.view_eq
    rcases views.perm with ⟨missing, _⟩ | ⟨taken, isSlot, perm⟩
    · cases missing
    · -- The order taken out has the slot of the entry, and slots are not shared.
      have same : taken = entry :=
        List.inj_on_of_nodup_map sane.slots_nodup (perm.mem_iff.mpr List.mem_cons_self) resting
          (Option.some.inj isSlot).symm
      exact same ▸ perm

/-- A submission keeps the lookup complete if the order does not come to rest under an identifier
in use. -/
theorem submitOrder_complete (sane : Sane engine.book view) (complete : Complete engine.book view)
    (submits : engine.submitOrder order ctx clock = .ok submission)
    (unused : order.type = .limit ∧ openAfter order view ≠ 0 →
      ∀ entry ∈ restingBoth (sweptView order view), entry.key.orderId ≠ order.orderId) :
    Complete submission.engine.book submission.engine.book.levelsOf := by
  obtain ⟨crossing, ran, crossed, left⟩ := sane.cross order ctx clock.now
  simp only [MatchingEngine.submitOrder, MatchingEngine.submitOrderWith, ran, bind,
    Except.bind] at submits
  rcases settle_spec crossed.rep order clock.now with
    ⟨crossing', status, view', settled, remainder, _⟩ | ⟨failed, _⟩
  · simp only [settled] at submits
    cases submits
    have sane' := sane.remainder crossed.rep left remainder
    rw [← sane'.view_eq]
    apply remainder.complete_of_rests (crossed.complete complete) crossed.rep
    intro isLimit open'
    cases found : crossing.book.findOrder order.orderId with
    | none => rfl
    | some slot =>
      obtain ⟨side, level, listed, entry, queued, _, isId⟩ := crossed.rep.lookup _ _ found
      exact absurd isId (unused ⟨isLimit, left ▸ open'⟩ entry
        (mem_restingBoth.mpr ⟨side, level, listed, queued⟩))
  · simp only [failed] at submits
    cases submits

/-- An order that rests joins the orders left by the sweep. -/
theorem Submitted.perm_of_rests (sane : Sane engine.book view) {view' : BookView}
    (submitted : Submitted engine order ctx clock view submission view')
    (rests : order.type = .limit ∧ openAfter order view ≠ 0) :
    ∃ slot, (restingBoth view').Perm
      ((order.live order.seqNum).view slot :: restingBoth (sweptView order view)) := by
  obtain ⟨slot, node, placed⟩ := submitted.views.rests rests.1 rests.2
  refine ⟨slot, ?_⟩
  have near : order.side ≠ order.side.opposite := Ne.symm order.side.opposite_ne
  have swept := restingBoth_perm (sweptView order view) order.side
  rw [sweptView, Function.update_self, Function.update_of_ne near] at swept
  have after := restingBoth_perm view' order.side
  rw [placed, submitted.views.opposite] at after
  have place : (restingOrders (placeOrder order.side order.price node
      ((order.live order.seqNum).view slot) (view order.side))).Perm
        ((order.live order.seqNum).view slot :: restingOrders (view order.side)) :=
    placeOrder_perm (sane.rep.sides order.side).sorted
  exact after.trans ((place.append_right _).trans (swept.symm.cons _))

end

/-! ## Runs -/

namespace EngineRun

variable {run next : EngineRun} {input : EngineInput}

/-- A call under which no order rests under an identifier in use keeps the lookup complete. -/
theorem Invariant.step_indexed (invariant : run.Invariant) (indexed : run.Indexed)
    (newId : run.RestsUnderNewId input) (taken : run.step input = .ok next) : next.Indexed := by
  obtain ⟨call, ctx, clock⟩ := input
  cases call with
  | submit order =>
    cases submits : run.engine.submitOrder order ctx clock with
    | error fault =>
      simp only [EngineRun.step, submits] at taken
      cases taken
    | ok submission =>
      simp only [EngineRun.step, submits] at taken
      cases taken
      exact submitOrder_complete invariant.sane indexed submits newId
  | _ => exact (invariant.step taken).2 indexed trivial

/-- An order that rests under an identifier in use hides one of the two orders. -/
theorem Invariant.restsUnderNewId (invariant : run.Invariant) (taken : run.step input = .ok next)
    (complete : LookupComplete next.engine) : run.RestsUnderNewId input := by
  cases invariant.moved taken with
  | @submit order ctx clock submission outcome =>
    intro rests entry swept isId
    obtain ⟨slot, perm⟩ := outcome.perm_of_rests invariant.sane rests
    have new : submission.engine.book.findOrder order.orderId = some slot :=
      complete.found _ (perm.mem_iff.mpr List.mem_cons_self)
    have old := complete.found entry (perm.mem_iff.mpr (List.mem_cons_of_mem _ swept))
    rw [isId] at old
    have same : entry.slot = slot := Option.some.inj (old.symm.trans new)
    have slots := (perm.map OrderView.slot).nodup_iff.mp outcome.sane.slots_nodup
    have shared : slot ∈ (restingBoth (sweptView order run.engine.book.levelsOf)).map
        OrderView.slot := List.mem_map.mpr ⟨entry, swept, same⟩
    exact (List.nodup_cons.mp slots).1 shared
  | _ => exact trivial

/-- The lookup is complete in every state of a run exactly if no order comes to rest under the
identifier of a resting order. -/
theorem lookupComplete_iff_newIds {listener : Option (List BookEvent)} {inputs : List EngineInput}
    {final : EngineRun}
    (ran : runAll EngineRun.step (EngineRun.start listener) inputs = .ok final) :
    Throughout (fun run => LookupComplete run.engine) EngineRun.step (EngineRun.start listener)
        inputs ↔
      Along RestsUnderNewId EngineRun.step (EngineRun.start listener) inputs := by
  let motive (run : EngineRun) := run.Invariant ∧ run.Indexed
  have start : motive (EngineRun.start listener) :=
    ⟨.start listener, fun _ _ member => nomatch member⟩
  have lawful : Along (fun _ _ => True) EngineRun.step (EngineRun.start listener) inputs :=
    Along.of_forall (fun _ _ => trivial) _ _
  refine Throughout.iff_along start ?_ ?_ ?_ lawful ran
  · rintro run ⟨invariant, indexed⟩
    exact .of_complete invariant.sane indexed
  · rintro run input next ⟨invariant, indexed⟩ _ newId taken
    exact ⟨(invariant.step taken).1, invariant.step_indexed indexed newId taken⟩
  · rintro run input next ⟨invariant, _⟩ _ taken complete
    exact invariant.restsUnderNewId taken complete

/-- An identifier is used by an order that trades away at once, and again when it is free. -/
theorem lookupComplete_iff_newIds_reused :
    Throughout (fun run => LookupComplete run.engine) EngineRun.step (EngineRun.start none)
      [submitInput (limitOrder 1 .sell 100 5), submitInput (limitOrder 1 .buy 100 5),
        submitInput (limitOrder 1 .sell 101 5)] := by
  have ran : Returns (fun _ => True) (runAll EngineRun.step (EngineRun.start none)
      [submitInput (limitOrder 1 .sell 100 5), submitInput (limitOrder 1 .buy 100 5),
        submitInput (limitOrder 1 .sell 101 5)]) := by
    decide +kernel
  obtain ⟨final, ran, _⟩ := ran.exists
  exact (lookupComplete_iff_newIds ran).mpr (by decide +kernel)

/-- Two bids rest under one identifier: the lookup has one entry for them, and cancelling it leaves
a linked order that cannot be found. -/
theorem reusedId_hides_order :
    Returns (fun run => run.engine.book.lookup.keys.card = 1 ∧
        (restingBoth run.engine.book.levelsOf).length = 2 ∧
        Returns (fun cancelled => (restingBoth cancelled.engine.book.levelsOf).length = 1 ∧
            cancelled.engine.book.findOrder 1 = none)
          (run.step ⟨.cancel 1 1 1 1, .empty, ⟨0, 0, 0⟩⟩))
      (runAll EngineRun.step (EngineRun.start none)
        [submitInput (limitOrder 1 .buy 100 5), submitInput (limitOrder 1 .buy 101 5)]) := by
  decide +kernel

end EngineRun

end FluxTrade
