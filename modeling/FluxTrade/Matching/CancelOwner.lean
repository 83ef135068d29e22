import FluxTrade.Matching.Ownership

/-!
# Who cancels an order

`cancel_order` looks an order up by its identifier and copies the client, the
account and the symbol that it is given into the report. It compares them with
nothing, so a cancellation succeeds for its owner alone exactly as long as nobody
else names a resting order.
-/

namespace FluxTrade

open Execution

namespace EngineRun

variable {run next : EngineRun} {input : EngineInput}

/-- A submitted identifier was not submitted before. -/
def NewId (run : EngineRun) (input : EngineInput) : Prop :=
  match input.call with
  | .submit order => order.orderId ∉ run.submitted.map Order.orderId
  | _ => True

instance (run : EngineRun) (input : EngineInput) : Decidable (run.NewId input) := by
  obtain ⟨_ | _ | _ | _, _, _⟩ := input <;> dsimp only [NewId] <;> infer_instance

/-- The order submitted with the identifier has this client, account and symbol. -/
def Owner (run : EngineRun) (orderId : OrderId) (clientId : ClientId) (accountId : AccountId)
    (symbolId : SymbolId) : Prop :=
  ∃ order ∈ run.submitted, order.orderId = orderId ∧ order.clientId = clientId ∧
    order.accountId = accountId ∧ order.symbolId = symbolId
  deriving Decidable

/-- A cancellation that returns true names the owner, and one that does not name the owner returns
false and leaves book and reports alone. -/
def OwnerCancels (run : EngineRun) (input : EngineInput) : Prop :=
  match input.call with
  | .cancel orderId clientId accountId symbolId =>
    Returns (fun outcome =>
        (outcome.1 = true → run.Owner orderId clientId accountId symbolId) ∧
        (¬run.Owner orderId clientId accountId symbolId →
          outcome.1 = false ∧ outcome.2.1.book = run.engine.book ∧ outcome.2.2 = input.ctx))
      (run.engine.cancelOrder orderId clientId accountId symbolId input.ctx input.clock)
  | _ => True

/-- A cancellation of a resting order names its owner. -/
def NamesOwner (run : EngineRun) (input : EngineInput) : Prop :=
  match input.call with
  | .cancel orderId clientId accountId symbolId =>
    run.engine.book.Resting orderId → run.Owner orderId clientId accountId symbolId
  | _ => True

instance (run : EngineRun) (input : EngineInput) : Decidable (run.NamesOwner input) := by
  obtain ⟨_ | _ | _ | _, _, _⟩ := input <;> dsimp only [NamesOwner] <;> infer_instance

/-- Resting orders are known to the lookup and stem from submitted ones. -/
structure Known (run : EngineRun) : Prop where
  invariant : run.Invariant
  indexed : run.Indexed
  owned : run.Owned

namespace Known

/-- Nothing is to be known yet. -/
theorem start (listener : Option (List BookEvent)) : (EngineRun.start listener).Known where
  invariant := .start listener
  indexed := fun _ _ member => by cases member
  owned := .start listener

variable (known : run.Known)
include known

/-- An identifier that rests was submitted. -/
theorem submitted_of_resting {orderId : OrderId} (resting : run.engine.book.Resting orderId) :
    orderId ∈ run.submitted.map Order.orderId := by
  obtain ⟨entry, member, isId⟩ := resting
  obtain ⟨side, rests⟩ := mem_restingBoth_side.mp member
  obtain ⟨order, listed, _, key⟩ := known.owned.resting side entry rests
  refine List.mem_map.mpr ⟨order, listed, ?_⟩
  rw [← isId, key]

/-- A new identifier is fresh. -/
theorem freshId (new : run.NewId input) : FreshId run input := by
  obtain ⟨call, ctx, clock⟩ := input
  cases call with
  | submit order => exact fun resting => new (known.submitted_of_resting resting)
  | cancel | modify | reset => trivial

/-- A call keeps it known. -/
theorem step (new : run.NewId input) (taken : run.step input = .ok next) :
    next.Known := by
  obtain ⟨invariant, indexed⟩ := known.invariant.step taken
  exact ⟨invariant, indexed known.indexed (known.freshId new),
    known.owned.step known.invariant taken⟩

/-- The lookup finds exactly what rests. -/
theorem isSome_findOrder_iff (orderId : OrderId) :
    (run.engine.book.findOrder orderId).isSome = true ↔ run.engine.book.Resting orderId := by
  constructor
  · intro found
    by_contra fresh
    rw [known.invariant.findOrder_eq_none fresh] at found
    cases found
  · rintro ⟨entry, member, rfl⟩
    rw [known.indexed.findOrder_eq member]
    rfl

/-- One cancellation is the owner's alone exactly if it names the owner or nothing that rests. -/
theorem ownerCancels_iff (input : EngineInput) :
    run.OwnerCancels input ↔ run.NamesOwner input := by
  obtain ⟨call, ctx, clock⟩ := input
  cases call with
  | submit | modify | reset => exact Iff.rfl
  | cancel orderId clientId accountId symbolId =>
    unfold OwnerCancels NamesOwner
    dsimp only
    rw [← known.isSome_findOrder_iff]
    cases found : run.engine.book.findOrder orderId with
    | none =>
      simp only [MatchingEngine.cancelOrder, found]
      refine iff_of_true ⟨fun accepted => ?_, fun _ => ⟨rfl, rfl, rfl⟩⟩ fun known => ?_
      · cases accepted
      · cases known
    | some slot =>
      obtain ⟨engine, _, cancelled, _⟩ := cancelOrder_spec known.invariant.sane orderId clientId
        accountId symbolId ctx clock
      rw [cancelled, found]
      constructor
      · rintro ⟨named, _⟩ _
        exact named rfl
      · intro named
        exact ⟨fun _ => named rfl, fun other => absurd (named rfl) other⟩

end Known

/-- In every run that submits each identifier once, cancellations are the owners' alone exactly if
every cancellation of a resting order names its owner. -/
theorem ownerCancels_iff_namesOwner {listener : Option (List BookEvent)}
    {inputs : List EngineInput} (distinct : Along NewId step (start listener) inputs) :
    Along OwnerCancels step (start listener) inputs ↔
      Along NamesOwner step (start listener) inputs := by
  constructor
  · intro cancels
    exact Along.of_invariant (Known.start listener)
      (fun _ _ _ known legal taken => known.step legal.1 taken)
      (fun _ input known legal => (known.ownerCancels_iff input).mp legal.2)
      (distinct.and cancels)
  · intro named
    exact Along.of_invariant (Known.start listener)
      (fun _ _ _ known legal taken => known.step legal.1 taken)
      (fun _ input known legal => (known.ownerCancels_iff input).mpr legal.2)
      (distinct.and named)

/-- A cancellation with a fresh context. -/
def cancelInput (orderId : OrderId) (clientId : ClientId) (accountId : AccountId)
    (symbolId : SymbolId) : EngineInput :=
  ⟨.cancel orderId clientId accountId symbolId, .empty, ⟨0, 0, 0⟩⟩

/-- The owner cancels a bid that has been filled in part. -/
theorem ownerCancels_iff_namesOwner_partial :
    Along OwnerCancels step (start none) [submitInput (limitOrder 1 .buy 100 5),
      submitInput (limitOrder 2 .sell 100 3), cancelInput 1 1 1 1] :=
  (ownerCancels_iff_namesOwner (by decide +kernel)).mpr (by decide +kernel)

/-- Client 2 cancels the bid of client 1 and gets the report in its own name. -/
theorem not_ownerCancels_stranger :
    Along NewId step (start none)
        [submitInput (limitOrder 1 .buy 100 5), cancelInput 1 2 2 2] ∧
      ∃ run, runAll step (start none) [submitInput (limitOrder 1 .buy 100 5)] = .ok run ∧
        Returns (fun outcome => outcome.1 = true ∧
            outcome.2.2.reports.map ExecutionReport.clientId = [2] ∧
            outcome.2.1.book.findOrder 1 = none)
          (run.engine.cancelOrder 1 2 2 2 .empty ⟨0, 0, 0⟩) ∧
        ¬run.OwnerCancels (cancelInput 1 2 2 2) := by
  refine ⟨by decide +kernel, ?_⟩
  obtain ⟨run, ran, cancelled, stranger⟩ : ∃ run,
      runAll step (start none) [submitInput (limitOrder 1 .buy 100 5)] = .ok run ∧
        Returns (fun outcome => outcome.1 = true ∧
            outcome.2.2.reports.map ExecutionReport.clientId = [2] ∧
            outcome.2.1.book.findOrder 1 = none)
          (run.engine.cancelOrder 1 2 2 2 .empty ⟨0, 0, 0⟩) ∧ ¬run.Owner 1 2 2 2 :=
    Returns.exists (by decide +kernel)
  refine ⟨run, ran, cancelled, fun owner => ?_⟩
  obtain ⟨outcome, taken, accepted, _⟩ := cancelled.exists
  rw [OwnerCancels] at owner
  change Returns _ (run.engine.cancelOrder 1 2 2 2 .empty ⟨0, 0, 0⟩) at owner
  rw [taken] at owner
  exact stranger (owner.1 accepted)

end EngineRun

end FluxTrade
