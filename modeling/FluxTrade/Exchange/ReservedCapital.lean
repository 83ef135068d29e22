import FluxTrade.Exchange.ManagerRun
import FluxTrade.Library.Words
import FluxTrade.Matching.Reports

/-!
# Reserved capital

An accepted command reserves its cost, whatever its type. The report of a
cancellation shows no quantity, so nothing is released for the order it takes
out. Where accepted new orders meet nothing, accepted cancellations and
replacements cost nothing, and no order that costs something is cancelled, the
reserved capital of an account is what its resting orders cost.
-/

namespace FluxTrade

open Execution CreditManager

/-- What a resting order costs. -/
def OrderView.cost (entry : OrderView) : Nat :=
  entry.price.toInt.toNat * entry.remainingQty.toNat / 1000000

/-- What a command reserves when it is accepted. -/
def OrderCommand.cost (command : OrderCommand) : UInt64 := orderCost command.price command.qty

namespace ManagerRun

/-- The resting orders of the run's book. -/
def resting (run : ManagerRun) : List OrderView := restingBoth run.book.levelsOf

/-- The credit entry of an account. -/
def account (run : ManagerRun) (accountId : AccountId) : AccountState :=
  run.manager.riskEngine.context.credit.account accountId

/-- What an account's resting orders cost. -/
def restingCost (run : ManagerRun) (accountId : AccountId) : Nat :=
  ((run.resting.filter fun entry => run.owners entry.slot = accountId).map OrderView.cost).sum

/-- The reserved capital of every account is what its resting orders cost. -/
def ReservesOpen (run : ManagerRun) : Prop :=
  ∀ accountId ∈ traders,
    (run.account accountId).reservedCapital.toNat = run.restingCost accountId

instance (run : ManagerRun) : Decidable run.ReservesOpen := List.decidableBAll _ traders

/-- Limit orders, cancellations and replacements from accounts whose table slots are theirs alone,
with a price times quantity that fits a word and is a multiple of 10^6. -/
def SmallFlow (_run : ManagerRun) (input : ManagerInput) : Prop :=
  (input.command.type = .newOrder → input.command.orderType = .limit) ∧
    input.command.accountId ∈ traders ∧ 0 ≤ input.command.price.toInt ∧
    input.command.price.toInt.toNat * input.command.qty.toNat < 2 ^ 64 ∧
    1000000 ∣ input.command.price.toInt.toNat * input.command.qty.toNat
  deriving Decidable

/-- An accepted new order meets nothing; any other accepted command costs nothing, and no order
that costs something is cancelled. -/
def KeepsReserves (run : ManagerRun) (input : ManagerInput) : Prop :=
  run.Accepts input →
    (input.command.type = .newOrder → ¬input.order.Meets run.book) ∧
    (input.command.type ≠ .newOrder → input.command.cost = 0) ∧
    (input.command.type = .cancelOrder → ∀ entry ∈ run.resting,
      run.book.findOrder input.command.origClientOrderId = some entry.slot → entry.cost = 0)
  deriving Decidable

end ManagerRun

/-! ## Credit -/

/-- The cost of a small order, computed without wrapping. -/
theorem orderCost_toNat {price : Price} {qty : Quantity} (nonneg : 0 ≤ price.toInt)
    (small : price.toInt.toNat * qty.toNat < 2 ^ 64) :
    (orderCost price qty).toNat = price.toInt.toNat * qty.toNat / 1000000 := by
  have ticks : price.toUInt64.toNat = price.toInt.toNat := by
    have same := Words.toNat_toUInt64 nonneg
    omega
  rw [orderCost, UInt64.toNat_div, UInt64.toNat_mul, ticks, Nat.mod_eq_of_lt small]
  rfl

/-- Two entries with the same money at hand. -/
structure AccountState.Alike (left right : AccountState) : Prop where
  available : left.availableBuyingPower = right.availableBuyingPower
  reserved : left.reservedCapital = right.reservedCapital

namespace AccountState.Alike

/-- Likeness is reflexive. -/
theorem refl (state : AccountState) : state.Alike state := ⟨rfl, rfl⟩

/-- It is transitive. -/
theorem trans {first second third : AccountState} (left : first.Alike second)
    (right : second.Alike third) : first.Alike third :=
  ⟨left.available.trans right.available, left.reserved.trans right.reserved⟩

/-- Claiming moves no money. -/
theorem claim (state : AccountState) (accountId : AccountId) :
    (state.claim accountId).Alike state :=
  ⟨claim_available state accountId, claim_reserved state accountId⟩

/-- Nothing is released for nothing. -/
theorem cancel_zero (state : AccountState) : (state.cancel 0).Alike state := by
  simp only [AccountState.cancel, UInt64.zero_le, if_true]
  exact ⟨UInt64.add_zero _, UInt64.sub_zero _⟩

end AccountState.Alike

/-- An update that moves no money leaves every account alike. -/
theorem CreditManager.update_alike {change : AccountState → AccountState}
    (still : ∀ state, (change state).Alike state) (manager : CreditManager)
    (accountId other : AccountId) :
    ((manager.update accountId change).account other).Alike (manager.account other) := by
  by_cases home : slot other = slot accountId
  · have read (table : CreditManager) : table.account other = table.account accountId :=
      congrArg table.accounts home
    rw [read, read, account_update]
    exact (still _).trans (AccountState.Alike.claim _ _)
  · rw [account_update_of_ne _ _ _ _ home]
    exact .refl _

/-- A report that shows no executed quantity. -/
def ExecutionReport.Idle (report : ExecutionReport) : Prop :=
  report.execType = .new ∨ report.execType = .cancel ∧ report.lastQty = 0

/-- A cancellation reports no executed quantity. -/
theorem cancelledCtx_idle (engine : MatchingEngine) (orderId : OrderId) (clientId : ClientId)
    (accountId : AccountId) (symbolId : SymbolId) (timestamp : UInt64) :
    ∀ report ∈ (cancelledCtx engine orderId clientId accountId symbolId .empty timestamp).reports,
      report.Idle := by
  intro report member
  unfold cancelledCtx at member
  split at member
  · cases member
  · obtain rfl := List.mem_singleton.mp member
    exact Or.inr ⟨rfl, rfl⟩

/-- Reports without executed quantity move no money. -/
theorem RiskEngine.foldl_absorb_alike {reports : List ExecutionReport}
    (idle : ∀ report ∈ reports, report.Idle) (engine : RiskEngine) (side : Side)
    (accountId : AccountId) :
    ((reports.foldl (fun risk report => risk.absorb side report) engine).context.credit.account
      accountId).Alike (engine.context.credit.account accountId) := by
  induction reports generalizing engine with
  | nil => exact .refl _
  | cons report rest ih =>
    have later := ih (fun other member => idle other (List.mem_cons_of_mem _ member))
      (engine.absorb side report)
    refine later.trans ?_
    rcases idle report List.mem_cons_self with isNew | ⟨isCancel, nothing⟩
    · simp only [absorb, isNew]
      exact .refl _
    · have free : orderCost report.price report.lastQty = 0 := by
        rw [nothing, orderCost, UInt64.mul_zero, UInt64.zero_div]
      simp only [absorb, isCancel, free]
      exact update_alike AccountState.Alike.cancel_zero _ _ _

/-- An accepted cost moves from the available to the reserved money. -/
theorem AccountState.accept_money {state : AccountState} {cost : UInt64}
    (enough : cost ≤ state.availableBuyingPower)
    (fits : state.availableBuyingPower.toNat + state.reservedCapital.toNat < 2 ^ 64) :
    (state.accept cost).availableBuyingPower.toNat + (state.accept cost).reservedCapital.toNat =
        state.availableBuyingPower.toNat + state.reservedCapital.toNat ∧
      (state.accept cost).reservedCapital.toNat = state.reservedCapital.toNat + cost.toNat := by
  have bound := UInt64.le_iff_toNat_le.mp enough
  simp only [accept, enough, if_true, UInt64.toNat_sub_of_le _ _ enough, UInt64.toNat_add]
  rw [Nat.mod_eq_of_lt (by omega)]
  omega

/-! ## Runs -/

namespace ManagerRun

variable {run next : ManagerRun} {input : ManagerInput}

/-- The money of every account is available or reserved, and reserved for its resting orders. -/
structure Backed (run : ManagerRun) : Prop where
  invariant : run.Invariant
  whole : ∀ accountId ∈ traders, (run.account accountId).availableBuyingPower.toNat +
    (run.account accountId).reservedCapital.toNat = 1000000000000000
  reserves : run.ReservesOpen

/-- What a command adds to an account's reserved capital. -/
def added (run : ManagerRun) (input : ManagerInput) (accountId : AccountId) : Nat :=
  if run.Accepts input ∧ input.command.accountId = accountId then input.command.cost.toNat else 0

namespace Backed

/-- Nothing is reserved yet. -/
theorem start (symbolId : SymbolId) (round : ℚ → ℚ) : (start symbolId round).Backed where
  invariant := Invariant.start symbolId round
  whole := fun _ _ => rfl
  reserves := fun _ _ => rfl

/-- A validation reserves the cost of an accepted command for its account. -/
theorem validation (backed : run.Backed) (own : input.command.accountId ∈ traders)
    {accountId : AccountId} (trader : accountId ∈ traders) :
    let after := (run.validation input).engine.context.credit.account accountId
    after.availableBuyingPower.toNat + after.reservedCapital.toNat = 1000000000000000 ∧
      after.reservedCapital.toNat = run.restingCost accountId + run.added input accountId := by
  have whole := backed.whole accountId trader
  have reserves := backed.reserves accountId trader
  rcases run.manager.riskEngine.validate_cases input.env.halts input.env.riskClock
      input.command.riskContext ⟨[]⟩ with
    ⟨reason, refused, claimed⟩ | ⟨result, passed, _, credit, table, _⟩
  · have rejected : ¬run.Accepts input := not_accepts_of_error refused
    have alike : ((run.validation input).engine.context.credit.account accountId).Alike
        (run.account accountId) := by
      rcases claimed.account accountId with same | touched
      · exact same ▸ .refl _
      · exact touched ▸ .claim _ _
    simp only [added, rejected, false_and, if_false, alike.available, alike.reserved]
    exact ⟨whole, reserves⟩
  · have accepted : run.Accepts input := by
      change (run.manager.riskEngine.validate _ _ _ _).result.isOk = true
      rw [passed]
      rfl
    have table' : (run.validation input).engine.context.credit =
        run.manager.riskEngine.context.credit.updateOnAccept input.command.accountId
          input.command.cost := table
    simp only [added, accepted, true_and, table']
    by_cases same : input.command.accountId = accountId
    · subst same
      have enough := cost_le_of_validate credit
      change input.command.cost ≤ ((run.account input.command.accountId).claim
        input.command.accountId).availableBuyingPower at enough
      have alike := AccountState.Alike.claim (run.account input.command.accountId)
        input.command.accountId
      obtain ⟨total, reserved⟩ := AccountState.accept_money enough (by
        rw [alike.available, alike.reserved, whole]
        decide)
      rw [alike.available, alike.reserved, whole] at total
      rw [alike.reserved, reserves] at reserved
      rw [updateOnAccept, account_update, if_pos rfl]
      exact ⟨total, reserved⟩
    · rw [updateOnAccept, account_update_of_ne _ _ _ _
        (slot_ne trader own (Ne.symm same)), if_neg same]
      exact ⟨whole, reserves⟩

/-- A command that moves no more money than its validation and rests what that reserves keeps the
accounts backed. -/
theorem advance (backed : run.Backed) (own : input.command.accountId ∈ traders)
    (invariant : next.Invariant)
    (money : ∀ accountId, (next.account accountId).Alike
      ((run.validation input).engine.context.credit.account accountId))
    (costs : ∀ accountId ∈ traders,
      next.restingCost accountId = run.restingCost accountId + run.added input accountId) :
    next.Backed where
  invariant := invariant
  whole := by
    intro accountId trader
    rw [(money accountId).available, (money accountId).reserved]
    exact (backed.validation own trader).1
  reserves := by
    intro accountId trader
    rw [(money accountId).reserved, costs accountId trader]
    exact (backed.validation own trader).2

/-- A command that costs nothing adds nothing. -/
theorem added_free (free : input.command.cost = 0) (accountId : AccountId) :
    run.added input accountId = 0 := by
  unfold added
  split
  · rw [free]
    rfl
  · rfl

/-- The resting orders after a cancellation that releases nothing cost as much as before. -/
theorem restingCost_cancelled {engine : MatchingEngine} {reports : List ExecutionReport}
    (views : CancelView (run.book.findOrder input.command.origClientOrderId) run.book.levelsOf
      engine.book.levelsOf)
    (free : ∀ entry ∈ run.resting,
      run.book.findOrder input.command.origClientOrderId = some entry.slot → entry.cost = 0)
    (accountId : AccountId) :
    (run.executed input engine reports).restingCost accountId = run.restingCost accountId := by
  have kept : (run.executed input engine reports).resting = restingBoth engine.book.levelsOf := rfl
  rcases views.perm with ⟨_, same⟩ | ⟨entry, found, perm⟩
  · rw [restingCost, kept, same]
    rfl
  · have nothing := free entry (perm.mem_iff.mpr List.mem_cons_self) found
    have total := ((perm.filter fun other => run.owners other.slot = accountId).map
      OrderView.cost).sum_eq
    rw [List.filter_cons] at total
    change (List.map OrderView.cost _).sum = (List.map OrderView.cost _).sum
    rw [kept]
    split at total
    · rw [List.map_cons, List.sum_cons, nothing, Nat.zero_add] at total
      exact total.symm
    · exact total.symm

/-- A slot that gets an owner when its order is inserted adds the order to that owner's. -/
theorem restingCost_inserted {before after : List OrderView} {entry : OrderView}
    {owners : Nat → AccountId} (perm : after.Perm (entry :: before))
    (distinct : (after.map OrderView.slot).Nodup) (owner accountId : AccountId) :
    ((after.filter fun other => Function.update owners entry.slot owner other.slot =
        accountId).map OrderView.cost).sum =
      ((before.filter fun other => owners other.slot = accountId).map OrderView.cost).sum +
        if owner = accountId then entry.cost else 0 := by
  have slots := ((perm.map OrderView.slot).nodup_iff.mp distinct)
  rw [List.map_cons, List.nodup_cons] at slots
  have others : (before.filter fun other => Function.update owners entry.slot owner other.slot =
      accountId) = before.filter fun other => owners other.slot = accountId := by
    apply List.filter_congr
    intro other member
    have apart : other.slot ≠ entry.slot :=
      fun same => slots.1 (same ▸ List.mem_map_of_mem member)
    rw [Function.update_of_ne apart]
  rw [((perm.filter _).map OrderView.cost).sum_eq, List.filter_cons, others,
    Function.update_self]
  by_cases own : owner = accountId
  · simp only [own, decide_true, if_true, List.map_cons, List.sum_cons]
    omega
  · simp only [own, decide_false, Bool.false_eq_true, if_false]
    omega

/-- The resting orders after a submission that meets nothing cost what it reserves more. -/
theorem restingCost_entered {submission : Submission} (invariant : run.Invariant)
    (after : (run.entered input submission).Invariant) (legal : SmallFlow run input)
    (accepted : run.Accepts input) (isNew : input.command.type = .newOrder)
    (idle : ¬input.order.Meets run.book)
    (submits : run.manager.matchingEngine.submitOrder input.order .empty input.env.engineClock =
      .ok submission) (accountId : AccountId) :
    (run.entered input submission).restingCost accountId =
      run.restingCost accountId + run.added input accountId := by
  obtain ⟨isLimit, _, nonneg, small, _⟩ := legal
  have cost : input.command.cost.toNat =
      input.command.price.toInt.toNat * input.command.qty.toNat / 1000000 :=
    orderCost_toNat nonneg small
  obtain ⟨quiet, rests, leaves⟩ := submitOrder_idle idle submits
  simp only [added, accepted, true_and]
  by_cases zero : input.command.qty = 0
  · have nothing : input.command.cost.toNat = 0 := by
      rw [cost, zero, show (0 : UInt64).toNat = 0 from rfl, Nat.mul_zero, Nat.zero_div]
    have book : submission.engine.book = run.book := leaves (Or.inr zero)
    have owners : (run.entered input submission).owners = run.owners := by
      have exhausted : ¬input.order.RestsAfter submission.calls := by
        rw [quiet]
        exact fun stays => stays.2 zero
      simp only [ManagerRun.entered, ownersAfter, exhausted, if_false]
      split <;> rfl
    have resting : (run.entered input submission).resting = run.resting :=
      congrArg (fun book : LimitOrderBook => restingBoth book.levelsOf) book
    rw [restingCost, resting, owners, nothing, ite_self]
    rfl
  · obtain ⟨slot, inserted⟩ := rests (isLimit isNew) zero
    obtain ⟨perm, found⟩ := invariant.engine.sane.insert_perm inserted
    have stays : input.order.RestsAfter submission.calls := by
      rw [quiet]
      exact ⟨isLimit isNew, zero⟩
    have owners : (run.entered input submission).owners =
        Function.update run.owners slot input.command.accountId := by
      simp only [ManagerRun.entered, ownersAfter, found, stays, if_true]
      rfl
    rw [restingCost, owners, cost]
    exact restingCost_inserted perm after.engine.sane.slots_nodup _ _

/-- A command that keeps its reserves keeps the accounts backed. -/
theorem step (backed : run.Backed) (legal : SmallFlow run input)
    (keeps : run.KeepsReserves input) (taken : run.step input = .ok next) : next.Backed := by
  have invariant := backed.invariant.step taken
  have own := legal.2.1
  cases outcome taken with
  | rejected refused =>
    apply backed.advance own invariant (fun _ => .refl _)
    intro accountId _
    simp only [added, not_accepts_of_error refused, false_and, if_false]
    rfl
  | replaced accepted isReplace =>
    apply backed.advance own invariant (fun _ => .refl _)
    intro accountId _
    rw [added_free ((keeps accepted).2.1 (by simp [isReplace]))]
    rfl
  | @cancelled found engine ctx accepted isCancel cancels =>
    obtain ⟨_, free, released⟩ := keeps accepted
    obtain ⟨engine', view', cancelled, sane, views, _⟩ := cancelOrder_spec
      backed.invariant.engine.sane input.command.origClientOrderId 1 input.command.accountId
      input.command.symbolId .empty input.env.engineClock
    have same := cancels.symm.trans cancelled
    cases same
    obtain rfl := sane.view_eq
    apply backed.advance own invariant
    · exact fun accountId => RiskEngine.foldl_absorb_alike
        (cancelledCtx_idle _ _ _ _ _ _) _ _ accountId
    · intro accountId _
      rw [added_free (free (by simp [isCancel])), Nat.add_zero]
      exact restingCost_cancelled views (released isCancel) accountId
  | @entered submission accepted isNew submits =>
    have idle := (keeps accepted).1 isNew
    obtain ⟨quiet, _⟩ := submitOrder_idle idle submits
    have outcome := backed.invariant.engine.submitted submits
    obtain ⟨ack, ended, reports, acknowledges, cancels, _⟩ :=
      outcome.reports_eq (by rw [quiet]; decide)
    have silent : ∀ report ∈ submission.ctx.reports, report.Idle := by
      intro report member
      rw [reports, quiet] at member
      rcases List.mem_cons.mp member with rfl | last
      · exact Or.inl acknowledges
      · exact Or.inr (cancels report last)
    apply backed.advance own invariant
    · exact fun accountId => RiskEngine.foldl_absorb_alike silent _ _ accountId
    · intro accountId _
      exact restingCost_entered backed.invariant invariant legal accepted isNew idle submits
        accountId

end Backed

/-- In every run whose accepted new orders meet nothing, whose other accepted commands cost nothing
and which cancels no order that costs something, the reserved capital of every account is in every
state what its resting orders cost. -/
theorem reservesOpen_of_keepsReserves {symbolId : SymbolId} {round : ℚ → ℚ}
    {inputs : List ManagerInput}
    (legal : Along SmallFlow step (start symbolId round) inputs)
    (keeps : Along KeepsReserves step (start symbolId round) inputs) :
    Throughout ReservesOpen step (start symbolId round) inputs :=
  Throughout.of_guarded (Backed.start symbolId round)
    (fun _ _ _ backed guards taken => backed.step guards.1 guards.2 taken)
    (fun _ backed => backed.reserves) (legal.and keeps)

/-- Two orders of account 1 rest on their own sides. -/
theorem reservesOpen_of_keepsReserves_apart :
    Throughout ReservesOpen step (start 1 id)
      [commandInput (limitCommand 1 1 .sell 10100000000 1000000),
        commandInput (limitCommand 2 1 .buy 9900000000 2000000)] :=
  reservesOpen_of_keepsReserves (by decide +kernel) (by decide +kernel)

/-- The cancellation of an order, sequenced by its own identifier. -/
def cancelCommand (commandId : UInt64) (accountId : AccountId) (orderId : UInt64) : OrderCommand :=
  { limitCommand commandId accountId .buy 10000000000 0 with
    type := .cancelOrder, origClientOrderId := orderId }

/-- Account 1 cancels its only order, and the order's cost stays reserved. -/
theorem cancel_keeps_capital :
    Along SmallFlow step (start 1 id)
        [commandInput (limitCommand 1 1 .buy 10000000000 1000000),
          commandInput (cancelCommand 2 1 1)] ∧
      Returns (fun run => run.resting = [] ∧ run.restingCost 1 = 0 ∧
          (run.account 1).reservedCapital = 10000000000 ∧ ¬run.ReservesOpen)
        (runAll step (start 1 id)
          [commandInput (limitCommand 1 1 .buy 10000000000 1000000),
            commandInput (cancelCommand 2 1 1)]) := by
  decide +kernel

end ManagerRun

end FluxTrade
