import Mathlib.Tactic.Linarith
import Mathlib.Tactic.NormNum
import FluxTrade.Exchange.Replies
import FluxTrade.Gateway.Gateway
import FluxTrade.Risk.Isolation

/-!
# Cancellations through the exchange

A cancellation passes the same risk checks as a new order. Its quantity is
zero, so it costs nothing and moves no position, but its price is compared with
the price band like any other. The gateway does not set the price of a
cancellation, and zero is outside of the band.
-/

namespace FluxTrade

open Execution RiskEngine

/-- The band around 100.00 with exact arithmetic: 90.00 to 110.00. -/
theorem PriceBandValidator.validate_iff {ctx : RiskContext}
    (reference : ctx.referencePrice = basePrice) :
    PriceBandValidator.validate id ctx (new id).limits = true ↔
      9000000000 ≤ ctx.price.toInt ∧ ctx.price.toInt ≤ 11000000000 := by
  have nonzero : ctx.referencePrice ≠ 0 := by
    rw [reference]
    decide
  have ticks : ctx.referencePrice.toInt = 10000000000 := by
    rw [reference]
    decide
  have above : (110 : ℚ) < (ctx.price.toInt : ℚ) / 100000000 ↔
      11000000000 < ctx.price.toInt := by
    rw [lt_div_iff₀ (by norm_num)]
    norm_num
    norm_cast
  have below : (ctx.price.toInt : ℚ) / 100000000 < 90 ↔ ctx.price.toInt < 9000000000 := by
    rw [div_lt_iff₀ (by norm_num)]
    norm_num
    norm_cast
  have upperLimit : (100 : ℚ) * (1 + 1 / 10) = 110 := by norm_num
  have lowerLimit : (100 : ℚ) * (1 - 1 / 10) = 90 := by norm_num
  have ref : ((10000000000 : ℤ) : ℚ) / 100000000 = 100 := by norm_num
  simp only [PriceBandValidator.validate, nonzero, if_false, Price.toDouble, id_eq, ticks,
    new, ref, upperLimit, lowerLimit, above, below, Bool.not_eq_true',
    Bool.or_eq_false_iff, decide_eq_false_iff_not]
  omega

/-! ## The risk engine along a run -/

namespace RiskEngine

/-- Two engines with the same configuration and the same remembered identifiers. -/
structure SameSettings (left right : RiskEngine) : Prop where
  round : left.round = right.round
  limits : left.limits = right.limits
  duplicates : left.context.duplicates = right.context.duplicates

/-- Reports keep the settings. -/
theorem foldl_absorb_settings (side : Side) (reports : List ExecutionReport)
    (engine : RiskEngine) :
    SameSettings (reports.foldl (fun risk report => risk.absorb side report) engine) engine := by
  induction reports generalizing engine with
  | nil => exact ⟨rfl, rfl, rfl⟩
  | cons report rest ih =>
    have first : SameSettings (engine.absorb side report) engine := by
      unfold absorb
      split <;> exact ⟨rfl, rfl, rfl⟩
    obtain ⟨round, limits, duplicates⟩ := ih (engine.absorb side report)
    exact ⟨round.trans first.round, limits.trans first.limits,
      duplicates.trans first.duplicates⟩

end RiskEngine

namespace ManagerRun

variable {run next : ManagerRun} {input : ManagerInput}

/-- The risk engine has the limits it was constructed with and remembers only identifiers of
processed commands. -/
structure Configured (run : ManagerRun) : Prop where
  round : run.manager.riskEngine.round = id
  limits : run.manager.riskEngine.limits = (new id).limits
  unseen : ∀ clientOrderId, (∀ command ∈ run.processed, command.clientOrderId ≠ clientOrderId) →
    run.manager.riskEngine.context.duplicates.Unseen clientOrderId

namespace Configured

/-- A new engine is configured. -/
theorem start (symbolId : SymbolId) : (ManagerRun.start symbolId id).Configured where
  round := rfl
  limits := rfl
  unseen clientOrderId _ := by
    by_cases zero : clientOrderId = 0
    · exact Or.inl zero
    · exact Or.inr (Ne.symm zero)

/-- A command changes the settings of the risk engine by its validation only. -/
theorem advance (configured : run.Configured)
    (settings : next.manager.riskEngine.SameSettings (run.validation input).engine)
    (processed : next.processed = run.processed ++ [input.command]) : next.Configured where
  round := by
    rw [settings.round, ← configured.round]
    exact validate_round ..
  limits := by
    rw [settings.limits, ← configured.limits]
    exact validate_limits ..
  unseen := by
    intro clientOrderId fresh
    rw [processed] at fresh
    have own : input.command.clientOrderId ≠ clientOrderId :=
      fresh _ (List.mem_append_right _ List.mem_cons_self)
    rw [settings.duplicates]
    exact validate_unseen own (configured.unseen clientOrderId fun command member =>
      fresh command (List.mem_append_left _ member)) _ _ _

/-- A command keeps the settings. -/
theorem step (configured : run.Configured) (taken : run.step input = .ok next) :
    next.Configured := by
  cases outcome taken with
  | rejected _ => exact configured.advance ⟨rfl, rfl, rfl⟩ rfl
  | entered _ _ _ =>
    exact configured.advance (foldl_absorb_settings _ _ (run.validation input).engine)
      rfl
  | cancelled _ _ _ =>
    exact configured.advance (foldl_absorb_settings _ _ (run.validation input).engine)
      rfl
  | replaced _ _ => exact configured.advance ⟨rfl, rfl, rfl⟩ rfl

/-- Every run keeps them. -/
theorem of_run {symbolId : SymbolId} {inputs : List ManagerInput}
    (ran : runAll ManagerRun.step (ManagerRun.start symbolId id) inputs = .ok run) :
    run.Configured :=
  runAll_invariant (Configured.start symbolId)
    (fun _ _ _ configured taken => configured.step taken) ran

/-- No command outside of the price band is accepted. -/
theorem inBand (configured : run.Configured) (accepted : run.Accepts input) :
    9000000000 ≤ input.command.price.toInt ∧ input.command.price.toInt ≤ 11000000000 := by
  have passes := (validate_isOk_iff _ _ _ _ _).mp accepted
  have band := passes.priceBand
  rw [configured.round, configured.limits] at band
  exact (PriceBandValidator.validate_iff rfl).mp band

end Configured

/-! ## Cancelling a resting order -/

/-- The position and the daily exposure of the account are within their limits, as the checks see
them for a command without a quantity. -/
def WithinLimits (run : ManagerRun) (command : OrderCommand) : Prop :=
  MarginManager.validate command.riskContext (run.manager.riskEngine.context.margin.position
      command.accountId command.symbolId) = true ∧
    CreditManager.validate command.riskContext run.manager.riskEngine.limits
      (run.account command.accountId) = true
  deriving Decidable

/-- The account of the command is within its rate limit. -/
def WithinRate (run : ManagerRun) (command : OrderCommand) : Prop :=
  (run.manager.riskEngine.context.rateLimits.checkRate command.accountId command.timestamp
    run.manager.riskEngine.limits.maxOrdersPerSec).1 = true
  deriving Decidable

/-- The processed command has taken the order out of the book and reported its cancellation. -/
def Withdraws (run : ManagerRun) (entry : OrderView) (command : OrderCommand)
    (outcome : Processed) : Prop :=
  run.resting.Perm (entry :: restingBoth outcome.manager.matchingEngine.book.levelsOf) ∧
    ∃ report : ExecutionReport, outcome.outbound = [report.outbound command.connId .buy] ∧
      report.execType = .cancel ∧ report.orderId = entry.key.orderId

/-- A fresh command without quantity, halt or rate limit in its way is accepted exactly if its price
is in the band and the account within its limits. -/
theorem Configured.accepts_iff (configured : run.Configured) (noQty : input.command.qty = 0)
    (fresh : ∀ earlier ∈ run.processed,
      earlier.clientOrderId ≠ input.command.clientOrderId)
    (unhalted : input.env.halts = .none) (inRate : run.WithinRate input.command) :
    run.Accepts input ↔
      (9000000000 ≤ input.command.price.toInt ∧ input.command.price.toInt ≤ 11000000000) ∧
        run.WithinLimits input.command := by
  constructor
  · intro accepted
    have passes := (validate_isOk_iff _ _ _ _ _).mp accepted
    exact ⟨configured.inBand accepted, passes.position, passes.credit⟩
  · rintro ⟨band, position, credit⟩
    apply (validate_isOk_iff _ _ _ _ _).mpr
    refine ⟨?_, ?_, ?_, inRate, ?_, ?_, position, credit⟩
    · rw [unhalted, configured.limits]
      rfl
    · rw [unhalted]
      rfl
    · exact (configured.unseen _ fresh).checkDuplicate
    · have cheap : ¬(new id).limits.maxOrderPrice < input.command.price := by
        rw [Int64.lt_iff_toInt_lt]
        have bound : (new id).limits.maxOrderPrice.toInt = 500000000000 := by decide
        omega
      have few : ¬(new id).limits.maxOrderQty < input.command.qty := by
        rw [noQty]
        decide
      simp only [FatFingerValidator.validate, configured.limits, OrderCommand.riskContext, cheap,
        few, and_false, if_false]
    · rw [configured.round, configured.limits]
      exact (PriceBandValidator.validate_iff rfl).mpr band

/-- In every state that a run reaches, a fresh cancellation of a resting order that meets no halt
and is within the rate limit takes the order out exactly if the lookup leads to the order, the
price of the command is in the band and the account is within its limits. -/
theorem withdraws_iff_inBand {symbolId : SymbolId} {inputs : List ManagerInput}
    (ran : runAll step (start symbolId id) inputs = .ok run) {entry : OrderView}
    (resting : entry ∈ run.resting) (isCancel : input.command.type = .cancelOrder)
    (named : input.command.origClientOrderId = entry.key.orderId)
    (noQty : input.command.qty = 0)
    (fresh : ∀ earlier ∈ run.processed, earlier.clientOrderId ≠ input.command.clientOrderId)
    (unhalted : input.env.halts = .none) (inRate : run.WithinRate input.command) :
    Returns (run.Withdraws entry input.command)
        (run.manager.processCommand input.env input.command) ↔
      run.book.findOrder entry.key.orderId = some entry.slot ∧
        (9000000000 ≤ input.command.price.toInt ∧ input.command.price.toInt ≤ 11000000000) ∧
        run.WithinLimits input.command := by
  have invariant := Invariant.of_run ran
  have accepts := (Configured.of_run ran).accepts_iff noQty fresh unhalted inRate
  rw [← accepts, ← named]
  generalize processed : run.manager.processCommand input.env input.command = result
  have reply := processed ▸ invariant.reply input
  cases reply with
  | rejected refused =>
    refine iff_of_false ?_ fun withdrawn => not_accepts_of_error refused withdrawn.2
    rintro ⟨_, report, outbound, _⟩
    cases outbound
  | entered _ isNew _ _ _ => cases isNew.symm.trans isCancel
  | exhausted _ isNew _ => cases isNew.symm.trans isCancel
  | replaced _ isReplace => cases isReplace.symm.trans isCancel
  | @cancelled engine accepted _ views =>
    rcases views.perm with ⟨missing, _⟩ | ⟨taken, isSlot, perm⟩
    · rw [missing]
      refine iff_of_false ?_ fun withdrawn => by cases withdrawn.1
      rintro ⟨_, report, outbound, _⟩
      rw [EngineManager.dispatchReports, cancelReports_of_unknown missing] at outbound
      cases outbound
    · rw [isSlot]
      constructor
      · rintro ⟨out, _⟩
        have left : taken ::ₘ (restingBoth engine.book.levelsOf : Multiset OrderView) =
            entry ::ₘ restingBoth engine.book.levelsOf :=
          Multiset.coe_eq_coe.mpr (perm.symm.trans out)
        have same : taken = entry := (Multiset.cons_inj_left _).mp left
        exact ⟨congrArg (fun order => some order.slot) same, accepted⟩
      · rintro ⟨found, _⟩
        have member : taken ∈ run.resting := perm.mem_iff.mpr List.mem_cons_self
        have same : taken = entry := List.inj_on_of_nodup_map
          invariant.engine.sane.slots_nodup member resting (Option.some.inj found)
        obtain ⟨report, reports, kind, isId⟩ := invariant.cancelReports_eq isSlot
        refine ⟨same ▸ perm, report, ?_, kind, isId.trans named⟩
        rw [EngineManager.dispatchReports, reports]
        rfl

/-- A cancellation that names a price in the band takes out a resting bid. -/
theorem withdraws_iff_inBand_priced :
    Returns (fun run => ∃ entry ∈ run.resting, Returns (run.Withdraws entry (cancelCommand 2 1 1))
        (run.manager.processCommand (commandInput default).env (cancelCommand 2 1 1)))
      (runAll step (start 1 id) [commandInput (limitCommand 1 1 .buy 10000000000 1000000)]) := by
  have facts : Returns (fun run => ∃ entry ∈ run.resting, entry.key.orderId = 1 ∧
      run.book.findOrder entry.key.orderId = some entry.slot ∧
      (∀ earlier ∈ run.processed, earlier.clientOrderId ≠ 2) ∧
      run.WithinRate (cancelCommand 2 1 1) ∧ run.WithinLimits (cancelCommand 2 1 1))
      (runAll step (start 1 id) [commandInput (limitCommand 1 1 .buy 10000000000 1000000)]) := by
    decide +kernel
  obtain ⟨run, ran, entry, resting, named, found, fresh, inRate, within⟩ := facts.exists
  rw [ran]
  exact ⟨entry, resting, (@withdraws_iff_inBand run (commandInput (cancelCommand 2 1 1)) 1 _ ran
    entry resting rfl named.symm rfl fresh rfl inRate).mpr ⟨found, by decide, within⟩⟩

/-- The cancellation that the gateway builds for a resting bid is rejected for its price, and the
bid stays. -/
theorem gatewayCancel_rejected :
    Returns (fun run => run.book.findOrder 1 = some 10239 ∧ run.resting.length = 1 ∧
        Returns (fun outcome => outcome.outbound =
              [⟨1, .reject ⟨⟨1, 0⟩, 2, 1, RejectReason.invalidPrice.code⟩⟩] ∧
            (restingBoth outcome.manager.matchingEngine.book.levelsOf).length = 1)
          (run.manager.processCommand (commandInput default).env
            (Gateway.new.cancelOrderCommand 1 ⟨2, 1, 1, 1⟩ 0)))
      (runAll step (start 1 id) [commandInput (limitCommand 1 1 .buy 10000000000 1000000)]) := by
  decide +kernel

end ManagerRun

end FluxTrade
