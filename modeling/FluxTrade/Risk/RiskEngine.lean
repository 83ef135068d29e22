import FluxTrade.Risk.Managers

/-!
# The pre-trade risk engine

`RiskEngine::validate` runs nine policies in order and stops at the first that
fails; an accepted order reserves its cost. The kill switch and the circuit
breaker are process-wide, so their state is an argument of a call. `double`
arithmetic is rational arithmetic with the result of every operation rounded by
a function that the engine carries.
-/

namespace FluxTrade

/-- `MarketStatus`. -/
inductive MarketStatus where
  | trading
  | volatilityHalt
  | halt
  | auction
  | resume
  deriving DecidableEq

/-- The static state of `KillSwitch` and `CircuitBreaker`. -/
structure Halts where
  globalHalt : Bool
  blockedAccounts : Nat → Bool
  blockedSymbols : Nat → Bool
  status : MarketStatus

/-- No halt in force, as after `RiskEngine::reset`. -/
def Halts.none : Halts := ⟨false, fun _ => false, fun _ => false, .trading⟩

/-- `RiskDecision`. -/
inductive RiskDecision where
  | accept
  | reject
  | hold
  | auction
  | halt
  deriving DecidableEq

/-- `RiskResult`. -/
structure RiskResult where
  reason : RejectReason
  decision : RiskDecision
  timestamp : UInt64
  pipelineLatencyNs : UInt64
  deriving DecidableEq

/-- `RiskTraceStage`. Stage latencies are zero in the default build. -/
structure RiskTraceStage where
  stageName : String
  decision : RiskDecision
  deriving DecidableEq

/-- `RiskTrace`. -/
structure RiskTrace where
  stages : List RiskTraceStage
  deriving DecidableEq

/-- `RiskTrace::add_stage`: a full trace drops the stage. -/
def RiskTrace.addStage (trace : RiskTrace) (name : String) (decision : RiskDecision) : RiskTrace :=
  if 16 ≤ trace.stages.length then trace else ⟨trace.stages ++ [⟨name, decision⟩]⟩

/-- `RiskStatistics`. -/
structure RiskStatistics where
  acceptedCount : UInt64 := 0
  rejectedCount : UInt64 := 0
  creditRejects : UInt64 := 0
  positionRejects : UInt64 := 0
  priceBandRejects : UInt64 := 0
  fatFingerRejects : UInt64 := 0
  stpRejects : UInt64 := 0
  killSwitchRejects : UInt64 := 0
  duplicateRejects : UInt64 := 0
  rateLimitRejects : UInt64 := 0
  circuitBreakerRejects : UInt64 := 0
  totalLatencyNs : UInt64 := 0
  maxLatencyNs : UInt64 := 0
  deriving DecidableEq

/-- `RiskStatistics::record_latency`. -/
def RiskStatistics.recordLatency (stats : RiskStatistics) (ns : UInt64) : RiskStatistics :=
  { stats with
    totalLatencyNs := stats.totalLatencyNs + ns
    maxLatencyNs := if stats.maxLatencyNs < ns then ns else stats.maxLatencyNs }

/-- `DuplicateValidator`: 4096 remembered identifiers. -/
structure DuplicateValidator where
  seenIds : Nat → UInt64

/-- `DuplicateValidator::check_duplicate`. -/
def DuplicateValidator.checkDuplicate (validator : DuplicateValidator) (clientOrderId : UInt64) :
    Bool × DuplicateValidator :=
  if clientOrderId = 0 then (true, validator)
  else
    let slot := clientOrderId.toNat % 4096
    if validator.seenIds slot = clientOrderId then (false, validator)
    else (true, ⟨Function.update validator.seenIds slot clientOrderId⟩)

/-- `RateLimitValidator::Tracker`: a ring of 100 timestamps. -/
structure RateTracker where
  timestamps : Nat → UInt64
  index : UInt64
  count : UInt64

/-- `RateLimitValidator`: 1024 trackers. -/
structure RateLimitValidator where
  trackers : Nat → RateTracker

/-- `RateLimitValidator::check_rate`. -/
def RateLimitValidator.checkRate (validator : RateLimitValidator) (accountId : AccountId)
    (now : UInt64) (limit : UInt32) : Bool × RateLimitValidator :=
  if limit = 0 then (true, validator)
  else
    let slot := accountId.toNat % 1024
    let tracker := validator.trackers slot
    let record (count : UInt64) : RateLimitValidator :=
      ⟨Function.update validator.trackers slot
        ⟨Function.update tracker.timestamps tracker.index.toNat now,
          (tracker.index + 1) % 100, count⟩⟩
    if tracker.count < limit.toUInt64 then (true, record (tracker.count + 1))
    else
      let oldestIndex := (tracker.index + 100 - limit.toUInt64) % 100
      let oldest := tracker.timestamps oldestIndex.toNat
      if now - oldest < 1000000000 then (false, validator)
      else (true, record tracker.count)

/-- `KillSwitch::validate`. -/
def KillSwitch.validate (halts : Halts) (ctx : RiskContext) (limits : RiskLimits) : Bool :=
  if limits.killSwitchActive || halts.globalHalt then false
  else if halts.blockedAccounts (ctx.accountId.toNat % 1024) then false
  else if halts.blockedSymbols (ctx.symbolId.toNat % 1024) then false
  else true

/-- `CircuitBreaker::validate`. -/
def CircuitBreaker.validate (halts : Halts) : Bool :=
  !(halts.status = .halt || halts.status = .volatilityHalt)

/-- `FatFingerValidator::validate`. -/
def FatFingerValidator.validate (ctx : RiskContext) (limits : RiskLimits) : Bool :=
  if 0 < limits.maxOrderQty ∧ limits.maxOrderQty < ctx.qty then false
  else if 0 < limits.maxOrderPrice ∧ limits.maxOrderPrice < ctx.price then false
  else true

/-- `Price::to_double`, with each operation rounded. -/
def Price.toDouble (round : ℚ → ℚ) (price : Price) : ℚ :=
  round (round (price.toInt : ℚ) / round 100000000)

/-- `PriceBandValidator::validate`, with each operation rounded. -/
def PriceBandValidator.validate (round : ℚ → ℚ) (ctx : RiskContext) (limits : RiskLimits) :
    Bool :=
  if ctx.referencePrice = 0 then true
  else
    let ref := Price.toDouble round ctx.referencePrice
    let upperLimit := round (ref * round (1 + limits.priceBandTolerance))
    let lowerLimit := round (ref * round (1 - limits.priceBandTolerance))
    let orderPrice := Price.toDouble round ctx.price
    !(decide (upperLimit < orderPrice) || decide (orderPrice < lowerLimit))

/-! ## The pipeline -/

/-- `RiskEngine::PipelineContext`. -/
structure PipelineContext where
  credit : CreditManager
  margin : MarginManager
  duplicates : DuplicateValidator
  rateLimits : RateLimitValidator

/-- The policy adapters. -/
inductive RiskPolicy where
  | killSwitch
  | circuitBreaker
  | duplicate
  | rateLimit
  | fatFinger
  | priceBand
  | stp
  | position
  | credit
  deriving DecidableEq

namespace RiskPolicy

/-- The name under which rejects are counted. -/
def name : RiskPolicy → String
  | killSwitch => "KillSwitch"
  | circuitBreaker => "CircuitBreaker"
  | duplicate => "DuplicateCheck"
  | rateLimit => "RateLimit"
  | fatFinger => "FatFinger"
  | priceBand => "PriceBand"
  | stp => "SelfTrade"
  | position => "PositionLimit"
  | credit => "CreditLimit"

/-- The reason that a failed policy returns. -/
def rejectReason : RiskPolicy → RejectReason
  | duplicate => .duplicateOrder
  | fatFinger => .invalidQuantity
  | priceBand => .invalidPrice
  | _ => .riskLimitExceeded

/-- `Policy::validate` and its effect on the pipeline context. -/
def validate (round : ℚ → ℚ) (halts : Halts) (ctx : RiskContext) (limits : RiskLimits)
    (context : PipelineContext) : RiskPolicy → Bool × PipelineContext
  | killSwitch => (KillSwitch.validate halts ctx limits, context)
  | circuitBreaker => (CircuitBreaker.validate halts, context)
  | duplicate =>
    let (ok, duplicates) := context.duplicates.checkDuplicate ctx.clientOrderId
    (ok, { context with duplicates })
  | rateLimit =>
    let (ok, rateLimits) :=
      context.rateLimits.checkRate ctx.accountId ctx.timestamp limits.maxOrdersPerSec
    (ok, { context with rateLimits })
  | fatFinger => (FatFingerValidator.validate ctx limits, context)
  | priceBand => (PriceBandValidator.validate round ctx limits, context)
  | stp => (true, context)
  | position =>
    let margin := context.margin.getPositionState ctx.accountId ctx.symbolId
    (MarginManager.validate ctx (margin.position ctx.accountId ctx.symbolId),
      { context with margin })
  | credit =>
    let credit := context.credit.getAccountState ctx.accountId
    (CreditManager.validate ctx limits (credit.account ctx.accountId), { context with credit })

/-- `PreTradeRiskPipeline`. -/
def preTrade : List RiskPolicy :=
  [killSwitch, circuitBreaker, duplicate, rateLimit, fatFinger, priceBand, stp, position, credit]

end RiskPolicy

/-- What a pipeline leaves behind: the reason of the failed policy, if one failed. -/
structure PipelineOutcome where
  failed : Option RejectReason
  context : PipelineContext
  trace : RiskTrace

/-- `RiskPipeline::validate`: the fold over the policies stops at the first that fails. -/
def runPolicies (round : ℚ → ℚ) (halts : Halts) (ctx : RiskContext) (limits : RiskLimits) :
    List RiskPolicy → PipelineContext → RiskTrace → PipelineOutcome
  | [], context, trace => ⟨none, context, trace⟩
  | policy :: rest, context, trace =>
    let (ok, context) := policy.validate round halts ctx limits context
    let decision := if ok then RiskDecision.accept else .reject
    let trace := trace.addStage policy.name decision
    if ok then runPolicies round halts ctx limits rest context trace
    else ⟨some policy.rejectReason, context, trace⟩

/-! ## The engine -/

/-- `RiskEngine`. -/
structure RiskEngine where
  /-- Rounding of `double` operations. -/
  round : ℚ → ℚ
  limits : RiskLimits
  stats : RiskStatistics
  context : PipelineContext

/-- The clock readings of one validation. -/
structure RiskClock where
  start : UInt64
  pipelineStart : UInt64
  pipelineEnd : UInt64
  finish : UInt64
  deriving DecidableEq

/-- The counter that a rejection increments. -/
def RiskStatistics.countReject (stats : RiskStatistics) (reason : RejectReason)
    (trace : RiskTrace) : RiskStatistics :=
  let stats := { stats with rejectedCount := stats.rejectedCount + 1 }
  match reason with
  | .duplicateOrder => { stats with duplicateRejects := stats.duplicateRejects + 1 }
  | .invalidPrice => { stats with priceBandRejects := stats.priceBandRejects + 1 }
  | .invalidQuantity => { stats with fatFingerRejects := stats.fatFingerRejects + 1 }
  | .riskLimitExceeded =>
    -- The first rejecting stage of the trace, which may stem from an earlier call.
    match trace.stages.find? fun stage => stage.decision = .reject with
    | none => stats
    | some stage =>
      if stage.stageName = "KillSwitch" then
        { stats with killSwitchRejects := stats.killSwitchRejects + 1 }
      else if stage.stageName = "CircuitBreaker" then
        { stats with circuitBreakerRejects := stats.circuitBreakerRejects + 1 }
      else if stage.stageName = "RateLimit" then
        { stats with rateLimitRejects := stats.rateLimitRejects + 1 }
      else if stage.stageName = "SelfTrade" then
        { stats with stpRejects := stats.stpRejects + 1 }
      else if stage.stageName = "PositionLimit" then
        { stats with positionRejects := stats.positionRejects + 1 }
      else if stage.stageName = "CreditLimit" then
        { stats with creditRejects := stats.creditRejects + 1 }
      else stats
  | _ => stats

/-- The result of a validation with the engine and the trace after it. -/
structure Validation where
  result : Except RejectReason RiskResult
  engine : RiskEngine
  trace : RiskTrace

namespace RiskEngine

/-- The engine that the constructor and `RiskEngine::reset` leave. -/
def new (round : ℚ → ℚ) : RiskEngine where
  round := round
  limits := ⟨2000000000000000, 10000000000, 500000000000, round (1 / 10), 100, false⟩
  stats := {}
  context := ⟨.new, .new, ⟨fun _ => 0⟩, ⟨fun _ => ⟨fun _ => 0, 0, 0⟩⟩⟩

/-- `RiskEngine::validate`. -/
def validate (engine : RiskEngine) (halts : Halts) (clock : RiskClock) (ctx : RiskContext)
    (trace : RiskTrace) : Validation :=
  let outcome := runPolicies engine.round halts ctx engine.limits RiskPolicy.preTrade
    engine.context trace
  let elapsed := clock.finish - clock.start
  match outcome.failed with
  | none =>
    let cost := orderCost ctx.price ctx.qty
    let context := { outcome.context with
      credit := outcome.context.credit.updateOnAccept ctx.accountId cost }
    let stats := { engine.stats with acceptedCount := engine.stats.acceptedCount + 1 }
    ⟨.ok ⟨.none, .accept, clock.pipelineEnd, clock.pipelineEnd - clock.pipelineStart⟩,
      { engine with context, stats := stats.recordLatency elapsed }, outcome.trace⟩
  | some reason =>
    let stats := engine.stats.countReject reason outcome.trace
    ⟨.error reason,
      { engine with context := outcome.context, stats := stats.recordLatency elapsed },
      outcome.trace⟩

/-- `RiskEngine::update_on_fill`: the cost is the product of quantity and ticks, unscaled. -/
def updateOnFill (engine : RiskEngine) (accountId : AccountId) (symbolId : SymbolId) (side : Side)
    (qty priceTicks : UInt64) : RiskEngine :=
  { engine with context := { engine.context with
      margin := engine.context.margin.updateOnFill accountId symbolId side qty
      credit := engine.context.credit.updateOnFill accountId (qty * priceTicks) } }

/-- `RiskEngine::update_on_cancel`. -/
def updateOnCancel (engine : RiskEngine) (accountId : AccountId) (cost : UInt64) : RiskEngine :=
  { engine with context := { engine.context with
      credit := engine.context.credit.updateOnCancel accountId cost } }

end RiskEngine

/-! ## What a validation changes -/

/-- A table is as before or has had the entry of the order claimed. -/
structure Claimed (ctx : RiskContext) (before after : PipelineContext) : Prop where
  credit : after.credit = before.credit ∨
    after.credit = before.credit.getAccountState ctx.accountId
  margin : after.margin = before.margin ∨
    after.margin = before.margin.getPositionState ctx.accountId ctx.symbolId

namespace Claimed

variable {ctx : RiskContext} {before after : PipelineContext}

/-- A claim changes no balance. -/
theorem account (claimed : Claimed ctx before after) (accountId : AccountId) :
    after.credit.account accountId = before.credit.account accountId ∨
      after.credit.account accountId = (before.credit.account accountId).claim ctx.accountId := by
  rcases claimed.credit with same | touched
  · exact Or.inl (by rw [same])
  · rw [touched]
    exact CreditManager.account_getAccountState_cases _ _ _

/-- A claim changes no position. -/
theorem position (claimed : Claimed ctx before after) (accountId : AccountId)
    (symbolId : SymbolId) :
    after.margin.position accountId symbolId = before.margin.position accountId symbolId ∨
      after.margin.position accountId symbolId =
        (before.margin.position accountId symbolId).claim ctx.accountId ctx.symbolId := by
  rcases claimed.margin with same | touched
  · exact Or.inl (by rw [same])
  · rw [touched]
    exact MarginManager.position_getPositionState_cases _ _ _ _ _

end Claimed

section

variable (round : ℚ → ℚ) (halts : Halts) (ctx : RiskContext) (limits : RiskLimits)
  (policy : RiskPolicy) (rest : List RiskPolicy) (context : PipelineContext) (trace : RiskTrace)

/-- A pipeline goes on after a policy that passes and ends at one that fails. -/
theorem runPolicies_cons :
    runPolicies round halts ctx limits (policy :: rest) context trace =
      if (policy.validate round halts ctx limits context).1 then
        runPolicies round halts ctx limits rest (policy.validate round halts ctx limits context).2
          (trace.addStage policy.name .accept)
      else ⟨some policy.rejectReason, (policy.validate round halts ctx limits context).2,
        trace.addStage policy.name .reject⟩ := by
  simp only [runPolicies]
  generalize policy.validate round halts ctx limits context = checked
  obtain ⟨ok, after⟩ := checked
  cases ok <;> rfl

/-- The verdict of a pipeline is that of its first policy that fails. -/
theorem failed_runPolicies_cons :
    (runPolicies round halts ctx limits (policy :: rest) context trace).failed =
      if (policy.validate round halts ctx limits context).1 then
        (runPolicies round halts ctx limits rest
          (policy.validate round halts ctx limits context).2
          (trace.addStage policy.name .accept)).failed
      else some policy.rejectReason := by
  rw [runPolicies_cons]
  split <;> rfl

/-- All policies pass. -/
theorem failed_runPolicies_cons_eq_none :
    (runPolicies round halts ctx limits (policy :: rest) context trace).failed = none ↔
      (policy.validate round halts ctx limits context).1 = true ∧
        (runPolicies round halts ctx limits rest
          (policy.validate round halts ctx limits context).2
          (trace.addStage policy.name .accept)).failed = none := by
  rw [failed_runPolicies_cons]
  cases (policy.validate round halts ctx limits context).1 <;> simp

end

/-- What every policy of a pipeline keeps, the pipeline keeps. -/
theorem runPolicies_invariant {motive : PipelineContext → Prop} {round : ℚ → ℚ} {halts : Halts}
    {ctx : RiskContext} {limits : RiskLimits}
    (kept : ∀ (policy : RiskPolicy) context, motive context →
      motive (policy.validate round halts ctx limits context).2)
    (policies : List RiskPolicy) {context : PipelineContext} (start : motive context)
    (trace : RiskTrace) :
    motive (runPolicies round halts ctx limits policies context trace).context := by
  induction policies generalizing context trace with
  | nil => exact start
  | cons policy rest ih =>
    have first := kept policy context start
    simp only [runPolicies]
    split
    · exact ih first _
    · exact first

/-- Policies other than the last two leave both tables alone. -/
theorem RiskPolicy.validate_tables {policy : RiskPolicy} (notPosition : policy ≠ .position)
    (notCredit : policy ≠ .credit) (round : ℚ → ℚ) (halts : Halts) (ctx : RiskContext)
    (limits : RiskLimits) (context : PipelineContext) :
    (policy.validate round halts ctx limits context).2.credit = context.credit ∧
      (policy.validate round halts ctx limits context).2.margin = context.margin := by
  cases policy with
  | position => exact absurd rfl notPosition
  | credit => exact absurd rfl notCredit
  | _ => exact ⟨rfl, rfl⟩

/-- The policies fail having at most claimed entries, or both checks pass on the tables they started
with. -/
theorem runPolicies_cases (round : ℚ → ℚ) (halts : Halts) (ctx : RiskContext)
    (limits : RiskLimits) (policies : List RiskPolicy)
    (others : ∀ policy ∈ policies, policy ≠ .position ∧ policy ≠ .credit)
    (context : PipelineContext) (trace : RiskTrace) :
    let outcome := runPolicies round halts ctx limits (policies ++ [.position, .credit])
      context trace
    (∃ reason, outcome.failed = some reason ∧ Claimed ctx context outcome.context) ∨
    (outcome.failed = none ∧
      MarginManager.validate ctx ((context.margin.position ctx.accountId ctx.symbolId).claim
        ctx.accountId ctx.symbolId) = true ∧
      CreditManager.validate ctx limits ((context.credit.account ctx.accountId).claim
        ctx.accountId) = true ∧
      outcome.context.credit = context.credit.getAccountState ctx.accountId ∧
      outcome.context.margin = context.margin.getPositionState ctx.accountId ctx.symbolId) := by
  induction policies generalizing context trace with
  | nil =>
    simp only [List.nil_append, runPolicies, RiskPolicy.validate,
      MarginManager.position_getPositionState, CreditManager.account_getAccountState]
    by_cases position : MarginManager.validate ctx
        ((context.margin.position ctx.accountId ctx.symbolId).claim ctx.accountId ctx.symbolId)
    · by_cases credit : CreditManager.validate ctx limits
          ((context.credit.account ctx.accountId).claim ctx.accountId)
      · simp only [position, credit, if_true]
        exact Or.inr ⟨trivial, trivial, trivial, trivial, trivial⟩
      · simp only [position, credit, if_true]
        exact Or.inl ⟨_, rfl, Or.inr rfl, Or.inr rfl⟩
    · simp only [position]
      exact Or.inl ⟨_, rfl, Or.inl rfl, Or.inr rfl⟩
  | cons policy rest ih =>
    obtain ⟨notPosition, notCredit⟩ := others policy List.mem_cons_self
    obtain ⟨credit, margin⟩ :=
      RiskPolicy.validate_tables notPosition notCredit round halts ctx limits context
    simp only [List.cons_append, runPolicies]
    generalize policy.validate round halts ctx limits context = checked at credit margin
    obtain ⟨ok, after⟩ := checked
    cases ok with
    | false => exact Or.inl ⟨_, rfl, Or.inl credit, Or.inl margin⟩
    | true =>
      simp only [if_true]
      rw [← credit, ← margin]
      have later := ih (fun other member => others other (List.mem_cons_of_mem _ member)) after
        (trace.addStage policy.name .accept)
      rcases later with ⟨reason, failed, claimed⟩ | passed
      · exact Or.inl ⟨reason, failed, ⟨credit ▸ claimed.credit, margin ▸ claimed.margin⟩⟩
      · exact Or.inr passed

namespace RiskEngine

/-- A validation rejects, having at most claimed entries, or both checks pass and the cost is
reserved. -/
theorem validate_cases (engine : RiskEngine) (halts : Halts) (clock : RiskClock)
    (ctx : RiskContext) (trace : RiskTrace) :
    (∃ reason, (engine.validate halts clock ctx trace).result = .error reason ∧
      Claimed ctx engine.context (engine.validate halts clock ctx trace).engine.context) ∨
    (∃ result, (engine.validate halts clock ctx trace).result = .ok result ∧
      MarginManager.validate ctx ((engine.context.margin.position ctx.accountId
        ctx.symbolId).claim ctx.accountId ctx.symbolId) = true ∧
      CreditManager.validate ctx engine.limits
        ((engine.context.credit.account ctx.accountId).claim ctx.accountId) = true ∧
      (engine.validate halts clock ctx trace).engine.context.credit =
        engine.context.credit.updateOnAccept ctx.accountId (orderCost ctx.price ctx.qty) ∧
      (engine.validate halts clock ctx trace).engine.context.margin =
        engine.context.margin.getPositionState ctx.accountId ctx.symbolId) := by
  have ended : RiskPolicy.preTrade = [.killSwitch, .circuitBreaker, .duplicate, .rateLimit,
    .fatFinger, .priceBand, .stp] ++ [.position, .credit] := rfl
  have pipeline := runPolicies_cases engine.round halts ctx engine.limits
    [.killSwitch, .circuitBreaker, .duplicate, .rateLimit, .fatFinger, .priceBand, .stp]
    (by decide) engine.context trace
  rw [← ended] at pipeline
  simp only [validate]
  generalize runPolicies engine.round halts ctx engine.limits RiskPolicy.preTrade
    engine.context trace = outcome at pipeline
  rcases pipeline with ⟨reason, failed, claimed⟩ | ⟨passed, position, credit, table, margin⟩
  · simp only [failed]
    exact Or.inl ⟨reason, rfl, claimed⟩
  · simp only [passed]
    refine Or.inr ⟨_, rfl, position, credit, ?_, margin⟩
    simp only [table, CreditManager.updateOnAccept, CreditManager.update_getAccountState]

/-- Every check passes, each on the state that the validation starts with. -/
structure Passes (engine : RiskEngine) (halts : Halts) (ctx : RiskContext) : Prop where
  killSwitch : KillSwitch.validate halts ctx engine.limits = true
  circuitBreaker : CircuitBreaker.validate halts = true
  duplicate : (engine.context.duplicates.checkDuplicate ctx.clientOrderId).1 = true
  rateLimit : (engine.context.rateLimits.checkRate ctx.accountId ctx.timestamp
    engine.limits.maxOrdersPerSec).1 = true
  fatFinger : FatFingerValidator.validate ctx engine.limits = true
  priceBand : PriceBandValidator.validate engine.round ctx engine.limits = true
  position : MarginManager.validate ctx
    (engine.context.margin.position ctx.accountId ctx.symbolId) = true
  credit : CreditManager.validate ctx engine.limits
    (engine.context.credit.account ctx.accountId) = true

variable (engine : RiskEngine) (halts : Halts) (clock : RiskClock) (ctx : RiskContext)
  (trace : RiskTrace)

/-- The pipeline has no verdict of its own: an order is accepted exactly if every check passes. -/
theorem validate_isOk_iff :
    (engine.validate halts clock ctx trace).result.isOk = true ↔ engine.Passes halts ctx := by
  have pipeline : (runPolicies engine.round halts ctx engine.limits RiskPolicy.preTrade
      engine.context trace).failed = none ↔ engine.Passes halts ctx := by
    simp only [RiskPolicy.preTrade, failed_runPolicies_cons_eq_none, RiskPolicy.validate,
      MarginManager.position_getPositionState, MarginManager.validate_claim,
      CreditManager.account_getAccountState, CreditManager.validate_claim]
    constructor
    · rintro ⟨first, second, third, fourth, fifth, sixth, _, seventh, eighth, _⟩
      exact ⟨first, second, third, fourth, fifth, sixth, seventh, eighth⟩
    · rintro ⟨first, second, third, fourth, fifth, sixth, seventh, eighth⟩
      exact ⟨first, second, third, fourth, fifth, sixth, trivial, seventh, eighth, rfl⟩
  rw [← pipeline]
  simp only [validate]
  cases (runPolicies engine.round halts ctx engine.limits RiskPolicy.preTrade engine.context
    trace).failed with
  | none => exact iff_of_true rfl rfl
  | some reason => exact iff_of_false nofun nofun

/-- A validation changes no position. -/
theorem validate_position (accountId : AccountId) (symbolId : SymbolId) :
    (engine.validate halts clock ctx trace).engine.context.margin.position accountId symbolId =
        engine.context.margin.position accountId symbolId ∨
      (engine.validate halts clock ctx trace).engine.context.margin.position accountId symbolId =
        (engine.context.margin.position accountId symbolId).claim ctx.accountId ctx.symbolId := by
  rcases engine.validate_cases halts clock ctx trace with
    ⟨_, _, claimed⟩ | ⟨_, _, _, _, _, margin⟩
  · exact claimed.position accountId symbolId
  · rw [margin]
    exact MarginManager.position_getPositionState_cases _ _ _ _ _

/-- A validation keeps the limits. -/
@[simp] theorem validate_limits :
    (engine.validate halts clock ctx trace).engine.limits = engine.limits := by
  simp only [validate]
  split <;> rfl

end RiskEngine

/-! ## Runs for one account

A run validates orders, fills accepted ones and releases what is left of them.
Beside the engine it remembers the accepted orders and what has been filled of
each. -/

/-- An accepted order with what has been filled of it. -/
structure AcceptedOrder where
  price : Price
  qty : Quantity
  symbolId : SymbolId
  side : Side
  filled : Quantity
  released : Bool
  deriving DecidableEq

/-- Replacing one order changes a total over the orders by the difference of the two. -/
theorem AcceptedOrder.sum_map_set (measure : AcceptedOrder → Nat) {entries : List AcceptedOrder}
    {index : Nat} {old : AcceptedOrder} (found : entries[index]? = some old) (new : AcceptedOrder) :
    ((entries.set index new).map measure).sum + measure old =
      (entries.map measure).sum + measure new := by
  induction entries generalizing index with
  | nil => cases found
  | cons entry rest ih =>
    cases index with
    | zero =>
      obtain rfl : entry = old := Option.some.inj found
      simp only [List.set_cons_zero, List.map_cons, List.sum_cons]
      omega
    | succ index =>
      have later := ih found
      simp only [List.set_cons_succ, List.map_cons, List.sum_cons]
      omega

/-- The calls of a run; orders are named by their place in the order of acceptance. -/
inductive RiskCall where
  | validate (ctx : RiskContext) (halts : Halts) (clock : RiskClock) (trace : RiskTrace)
  | fill (index : Nat) (qty : Quantity) (priceTicks : UInt64)
  | cancel (index : Nat)

/-- A risk engine with the orders it has accepted. -/
structure RiskRun where
  engine : RiskEngine
  orders : List AcceptedOrder

namespace RiskRun

/-- One call for the account. A call that names no accepted order is not made. -/
def step (accountId : AccountId) (run : RiskRun) : RiskCall → Except Fault RiskRun
  | .validate ctx halts clock trace =>
    let validation := run.engine.validate halts clock ctx trace
    match validation.result with
    | .ok _ =>
      .ok ⟨validation.engine,
        run.orders ++ [⟨ctx.price, ctx.qty, ctx.symbolId, ctx.side, 0, false⟩]⟩
    | .error _ => .ok ⟨validation.engine, run.orders⟩
  | .fill index qty priceTicks =>
    match run.orders[index]? with
    | some order =>
      .ok ⟨run.engine.updateOnFill accountId order.symbolId order.side qty priceTicks,
        run.orders.set index { order with filled := order.filled + qty }⟩
    | none => .ok run
  | .cancel index =>
    match run.orders[index]? with
    | some order =>
      .ok ⟨run.engine.updateOnCancel accountId (orderCost order.price (order.qty - order.filled)),
        run.orders.set index { order with released := true }⟩
    | none => .ok run

/-- A call returns. -/
theorem step_ok (accountId : AccountId) (run : RiskRun) (call : RiskCall) :
    ∃ next, run.step accountId call = .ok next := by
  cases call with
  | validate ctx halts clock trace =>
    simp only [RiskRun.step]
    split <;> exact ⟨_, rfl⟩
  | fill index qty priceTicks =>
    simp only [RiskRun.step]
    split <;> exact ⟨_, rfl⟩
  | cancel index =>
    simp only [RiskRun.step]
    split <;> exact ⟨_, rfl⟩

end RiskRun

end FluxTrade
