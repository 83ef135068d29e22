import FluxTrade.Library.Trace
import FluxTrade.Risk.RiskEngine
import Mathlib.Data.UInt

/-!
# Counters of rejections

Six of the nine policies give the same reason. `RiskEngine::validate` tells them
apart by the first rejecting stage of the trace, and a trace that has been used
before may hold one of an earlier call, or have no room for the one of this call.
-/

namespace FluxTrade

open Trace

/-! ## Counters -/

/-- The first rejecting stage of a trace. -/
def RiskTrace.firstReject (trace : RiskTrace) : Option RiskTraceStage :=
  trace.stages.find? fun stage => stage.decision = .reject

namespace RiskStatistics

/-- The counter of the rejections of a policy. -/
def rejectsOf (stats : RiskStatistics) : RiskPolicy → UInt64
  | .killSwitch => stats.killSwitchRejects
  | .circuitBreaker => stats.circuitBreakerRejects
  | .duplicate => stats.duplicateRejects
  | .rateLimit => stats.rateLimitRejects
  | .fatFinger => stats.fatFingerRejects
  | .priceBand => stats.priceBandRejects
  | .stp => stats.stpRejects
  | .position => stats.positionRejects
  | .credit => stats.creditRejects

/-- All rejections are counted by the nine counters. -/
def Balanced (stats : RiskStatistics) : Prop :=
  stats.rejectedCount = (RiskPolicy.preTrade.map stats.rejectsOf).sum
  deriving Decidable

/-- One more rejection than before, counted for the policy and for no other. -/
def CountedFor (policy : RiskPolicy) (before after : RiskStatistics) : Prop :=
  after.rejectedCount = before.rejectedCount + 1 ∧
    ∀ other, after.rejectsOf other =
      if other = policy then before.rejectsOf other + 1 else before.rejectsOf other

variable {stats before after : RiskStatistics} {policy : RiskPolicy}

/-- A count keeps the balance. -/
theorem CountedFor.balanced (counted : CountedFor policy before after)
    (balanced : before.Balanced) : after.Balanced := by
  obtain ⟨total, each⟩ := counted
  unfold Balanced at balanced ⊢
  rw [total, balanced]
  simp only [RiskPolicy.preTrade, List.map_cons, List.map_nil, List.sum_cons, List.sum_nil, each]
  cases policy <;> simp <;> ac_rfl

/-- The counter of a policy with a reason of its own. -/
theorem countReject_of_own (own : policy.rejectReason ≠ .riskLimitExceeded) (trace : RiskTrace) :
    CountedFor policy stats (stats.countReject policy.rejectReason trace) := by
  cases policy with
  | duplicate | fatFinger | priceBand =>
    refine ⟨rfl, fun other => ?_⟩
    cases other <;> rfl
  | _ => exact absurd rfl own

variable (shared : policy.rejectReason = .riskLimitExceeded)
include shared

/-- A rejecting stage with the name of a policy of the common reason counts for that policy. -/
theorem countReject_of_name {trace : RiskTrace} {stage : RiskTraceStage}
    (first : trace.firstReject = some stage) (named : stage.stageName = policy.name) :
    CountedFor policy stats (stats.countReject .riskLimitExceeded trace) := by
  change (trace.stages.find? _) = some stage at first
  simp only [countReject, first, named]
  cases policy with
  | duplicate | fatFinger | priceBand => exact absurd shared (by decide)
  | _ =>
    refine ⟨rfl, fun other => ?_⟩
    cases other <;> rfl

/-- A rejecting stage with another name does not count for the policy. -/
theorem rejectsOf_countReject_of_ne {trace : RiskTrace}
    (other : trace.firstReject.map RiskTraceStage.stageName ≠ some policy.name) :
    (stats.countReject .riskLimitExceeded trace).rejectsOf policy = stats.rejectsOf policy := by
  unfold RiskTrace.firstReject at other
  simp only [countReject]
  cases first : trace.stages.find? fun stage => stage.decision = .reject with
  | none => cases policy <;> rfl
  | some stage =>
    have name : stage.stageName ≠ policy.name := by
      intro same
      rw [first, Option.map_some, same] at other
      exact other rfl
    cases policy with
    | duplicate | fatFinger | priceBand => exact absurd shared (by decide)
    | _ =>
      simp only [RiskPolicy.name] at name
      simp only [name, if_false]
      split_ifs <;> rfl

/-- The counter of a policy with the common reason is that of the first rejecting stage. -/
theorem countReject_shared_iff (trace : RiskTrace) :
    CountedFor policy stats (stats.countReject .riskLimitExceeded trace) ↔
      trace.firstReject.map RiskTraceStage.stageName = some policy.name := by
  constructor
  · rintro ⟨_, each⟩
    by_contra other
    have one := each policy
    rw [rejectsOf_countReject_of_ne shared other, if_pos rfl] at one
    simp at one
  · intro named
    obtain ⟨stage, first, named⟩ := Option.map_eq_some_iff.mp named
    exact countReject_of_name shared first named

end RiskStatistics

/-! ## One validation -/

/-- The first policy that returns false. -/
def firstFailing (round : ℚ → ℚ) (halts : Halts) (ctx : RiskContext) (limits : RiskLimits) :
    List RiskPolicy → PipelineContext → Option RiskPolicy
  | [], _ => none
  | policy :: rest, context =>
    if (policy.validate round halts ctx limits context).1 then
      firstFailing round halts ctx limits rest (policy.validate round halts ctx limits context).2
    else some policy

/-- A trace leads to the policy: it has no rejecting stage yet and room for the stages of a call
that fails there, or its first rejecting stage has the name of the policy. -/
def RiskTrace.LeadsTo (trace : RiskTrace) (policies : List RiskPolicy) (policy : RiskPolicy) :
    Prop :=
  trace.firstReject.elim (trace.stages.length + policies.idxOf policy < 16) fun stage =>
    stage.stageName = policy.name

instance (trace : RiskTrace) (policies : List RiskPolicy) (policy : RiskPolicy) :
    Decidable (trace.LeadsTo policies policy) := by
  dsimp only [RiskTrace.LeadsTo]
  cases trace.firstReject <;> dsimp only [Option.elim] <;> infer_instance

section Pipeline

variable {round : ℚ → ℚ} {halts : Halts} {ctx : RiskContext} {limits : RiskLimits}
  {policies : List RiskPolicy} {context : PipelineContext} {policy : RiskPolicy}

/-- A policy that fails is listed. -/
theorem mem_of_firstFailing
    (failing : firstFailing round halts ctx limits policies context = some policy) :
    policy ∈ policies := by
  induction policies generalizing context with
  | nil => cases failing
  | cons first rest ih =>
    rw [firstFailing] at failing
    split at failing
    · exact List.mem_cons_of_mem _ (ih failing)
    · cases failing
      exact List.mem_cons_self

/-- The pipeline returns the reason of the first policy that fails. -/
theorem failed_runPolicies (policies : List RiskPolicy) (context : PipelineContext)
    (trace : RiskTrace) :
    (runPolicies round halts ctx limits policies context trace).failed =
      (firstFailing round halts ctx limits policies context).map RiskPolicy.rejectReason := by
  induction policies generalizing context trace with
  | nil => rfl
  | cons policy rest ih =>
    rw [failed_runPolicies_cons, firstFailing, ih]
    split <;> rfl

/-- An accepting stage takes room in a trace and is no rejecting one. -/
theorem RiskTrace.leadsTo_addStage_accept (trace : RiskTrace) (name : String)
    {first : RiskPolicy} (other : policy ≠ first) :
    (trace.addStage name .accept).LeadsTo policies policy ↔
      trace.LeadsTo (first :: policies) policy := by
  have rejects : (trace.addStage name .accept).firstReject = trace.firstReject := by
    unfold addStage firstReject
    split
    · rfl
    · simp
  have room : (trace.addStage name .accept).stages.length + policies.idxOf policy < 16 ↔
      trace.stages.length + (first :: policies).idxOf policy < 16 := by
    rw [List.idxOf_cons_ne _ other.symm]
    unfold addStage
    split
    · omega
    · rw [List.length_append, List.length_singleton]
      omega
  unfold LeadsTo
  rw [rejects]
  cases trace.firstReject with
  | none => exact room
  | some stage => exact Iff.rfl

/-- After the rejecting stage of a policy, the trace leads to it if it did before. -/
theorem RiskTrace.firstReject_addStage_iff (trace : RiskTrace) :
    (trace.addStage policy.name .reject).firstReject.map RiskTraceStage.stageName =
        some policy.name ↔ trace.LeadsTo (policy :: policies) policy := by
  unfold LeadsTo addStage
  rw [List.idxOf_cons_self]
  by_cases full : 16 ≤ trace.stages.length
  · rw [if_pos full]
    cases trace.firstReject with
    | none => simpa using full
    | some stage => simp
  · rw [if_neg full]
    unfold firstReject
    rw [List.find?_append]
    cases trace.stages.find? fun stage => stage.decision = .reject with
    | none => simpa using full
    | some stage => simp

/-- After a pipeline that failed at a policy, the first rejecting stage has its name exactly if the
trace led to it before. -/
theorem firstReject_runPolicies_iff (distinct : policies.Nodup) (trace : RiskTrace)
    (failing : firstFailing round halts ctx limits policies context = some policy) :
    (runPolicies round halts ctx limits policies context trace).trace.firstReject.map
        RiskTraceStage.stageName = some policy.name ↔ trace.LeadsTo policies policy := by
  induction policies generalizing context trace with
  | nil => cases failing
  | cons first rest ih =>
    rw [List.nodup_cons] at distinct
    rw [firstFailing] at failing
    rw [runPolicies_cons]
    split at failing
    · rename_i ok
      have other : policy ≠ first := by
        rintro rfl
        exact distinct.1 (mem_of_firstFailing failing)
      rw [if_pos ok, ih distinct.2 _ failing, RiskTrace.leadsTo_addStage_accept _ _ other]
    · rename_i refused
      cases failing
      rw [if_neg refused]
      exact RiskTrace.firstReject_addStage_iff trace

end Pipeline

namespace RiskEngine

/-- The first policy that returns false in a validation. -/
def failing (engine : RiskEngine) (halts : Halts) (ctx : RiskContext) : Option RiskPolicy :=
  firstFailing engine.round halts ctx engine.limits RiskPolicy.preTrade engine.context

variable {engine : RiskEngine} {halts : Halts} {ctx : RiskContext} {policy : RiskPolicy}

/-- A rejection is counted for the policy that failed, unless it shares its reason and the trace
leads to another one or to none. -/
theorem countedFor_iff (failing : engine.failing halts ctx = some policy) (clock : RiskClock)
    (trace : RiskTrace) :
    RiskStatistics.CountedFor policy engine.stats
        (engine.validate halts clock ctx trace).engine.stats ↔
      (policy.rejectReason = .riskLimitExceeded → trace.LeadsTo RiskPolicy.preTrade policy) := by
  have failed : (runPolicies engine.round halts ctx engine.limits RiskPolicy.preTrade
      engine.context trace).failed = some policy.rejectReason := by
    rw [failed_runPolicies]
    exact congrArg (Option.map RiskPolicy.rejectReason) failing
  have stage := firstReject_runPolicies_iff (by decide) trace failing
  simp only [validate, failed]
  by_cases shared : policy.rejectReason = .riskLimitExceeded
  · rw [forall_prop_of_true shared, ← stage, shared]
    exact RiskStatistics.countReject_shared_iff shared _
  · exact iff_of_true (RiskStatistics.countReject_of_own shared _) fun same => absurd same shared

/-- An accepted order changes no counter of rejections. -/
theorem balanced_of_passed (passed : engine.failing halts ctx = none) (clock : RiskClock)
    (trace : RiskTrace) (balanced : engine.stats.Balanced) :
    (engine.validate halts clock ctx trace).engine.stats.Balanced := by
  have failed : (runPolicies engine.round halts ctx engine.limits RiskPolicy.preTrade
      engine.context trace).failed = none := by
    rw [failed_runPolicies]
    exact congrArg (Option.map RiskPolicy.rejectReason) passed
  simp only [validate, failed]
  exact balanced

end RiskEngine

/-! ## Sequences of validations -/

/-- A risk engine with the trace objects that its callers pass. -/
structure RiskSession where
  engine : RiskEngine
  traces : Nat → RiskTrace

/-- A call of `validate` with the trace object that it is given. -/
structure ValidateCall where
  trace : Nat
  ctx : RiskContext
  halts : Halts
  clock : RiskClock

namespace RiskSession

/-- One validation. -/
def step (session : RiskSession) (call : ValidateCall) : RiskSession :=
  let validation :=
    session.engine.validate call.halts call.clock call.ctx (session.traces call.trace)
  ⟨validation.engine, Function.update session.traces call.trace validation.trace⟩

/-- The session after some calls. -/
def after (start : RiskSession) (calls : List ValidateCall) : RiskSession := calls.foldl step start

/-- After the call all rejections are counted by the nine counters, and if it rejects, it is
counted for the first policy that returned false. -/
def Attributes (start : RiskSession) (early : List ValidateCall) (call : ValidateCall) : Prop :=
  ((start.after early).step call).engine.stats.Balanced ∧
    ∀ policy, (start.after early).engine.failing call.halts call.ctx = some policy →
      RiskStatistics.CountedFor policy (start.after early).engine.stats
        ((start.after early).step call).engine.stats

/-- If the call fails at a policy of the common reason, its trace leads to that policy. -/
def Leads (start : RiskSession) (early : List ValidateCall) (call : ValidateCall) : Prop :=
  ∀ policy, (start.after early).engine.failing call.halts call.ctx = some policy →
    policy.rejectReason = .riskLimitExceeded →
      ((start.after early).traces call.trace).LeadsTo RiskPolicy.preTrade policy

variable {start : RiskSession} {calls early : List ValidateCall} {call : ValidateCall}

/-- One call more. -/
theorem after_append (start : RiskSession) (calls : List ValidateCall) (call : ValidateCall) :
    start.after (calls ++ [call]) = (start.after calls).step call :=
  List.foldl_concat ..

/-- A call whose trace leads to the failing policy is attributed. -/
theorem Leads.attributes (leads : Leads start early call)
    (balanced : (start.after early).engine.stats.Balanced) : Attributes start early call := by
  have counted (policy : RiskPolicy)
      (failing : (start.after early).engine.failing call.halts call.ctx = some policy) :=
    (RiskEngine.countedFor_iff failing call.clock ((start.after early).traces call.trace)).mpr
      (leads policy failing)
  refine ⟨?_, counted⟩
  cases failing : (start.after early).engine.failing call.halts call.ctx with
  | none => exact RiskEngine.balanced_of_passed failing _ _ balanced
  | some policy => exact (counted policy failing).balanced balanced

/-- The counters stay balanced as long as the traces lead to the failing policies. -/
theorem balanced_after (balanced : start.engine.stats.Balanced)
    (leads : Justified (Leads start) calls) : (start.after calls).engine.stats.Balanced := by
  induction calls using List.reverseRecOn with
  | nil => exact balanced
  | append_singleton front last ih =>
    rw [after_append]
    exact ((leads front last [] rfl).attributes (ih leads.front)).1

/-- Every rejection of a sequence of validations is attributed to the policy that rejected exactly
if the trace of each call leads to the policy at which it fails. -/
theorem attributes_iff_leads (start : RiskSession) (balanced : start.engine.stats.Balanced)
    (calls : List ValidateCall) :
    Justified (Attributes start) calls ↔ Justified (Leads start) calls := by
  constructor
  · intro attributed early call late split policy failing
    exact (RiskEngine.countedFor_iff failing call.clock _).mp
      ((attributed early call late split).2 policy failing)
  · rintro leads early call late rfl
    exact (leads early call late rfl).attributes (balanced_after balanced leads.front)

/-- A new engine whose callers have fresh traces. -/
def fresh : RiskSession := ⟨.new id, fun _ => ⟨[]⟩⟩

/-- A halted market. -/
def halted : Halts := { Halts.none with status := .halt }

/-- An order at a price of 100. -/
def orderOf (qty : Quantity) (halts : Halts) : ValidateCall :=
  ⟨0, ⟨1, 100, qty, 0, 0, 0, 1, 1, 1, .buy, .limit⟩, halts, ⟨0, 0, 0, 0⟩⟩

/-- A trace that an accepted order has used still leads to the circuit breaker. -/
theorem attributes_iff_leads_reused :
    Justified (Attributes fresh) [orderOf 10 .none, orderOf 10 halted] ∧
      (fresh.after [orderOf 10 .none, orderOf 10 halted]).engine.stats =
        { acceptedCount := 1, rejectedCount := 1, circuitBreakerRejects := 1 } := by
  refine ⟨(attributes_iff_leads fresh (by decide) _).mpr ?_, by decide⟩
  have first : Leads fresh [] (orderOf 10 .none) := by
    intro policy failing
    exact absurd failing (by cases policy <;> decide)
  have second : Leads fresh [orderOf 10 .none] (orderOf 10 halted) := by
    intro policy failing
    cases policy with
    | circuitBreaker => exact fun _ => by decide
    | _ => exact absurd failing (by decide)
  exact (Justified.nil.snoc first).snoc second

/-- A halted market rejects an order with the trace of an oversized one. The first rejecting stage
is that of the oversized order, so no counter counts the second rejection. -/
theorem not_attributes_reused : fresh.engine.stats.Balanced ∧
    ¬Justified (Attributes fresh) [orderOf 10000000001 .none, orderOf 10 halted] ∧
      (fresh.after [orderOf 10000000001 .none, orderOf 10 halted]).engine.stats =
        { rejectedCount := 2, fatFingerRejects := 1 } := by
  refine ⟨by decide, Justified.not_of_get ⟨(by decide : 1 < 2), ?_⟩, by decide⟩
  intro attributes
  exact absurd attributes.1 (by decide)

end RiskSession

end FluxTrade
