import FluxTrade.Library.Execution
import FluxTrade.Risk.Halts

/-!
# Accounts in the risk tables

Credit, rate windows and account halts are stored under the account modulo
1024, positions under the account modulo 128. Accounts that differ modulo 128
therefore share no entry at all, and whatever one of them does is invisible to
the other. Accounts that agree modulo 128 share their positions.
-/

namespace FluxTrade

open Isolation CreditManager MarginManager

/-- The calls of a run that name an account. -/
inductive AccountCall where
  | validate (ctx : RiskContext) (clock : RiskClock) (trace : RiskTrace)
  | updateOnFill (accountId : AccountId) (symbolId : SymbolId) (side : Side)
      (qty priceTicks : UInt64)
  | updateOnCancel (accountId : AccountId) (cost : UInt64)
  | setAccountHalt (accountId : AccountId) (val : Bool)

namespace AccountCall

/-- The account that a call is made for. -/
def accountId : AccountCall → AccountId
  | validate ctx _ _ => ctx.accountId
  | updateOnFill accountId _ _ _ _ => accountId
  | updateOnCancel accountId _ => accountId
  | setAccountHalt accountId _ => accountId

/-- The client order identifiers that a call presents. -/
def clientOrderIds : AccountCall → List UInt64
  | validate ctx _ _ => [ctx.clientOrderId]
  | _ => []

end AccountCall

/-- A risk engine, the flags of its process and the results of its validations so far. -/
structure AccountRun where
  engine : RiskEngine
  halts : Halts
  verdicts : List (AccountId × Except RejectReason RiskResult)

namespace AccountRun

/-- A run before its first call. -/
def new (round : ℚ → ℚ) : AccountRun := ⟨RiskEngine.new round, .none, []⟩

/-- One call. -/
def step (run : AccountRun) : AccountCall → AccountRun
  | .validate ctx clock trace =>
    let validation := run.engine.validate run.halts clock ctx trace
    ⟨validation.engine, run.halts, run.verdicts ++ [(ctx.accountId, validation.result)]⟩
  | .updateOnFill accountId symbolId side qty priceTicks =>
    { run with engine := run.engine.updateOnFill accountId symbolId side qty priceTicks }
  | .updateOnCancel accountId cost =>
    { run with engine := run.engine.updateOnCancel accountId cost }
  | .setAccountHalt accountId val =>
    { run with halts := KillSwitch.setAccountHalt run.halts accountId val }

/-- All calls, one after the other. -/
def run (start : AccountRun) (calls : List AccountCall) : AccountRun := calls.foldl step start

/-- The results of the validations made for one account. -/
def verdictsOf (run : AccountRun) (accountId : AccountId) : List (Except RejectReason RiskResult) :=
  (run.verdicts.filter fun verdict => verdict.1 = accountId).map Prod.snd

/-- Two runs look alike to an account: the results of its validations, its credit, its positions
and its rate window are the same. -/
structure AlikeFor (accountId : AccountId) (left right : AccountRun) : Prop where
  verdicts : left.verdictsOf accountId = right.verdictsOf accountId
  credit : left.engine.context.credit.account accountId =
    right.engine.context.credit.account accountId
  positions : ∀ symbolId, left.engine.context.margin.position accountId symbolId =
    right.engine.context.margin.position accountId symbolId
  rates : left.engine.context.rateLimits.trackers (accountId.toNat % 1024) =
    right.engine.context.rateLimits.trackers (accountId.toNat % 1024)

/-- What an account sees of a run does not depend on the calls made for another one. -/
def Isolated (round : ℚ → ℚ) (calls : List AccountCall) (hidden observer : AccountId) : Prop :=
  AlikeFor observer ((new round).run calls)
    ((new round).run (calls.filter fun call => call.accountId ≠ hidden))

end AccountRun

/-! ## The entries of a residue -/

/-- The slots of a table of accounts that no account of the residue uses. -/
def slotsApart (residue : Nat) : Set Nat := {slot | slot % 128 ≠ residue}

/-- The tables agree on the entries of accounts with another residue modulo 128. -/
structure PipelineContext.SameApart (residue : Nat) (left right : PipelineContext) : Prop where
  credit : Set.EqOn left.credit.accounts right.credit.accounts (slotsApart residue)
  margin : Set.EqOn left.margin.positions right.margin.positions {slot | slot.1 ≠ residue}
  rates : Set.EqOn left.rateLimits.trackers right.rateLimits.trackers (slotsApart residue)

/-- The identifier would pass the duplicate check. -/
def DuplicateValidator.Unseen (validator : DuplicateValidator) (clientOrderId : UInt64) : Prop :=
  clientOrderId = 0 ∨ validator.seenIds (clientOrderId.toNat % 4096) ≠ clientOrderId

/-- The residue of a slot is its account's. -/
theorem slot_mem_slotsApart {accountId : AccountId} {residue : Nat} :
    accountId.toNat % 1024 ∈ slotsApart residue ↔ accountId.toNat % 128 ≠ residue := by
  have nested : accountId.toNat % 1024 % 128 = accountId.toNat % 128 :=
    Nat.mod_mod_of_dvd _ (by decide)
  simp only [slotsApart, Set.mem_ofPred_eq, nested]

namespace DuplicateValidator

variable {validator : DuplicateValidator} {clientOrderId : UInt64}

/-- An unseen order passes the duplicate check. -/
theorem Unseen.checkDuplicate (unseen : validator.Unseen clientOrderId) :
    (validator.checkDuplicate clientOrderId).1 = true := by
  simp only [DuplicateValidator.checkDuplicate]
  by_cases zero : clientOrderId = 0
  · rw [if_pos zero]
  · rw [if_neg zero, if_neg (unseen.resolve_left zero)]

/-- A check marks no identifier but its own. -/
theorem Unseen.after_check {other : UInt64} (unseen : validator.Unseen other)
    (apart : clientOrderId ≠ other) : (validator.checkDuplicate clientOrderId).2.Unseen other := by
  simp only [DuplicateValidator.checkDuplicate]
  split
  · exact unseen
  · split
    · exact unseen
    · refine unseen.imp_right fun unmarked => ?_
      by_cases slot : other.toNat % 4096 = clientOrderId.toNat % 4096
      · simp only [slot, Function.update_self]
        exact apart
      · simp only [Function.update_of_ne slot]
        exact unmarked

end DuplicateValidator

namespace RateLimitValidator

variable {residue : Nat} {accountId : AccountId}

/-- The rate check reads and writes the tracker of its account only. -/
theorem checkRate_same {left right : RateLimitValidator}
    (same : Set.EqOn left.trackers right.trackers (slotsApart residue))
    (visible : accountId.toNat % 128 ≠ residue) (now : UInt64) (limit : UInt32) :
    (left.checkRate accountId now limit).1 = (right.checkRate accountId now limit).1 ∧
      Set.EqOn (left.checkRate accountId now limit).2.trackers
        (right.checkRate accountId now limit).2.trackers (slotsApart residue) := by
  have tracker := same (slot_mem_slotsApart.mpr visible)
  simp only [checkRate, tracker]
  split
  · exact ⟨rfl, same⟩
  · split
    · exact ⟨rfl, eqOn_update_update same _ _⟩
    · split
      · exact ⟨rfl, same⟩
      · exact ⟨rfl, eqOn_update_update same _ _⟩

/-- A rate check writes no entry of another residue. -/
theorem checkRate_apart (hidden : accountId.toNat % 128 = residue)
    (validator : RateLimitValidator) (now : UInt64) (limit : UInt32) :
    Set.EqOn (validator.checkRate accountId now limit).2.trackers validator.trackers
      (slotsApart residue) := by
  have outside : accountId.toNat % 1024 ∉ slotsApart residue :=
    fun member => slot_mem_slotsApart.mp member hidden
  simp only [checkRate]
  split
  · exact Set.eqOn_refl _ _
  · split
    · exact eqOn_update_left outside _ _
    · split
      · exact Set.eqOn_refl _ _
      · exact eqOn_update_left outside _ _

end RateLimitValidator

namespace CreditManager

variable {residue : Nat} {accountId : AccountId}

/-- A callback rewrites the entry of its account. -/
theorem accounts_update (manager : CreditManager) (change : AccountState → AccountState) :
    (manager.update accountId change).accounts = Function.update manager.accounts (slot accountId)
      (change ((manager.account accountId).claim accountId)) := by
  simp only [update, account_getAccountState]
  exact Function.update_idem ..

/-- A callback does the same to tables that agree for its account. -/
theorem update_same {left right : CreditManager}
    (same : Set.EqOn left.accounts right.accounts (slotsApart residue))
    (visible : accountId.toNat % 128 ≠ residue) (change : AccountState → AccountState) :
    Set.EqOn (left.update accountId change).accounts (right.update accountId change).accounts
      (slotsApart residue) := by
  rw [accounts_update, accounts_update]
  exact eqOn_change same (slot_mem_slotsApart.mpr visible) fun state =>
    change (state.claim accountId)

/-- The entry of an account is none of another residue. -/
theorem slot_notMem (hidden : accountId.toNat % 128 = residue) :
    slot accountId ∉ slotsApart residue :=
  fun member => slot_mem_slotsApart.mp member hidden

/-- A callback writes no entry of another residue. -/
theorem update_apart (hidden : accountId.toNat % 128 = residue) (manager : CreditManager)
    (change : AccountState → AccountState) :
    Set.EqOn (manager.update accountId change).accounts manager.accounts (slotsApart residue) := by
  rw [accounts_update]
  exact eqOn_update_left (slot_notMem hidden) _ _

end CreditManager

namespace MarginManager

variable {accountId : AccountId} (symbolId : SymbolId)

/-- A fill rewrites the position of its account and symbol. -/
theorem positions_updateOnFill (manager : MarginManager) (side : Side) (qty : UInt64) :
    (manager.updateOnFill accountId symbolId side qty).positions =
      Function.update manager.positions (slot accountId symbolId)
        (((manager.position accountId symbolId).claim accountId symbolId).fill side qty) := by
  simp only [updateOnFill, position_getPositionState]
  exact Function.update_idem ..

end MarginManager

/-! ## Calls of other residues and of the same one -/

namespace PipelineContext.SameApart

variable {residue : Nat} {first second third : PipelineContext}

/-- Agreement is reflexive. -/
theorem refl (residue : Nat) (context : PipelineContext) : SameApart residue context context :=
  ⟨Set.eqOn_refl _ _, Set.eqOn_refl _ _, Set.eqOn_refl _ _⟩

/-- It is symmetric. -/
theorem symm (same : SameApart residue first second) : SameApart residue second first :=
  ⟨same.credit.symm, same.margin.symm, same.rates.symm⟩

/-- It is transitive. -/
theorem trans (same : SameApart residue first second) (also : SameApart residue second third) :
    SameApart residue first third :=
  ⟨same.credit.trans also.credit, same.margin.trans also.margin, same.rates.trans also.rates⟩

end PipelineContext.SameApart

/-- The flags agree for every account with another residue and in everything that is not about
accounts. -/
structure Halts.SameApart (residue : Nat) (left right : Halts) : Prop where
  globalHalt : left.globalHalt = right.globalHalt
  accounts : Set.EqOn left.blockedAccounts right.blockedAccounts (slotsApart residue)
  symbols : left.blockedSymbols = right.blockedSymbols
  status : left.status = right.status

namespace Halts.SameApart

variable {residue : Nat} {first second third : Halts}

/-- Agreement is reflexive. -/
theorem refl (residue : Nat) (halts : Halts) : SameApart residue halts halts :=
  ⟨rfl, Set.eqOn_refl _ _, rfl, rfl⟩

/-- It is symmetric. -/
theorem symm (same : SameApart residue first second) : SameApart residue second first :=
  ⟨same.globalHalt.symm, same.accounts.symm, same.symbols.symm, same.status.symm⟩

/-- It is transitive. -/
theorem trans (same : SameApart residue first second) (also : SameApart residue second third) :
    SameApart residue first third :=
  ⟨same.globalHalt.trans also.globalHalt, same.accounts.trans also.accounts,
    same.symbols.trans also.symbols, same.status.trans also.status⟩

end Halts.SameApart

/-- The kill switch reads the account's own entry. -/
theorem KillSwitch.validate_same {residue : Nat} {left right : Halts}
    (same : left.SameApart residue right) {ctx : RiskContext}
    (visible : ctx.accountId.toNat % 128 ≠ residue) (limits : RiskLimits) :
    KillSwitch.validate left ctx limits = KillSwitch.validate right ctx limits := by
  have account := same.accounts (slot_mem_slotsApart.mpr visible)
  simp only [KillSwitch.validate, same.globalHalt, account, same.symbols]

namespace RiskPolicy

variable {residue : Nat} {ctx : RiskContext}

/-- A policy gives the same verdict on tables that agree for its account, and keeps them so. -/
theorem validate_same {leftHalts rightHalts : Halts}
    (halts : leftHalts.SameApart residue rightHalts) {left right : PipelineContext}
    (same : left.SameApart residue right)
    (visible : ctx.accountId.toNat % 128 ≠ residue) {policy : RiskPolicy}
    (unseen : policy = .duplicate →
      left.duplicates.Unseen ctx.clientOrderId ∧ right.duplicates.Unseen ctx.clientOrderId)
    (round : ℚ → ℚ) (limits : RiskLimits) :
    (policy.validate round leftHalts ctx limits left).1 =
        (policy.validate round rightHalts ctx limits right).1 ∧
      (policy.validate round leftHalts ctx limits left).2.SameApart residue
        (policy.validate round rightHalts ctx limits right).2 := by
  cases policy with
  | killSwitch => exact ⟨KillSwitch.validate_same halts visible limits, same⟩
  | circuitBreaker =>
    simp only [validate, CircuitBreaker.validate, halts.status]
    exact ⟨trivial, same⟩
  | duplicate =>
    obtain ⟨unseenLeft, unseenRight⟩ := unseen rfl
    exact ⟨unseenLeft.checkDuplicate.trans unseenRight.checkDuplicate.symm,
      ⟨same.credit, same.margin, same.rates⟩⟩
  | rateLimit =>
    have rates := RateLimitValidator.checkRate_same same.rates visible ctx.timestamp
      limits.maxOrdersPerSec
    exact ⟨rates.1, ⟨same.credit, same.margin, rates.2⟩⟩
  | position =>
    have tables := @eqOn_change _ _ _ _ _ _ (slot ctx.accountId ctx.symbolId) same.margin visible
      fun state => state.claim ctx.accountId ctx.symbolId
    have entry : (left.margin.getPositionState ctx.accountId ctx.symbolId).position ctx.accountId
        ctx.symbolId = (right.margin.getPositionState ctx.accountId ctx.symbolId).position
        ctx.accountId ctx.symbolId := tables visible
    simp only [validate, entry]
    exact ⟨trivial, ⟨same.credit, tables, same.rates⟩⟩
  | credit =>
    have tables := eqOn_change same.credit (slot_mem_slotsApart.mpr visible)
      fun state => state.claim ctx.accountId
    have entry : (left.credit.getAccountState ctx.accountId).account ctx.accountId =
        (right.credit.getAccountState ctx.accountId).account ctx.accountId :=
      tables (slot_mem_slotsApart.mpr visible)
    simp only [validate, entry]
    exact ⟨trivial, ⟨tables, same.margin, same.rates⟩⟩
  | _ => exact ⟨rfl, same⟩

/-- A policy writes no entry of another residue. -/
theorem validate_apart (hidden : ctx.accountId.toNat % 128 = residue) (policy : RiskPolicy)
    (round : ℚ → ℚ) (halts : Halts) (limits : RiskLimits) (context : PipelineContext) :
    (policy.validate round halts ctx limits context).2.SameApart residue context := by
  have same := PipelineContext.SameApart.refl residue context
  cases policy with
  | rateLimit =>
    exact ⟨same.credit, same.margin, RateLimitValidator.checkRate_apart hidden _ _ _⟩
  | position =>
    exact ⟨same.credit, eqOn_update_left (not_not_intro hidden) _ _, same.rates⟩
  | credit => exact ⟨eqOn_update_left (slot_notMem hidden) _ _, same.margin, same.rates⟩
  | duplicate => exact ⟨same.credit, same.margin, same.rates⟩
  | _ => exact same

/-- Only the duplicate check marks identifiers, and it marks its own. -/
theorem validate_unseen {other : UInt64} {context : PipelineContext}
    (unseen : context.duplicates.Unseen other) {policy : RiskPolicy}
    (apart : policy = .duplicate → ctx.clientOrderId ≠ other) (round : ℚ → ℚ) (halts : Halts)
    (limits : RiskLimits) :
    (policy.validate round halts ctx limits context).2.duplicates.Unseen other := by
  cases policy with
  | duplicate => exact unseen.after_check (apart rfl)
  | _ => exact unseen

end RiskPolicy

section

variable {residue : Nat} {ctx : RiskContext}

/-- The pipeline reads and writes alike on both sides. -/
theorem runPolicies_same {leftHalts rightHalts : Halts}
    (halts : leftHalts.SameApart residue rightHalts) (visible : ctx.accountId.toNat % 128 ≠ residue)
    (round : ℚ → ℚ) (limits : RiskLimits) {policies : List RiskPolicy} (once : policies.Nodup)
    {left right : PipelineContext} (same : left.SameApart residue right)
    (unseen : .duplicate ∈ policies →
      left.duplicates.Unseen ctx.clientOrderId ∧ right.duplicates.Unseen ctx.clientOrderId)
    (leftTrace rightTrace : RiskTrace) :
    let leftOutcome := runPolicies round leftHalts ctx limits policies left leftTrace
    let rightOutcome := runPolicies round rightHalts ctx limits policies right rightTrace
    leftOutcome.failed = rightOutcome.failed ∧
      leftOutcome.context.SameApart residue rightOutcome.context := by
  induction policies generalizing left right leftTrace rightTrace with
  | nil => exact ⟨rfl, same⟩
  | cons policy rest ih =>
    obtain ⟨notAgain, once⟩ := List.nodup_cons.mp once
    have first := RiskPolicy.validate_same halts same visible
      (fun here => unseen (here ▸ List.mem_cons_self)) round limits
    have still (member : .duplicate ∈ rest) :
        (policy.validate round leftHalts ctx limits left).2.duplicates.Unseen ctx.clientOrderId ∧
          (policy.validate round rightHalts ctx limits right).2.duplicates.Unseen
            ctx.clientOrderId := by
      have other : policy ≠ .duplicate := fun here => notAgain (here ▸ member)
      obtain ⟨unseenLeft, unseenRight⟩ := unseen (List.mem_cons_of_mem _ member)
      exact ⟨RiskPolicy.validate_unseen unseenLeft (absurd · other) _ _ _,
        RiskPolicy.validate_unseen unseenRight (absurd · other) _ _ _⟩
    simp only [runPolicies]
    generalize policy.validate round leftHalts ctx limits left = checkedLeft at first still
    generalize policy.validate round rightHalts ctx limits right = checkedRight at first still
    obtain ⟨ok, afterLeft⟩ := checkedLeft
    obtain ⟨ok', afterRight⟩ := checkedRight
    obtain ⟨verdict, tables⟩ := first
    obtain rfl : ok = ok' := verdict
    cases ok with
    | false => exact ⟨rfl, tables⟩
    | true => exact ih once tables still _ _

end

namespace RiskEngine

variable {residue : Nat} {ctx : RiskContext}

/-- A validation answers alike on both sides. -/
theorem validate_same {leftHalts rightHalts : Halts}
    (halts : leftHalts.SameApart residue rightHalts) (visible : ctx.accountId.toNat % 128 ≠ residue)
    {left right : RiskEngine} (round : left.round = right.round)
    (limits : left.limits = right.limits) (same : left.context.SameApart residue right.context)
    (unseenLeft : left.context.duplicates.Unseen ctx.clientOrderId)
    (unseenRight : right.context.duplicates.Unseen ctx.clientOrderId) (clock : RiskClock)
    (trace : RiskTrace) :
    (left.validate leftHalts clock ctx trace).result =
        (right.validate rightHalts clock ctx trace).result ∧
      (left.validate leftHalts clock ctx trace).engine.context.SameApart residue
        (right.validate rightHalts clock ctx trace).engine.context := by
  have once : RiskPolicy.preTrade.Nodup := by decide
  have outcomes := runPolicies_same halts visible right.round right.limits once same
    (fun _ => ⟨unseenLeft, unseenRight⟩) trace trace
  simp only [validate, round, limits]
  generalize runPolicies right.round leftHalts ctx right.limits RiskPolicy.preTrade left.context
    trace = leftOutcome at outcomes
  generalize runPolicies right.round rightHalts ctx right.limits RiskPolicy.preTrade right.context
    trace = rightOutcome at outcomes
  obtain ⟨failed, tables⟩ := outcomes
  rw [failed]
  cases rightOutcome.failed with
  | some reason => exact ⟨rfl, tables⟩
  | none =>
    have credit := update_same tables.credit visible
      fun state => state.accept (orderCost ctx.price ctx.qty)
    exact ⟨rfl, ⟨credit, tables.margin, tables.rates⟩⟩

/-- A validation writes no entry of another residue. -/
theorem validate_apart (hidden : ctx.accountId.toNat % 128 = residue) (engine : RiskEngine)
    (halts : Halts) (clock : RiskClock) (trace : RiskTrace) :
    (engine.validate halts clock ctx trace).engine.context.SameApart residue engine.context := by
  have tables : (runPolicies engine.round halts ctx engine.limits RiskPolicy.preTrade
      engine.context trace).context.SameApart residue engine.context :=
    runPolicies_invariant (fun policy context same =>
      (policy.validate_apart hidden engine.round halts engine.limits context).trans same) _
      (.refl residue engine.context) trace
  simp only [validate]
  split
  · have credit := update_apart hidden (runPolicies engine.round halts ctx
      engine.limits RiskPolicy.preTrade engine.context trace).context.credit
      fun state => state.accept (orderCost ctx.price ctx.qty)
    exact ⟨credit.trans tables.credit, tables.margin, tables.rates⟩
  · exact tables

/-- Another order's validation leaves an order unseen. -/
theorem validate_unseen {other : UInt64} (apart : ctx.clientOrderId ≠ other)
    {engine : RiskEngine} (unseen : engine.context.duplicates.Unseen other) (halts : Halts)
    (clock : RiskClock) (trace : RiskTrace) :
    (engine.validate halts clock ctx trace).engine.context.duplicates.Unseen other := by
  have still : (runPolicies engine.round halts ctx engine.limits RiskPolicy.preTrade
      engine.context trace).context.duplicates.Unseen other :=
    @runPolicies_invariant (fun context => context.duplicates.Unseen other) _ _ _ _
      (fun _ _ unseen => RiskPolicy.validate_unseen unseen (fun _ => apart) _ _ _) _ _ unseen trace
  simp only [validate]
  split <;> exact still

/-- A validation keeps the rounding. -/
@[simp] theorem validate_round (engine : RiskEngine) (halts : Halts) (clock : RiskClock)
    (ctx : RiskContext) (trace : RiskTrace) :
    (engine.validate halts clock ctx trace).engine.round = engine.round := by
  simp only [validate]
  split <;> rfl

end RiskEngine

/-! ## Runs -/

namespace AccountRun

/-- The runs agree on everything that belongs to accounts with another residue. -/
structure SameApart (residue : Nat) (left right : AccountRun) : Prop where
  round : left.engine.round = right.engine.round
  limits : left.engine.limits = right.engine.limits
  context : left.engine.context.SameApart residue right.engine.context
  halts : left.halts.SameApart residue right.halts
  verdicts : (left.verdicts.filter fun verdict => verdict.1.toNat % 128 ≠ residue) =
    right.verdicts.filter fun verdict => verdict.1.toNat % 128 ≠ residue

namespace SameApart

variable {residue : Nat} {first second third : AccountRun}

/-- Agreement is reflexive. -/
theorem refl (residue : Nat) (run : AccountRun) : SameApart residue run run :=
  ⟨rfl, rfl, .refl residue _, .refl residue _, rfl⟩

variable (same : SameApart residue first second)
include same

/-- It is symmetric. -/
theorem symm : SameApart residue second first :=
  ⟨same.round.symm, same.limits.symm, same.context.symm, same.halts.symm, same.verdicts.symm⟩

/-- It is transitive. -/
theorem trans (also : SameApart residue second third) :
    SameApart residue first third :=
  ⟨same.round.trans also.round, same.limits.trans also.limits, same.context.trans also.context,
    same.halts.trans also.halts, same.verdicts.trans also.verdicts⟩

/-- Runs that agree apart from a residue look alike to accounts of other residues. -/
theorem alikeFor {accountId : AccountId} (visible : accountId.toNat % 128 ≠ residue) :
    AlikeFor accountId first second := by
  have own (verdicts : List (AccountId × Except RejectReason RiskResult)) :
      (verdicts.filter fun verdict => verdict.1 = accountId) =
        (verdicts.filter fun verdict => verdict.1.toNat % 128 ≠ residue).filter
          fun verdict => verdict.1 = accountId := by
    rw [List.filter_filter]
    refine List.filter_congr fun verdict _ => ?_
    by_cases mine : verdict.1 = accountId
    · simp [mine, visible]
    · simp [mine]
  refine ⟨?_, ?_, fun symbolId => ?_, ?_⟩
  · rw [verdictsOf, verdictsOf, own, own second.verdicts, same.verdicts]
  · exact same.context.credit (slot_mem_slotsApart.mpr visible)
  · exact same.context.margin visible
  · exact same.context.rates (slot_mem_slotsApart.mpr visible)

end SameApart

variable {residue : Nat} {call : AccountCall}

/-- A call changes nothing that belongs to another residue. -/
theorem step_apart (hidden : call.accountId.toNat % 128 = residue) (run : AccountRun) :
    SameApart residue (run.step call) run := by
  have same := SameApart.refl residue run
  cases call with
  | validate ctx clock trace =>
    refine ⟨RiskEngine.validate_round _ _ _ _ _, RiskEngine.validate_limits _ _ _ _ _,
      RiskEngine.validate_apart hidden _ _ _ _, same.halts, ?_⟩
    have unseen : ctx.accountId.toNat % 128 = residue := hidden
    simp [step, List.filter_append, unseen]
  | updateOnFill accountId symbolId side qty priceTicks =>
    have credit := update_apart hidden run.engine.context.credit
      fun state => state.fill (qty * priceTicks)
    refine ⟨rfl, rfl, ⟨credit, ?_, same.context.rates⟩, same.halts, rfl⟩
    change Set.EqOn (updateOnFill _ _ _ _ _).positions _ _
    rw [positions_updateOnFill]
    exact eqOn_update_left (not_not_intro hidden) _ _
  | updateOnCancel accountId cost =>
    have credit := update_apart hidden run.engine.context.credit
      fun state => state.cancel cost
    exact ⟨rfl, rfl, ⟨credit, same.context.margin, same.context.rates⟩, same.halts, rfl⟩
  | setAccountHalt accountId val =>
    exact ⟨rfl, rfl, same.context, ⟨rfl, eqOn_update_left (slot_notMem hidden) _ _,
      rfl, rfl⟩, rfl⟩

/-- A call of another residue does the same to runs that agree. -/
theorem step_same (visible : call.accountId.toNat % 128 ≠ residue) {left right : AccountRun}
    (same : SameApart residue left right)
    (unseen : ∀ id ∈ call.clientOrderIds, left.engine.context.duplicates.Unseen id ∧
      right.engine.context.duplicates.Unseen id) :
    SameApart residue (left.step call) (right.step call) := by
  cases call with
  | validate ctx clock trace =>
    obtain ⟨unseenLeft, unseenRight⟩ := unseen ctx.clientOrderId List.mem_cons_self
    have validations := RiskEngine.validate_same same.halts visible same.round same.limits
      same.context unseenLeft unseenRight clock trace
    refine ⟨?_, ?_, validations.2, same.halts, ?_⟩
    · simp only [step, RiskEngine.validate_round, same.round]
    · simp only [step, RiskEngine.validate_limits, same.limits]
    · simp only [step, List.filter_append, same.verdicts, validations.1]
  | updateOnFill accountId symbolId side qty priceTicks =>
    have credit := update_same same.context.credit visible
      fun state => state.fill (qty * priceTicks)
    refine ⟨same.round, same.limits, ⟨credit, ?_, same.context.rates⟩, same.halts, same.verdicts⟩
    change Set.EqOn (updateOnFill _ _ _ _ _).positions (updateOnFill _ _ _ _ _).positions _
    rw [positions_updateOnFill, positions_updateOnFill]
    exact eqOn_change same.context.margin visible fun state =>
      (state.claim accountId symbolId).fill side qty
  | updateOnCancel accountId cost =>
    have credit := update_same same.context.credit visible
      fun state => state.cancel cost
    exact ⟨same.round, same.limits, ⟨credit, same.context.margin, same.context.rates⟩,
      same.halts, same.verdicts⟩
  | setAccountHalt accountId val =>
    exact ⟨same.round, same.limits, same.context,
      ⟨same.halts.globalHalt, eqOn_update_update same.halts.accounts _ _, same.halts.symbols,
        same.halts.status⟩, same.verdicts⟩

/-- A call marks its own identifier only. -/
theorem step_unseen {id : UInt64} (apart : id ∉ call.clientOrderIds) {run : AccountRun}
    (unseen : run.engine.context.duplicates.Unseen id) :
    (run.step call).engine.context.duplicates.Unseen id := by
  cases call with
  | validate ctx clock trace =>
    have other : ctx.clientOrderId ≠ id := fun same => apart (same ▸ List.mem_cons_self)
    exact RiskEngine.validate_unseen other unseen _ _ _
  | _ => exact unseen

/-- The state of two runs with the calls still to come: they agree apart from the residue, and the
identifiers to come are unseen. -/
structure Pending (residue : Nat) (calls : List AccountCall) (left right : AccountRun) :
    Prop where
  same : SameApart residue left right
  distinct : (calls.flatMap AccountCall.clientOrderIds).Nodup
  unseen : ∀ id ∈ calls.flatMap AccountCall.clientOrderIds,
    left.engine.context.duplicates.Unseen id ∧ right.engine.context.duplicates.Unseen id

namespace Pending

variable {rest : List AccountCall} {left right : AccountRun}

variable (pending : Pending residue (call :: rest) left right)
include pending

/-- Identifiers of later calls stay unseen. -/
theorem later :
    (rest.flatMap AccountCall.clientOrderIds).Nodup ∧
      ∀ id ∈ rest.flatMap AccountCall.clientOrderIds,
        (left.step call).engine.context.duplicates.Unseen id ∧
          (right.step call).engine.context.duplicates.Unseen id ∧
          right.engine.context.duplicates.Unseen id := by
  have distinct := pending.distinct
  rw [List.flatMap_cons] at distinct
  obtain ⟨_, later, disjoint⟩ := List.nodup_append'.mp distinct
  refine ⟨later, fun id member => ?_⟩
  have apart : id ∉ call.clientOrderIds := fun own => disjoint own member
  obtain ⟨unseenLeft, unseenRight⟩ := pending.unseen id (by
    rw [List.flatMap_cons]
    exact List.mem_append_right _ member)
  exact ⟨step_unseen apart unseenLeft, step_unseen apart unseenRight, unseenRight⟩

/-- A hidden call changes nothing that is compared. -/
theorem hidden (hidden : call.accountId.toNat % 128 = residue) :
    Pending residue rest (left.step call) right := by
  obtain ⟨distinct, unseen⟩ := pending.later
  exact ⟨(step_apart hidden left).trans pending.same, distinct,
    fun id member => ⟨(unseen id member).1, (unseen id member).2.2⟩⟩

/-- A kept call is made on both sides. -/
theorem kept :
    Pending residue rest (left.step call) (right.step call) := by
  obtain ⟨distinct, unseen⟩ := pending.later
  refine ⟨?_, distinct, fun id member => ⟨(unseen id member).1, (unseen id member).2.1⟩⟩
  by_cases hidden : call.accountId.toNat % 128 = residue
  · exact ((step_apart hidden left).trans pending.same).trans (step_apart hidden right).symm
  · refine step_same hidden pending.same fun id member => pending.unseen id ?_
    rw [List.flatMap_cons]
    exact List.mem_append_left _ member

end Pending

/-- Accounts that differ modulo 128 are isolated in every run with distinct identifiers. -/
theorem isolated_of_ne {hidden observer : AccountId}
    (apart : hidden.toNat % 128 ≠ observer.toNat % 128) (round : ℚ → ℚ) {calls : List AccountCall}
    (distinct : (calls.flatMap AccountCall.clientOrderIds).Nodup) :
    Isolated round calls hidden observer := by
  have start : Pending (hidden.toNat % 128) calls (new round) (new round) := by
    refine ⟨.refl _ _, distinct, fun id _ => ?_⟩
    have unseen : (new round).engine.context.duplicates.Unseen id := by
      by_cases zero : id = 0
      · exact Or.inl zero
      · exact Or.inr (Ne.symm zero)
    exact ⟨unseen, unseen⟩
  have final : Pending (hidden.toNat % 128) [] ((new round).run calls)
      ((new round).run (calls.filter fun call => call.accountId ≠ hidden)) := by
    refine foldl_filter ?_ ?_ start
    · intro call rest left right deleted pending
      have own : call.accountId = hidden := by simpa using deleted
      exact pending.hidden (by rw [own])
    · intro call rest left right _ pending
      exact pending.kept
  exact final.same.alikeFor apart.symm

/-- A single fill reaches the positions of every account with the same residue. -/
theorem not_isolated_fill {hidden observer : AccountId}
    (shared : hidden.toNat % 128 = observer.toNat % 128) (round : ℚ → ℚ) :
    ¬Isolated round [.updateOnFill hidden 0 .buy 1 0] hidden observer := by
  intro isolated
  have positions := isolated.positions 0
  have home (manager : MarginManager) : manager.position observer 0 = manager.position hidden 0 :=
    congrArg (fun account => manager.positions (account, 0)) shared.symm
  have deleted : ([.updateOnFill hidden 0 .buy 1 0] : List AccountCall).filter
      (fun call => call.accountId ≠ hidden) = [] := by
    simp [AccountCall.accountId]
  rw [deleted, home, home] at positions
  have bought := congrArg PositionState.longQty positions
  simp only [run, List.foldl_cons, List.foldl_nil, step, RiskEngine.updateOnFill,
    position_updateOnFill, PositionState.fill, PositionState.claim_quantities] at bought
  simp [new, RiskEngine.new, new, position] at bought

/-- Two accounts are isolated from each other in all runs with distinct identifiers exactly if they
differ modulo 128. -/
theorem isolated_iff_residues_differ (round : ℚ → ℚ) (hidden observer : AccountId) :
    (∀ calls : List AccountCall, (calls.flatMap AccountCall.clientOrderIds).Nodup →
      Isolated round calls hidden observer) ↔ hidden.toNat % 128 ≠ observer.toNat % 128 := by
  constructor
  · intro isolated shared
    exact not_isolated_fill shared round (isolated _ List.nodup_nil)
  · intro apart calls distinct
    exact isolated_of_ne apart round distinct

/-- Account 2 reaches its long limit, and account 1 does not notice. -/
theorem isolated_iff_residues_differ_neighbours :
    Isolated id [.updateOnFill 2 1 .buy 1000000000 1,
      .validate RiskRun.oneShare ⟨0, 0, 0, 0⟩ ⟨[]⟩] 2 1 :=
  (isolated_iff_residues_differ id 2 1).mpr (by decide) _ (by decide)

/-- Account 129 reaches its long limit, and account 1 is refused an order that it is granted when
the calls of account 129 are deleted. -/
theorem shared_position_refuses :
    (129 : AccountId) ≠ 1 ∧
      ((new id).run [.updateOnFill 129 1 .buy 1000000000 1,
        .validate RiskRun.oneShare ⟨0, 0, 0, 0⟩ ⟨[]⟩]).verdictsOf 1 =
          [.error .riskLimitExceeded] ∧
      ((new id).run ([.updateOnFill 129 1 .buy 1000000000 1,
        .validate RiskRun.oneShare ⟨0, 0, 0, 0⟩ ⟨[]⟩].filter fun call =>
          call.accountId ≠ 129)).verdictsOf 1 = [.ok ⟨.none, .accept, 0, 0⟩] := by
  decide +kernel

end AccountRun

end FluxTrade
