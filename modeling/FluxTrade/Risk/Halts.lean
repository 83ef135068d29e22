import FluxTrade.Risk.CreditLedger

/-!
# Halts of a process

The kill switch and the circuit breaker are static: every risk engine of the
process reads the same flags. An operator sets and clears them, engines are
constructed at any time, and the constructor resets the flags of the whole
process. A halt of an account or a symbol is stored under its identifier modulo
1024.
-/

namespace FluxTrade

open Function

/-! ## The setters -/

/-- `KillSwitch::set_global_halt`. -/
def KillSwitch.setGlobalHalt (halts : Halts) (val : Bool) : Halts :=
  { halts with globalHalt := val }

/-- `KillSwitch::set_account_halt`. -/
def KillSwitch.setAccountHalt (halts : Halts) (accountId : AccountId) (val : Bool) : Halts :=
  { halts with
    blockedAccounts := update halts.blockedAccounts (accountId.toNat % 1024) val }

/-- `KillSwitch::set_symbol_halt`. -/
def KillSwitch.setSymbolHalt (halts : Halts) (symbolId : SymbolId) (val : Bool) : Halts :=
  { halts with
    blockedSymbols := update halts.blockedSymbols (symbolId.toNat % 1024) val }

/-- `CircuitBreaker::set_status`. -/
def CircuitBreaker.setStatus (halts : Halts) (state : MarketStatus) : Halts :=
  { halts with status := state }

/-- The body of the loop in `RiskEngine::reset`. -/
def RiskEngine.unblock (halts : Halts) (index : Nat) : Halts :=
  KillSwitch.setSymbolHalt (KillSwitch.setAccountHalt halts (UInt32.ofNat index) false)
    (UInt32.ofNat index) false

/-- What `RiskEngine::reset`, and with it the constructor, does to the flags of the process. -/
def RiskEngine.resetHalts (halts : Halts) : Halts :=
  let unlocked := (List.range 1024).foldl unblock (KillSwitch.setGlobalHalt halts false)
  CircuitBreaker.setStatus unlocked .trading

/-! ## The process -/

/-- The risk engines of a process and the flags they share. -/
structure RiskProcess where
  halts : Halts
  engines : List RiskEngine

/-- What happens in a process: calls of the operator, constructions and validations. -/
inductive RiskAction where
  | setGlobalHalt (val : Bool)
  | setAccountHalt (accountId : AccountId) (val : Bool)
  | setSymbolHalt (symbolId : SymbolId) (val : Bool)
  | setStatus (state : MarketStatus)
  | construct (round : ℚ → ℚ)
  | validate (engine : Nat) (clock : RiskClock) (ctx : RiskContext) (trace : RiskTrace)

namespace RiskProcess

/-- A process before the first engine. -/
def new : RiskProcess := ⟨.none, []⟩

/-- One action. Engines are named by their place in the order of construction. -/
def step (process : RiskProcess) : RiskAction → RiskProcess
  | .setGlobalHalt val => { process with halts := KillSwitch.setGlobalHalt process.halts val }
  | .setAccountHalt accountId val =>
    { process with halts := KillSwitch.setAccountHalt process.halts accountId val }
  | .setSymbolHalt symbolId val =>
    { process with halts := KillSwitch.setSymbolHalt process.halts symbolId val }
  | .setStatus state => { process with halts := CircuitBreaker.setStatus process.halts state }
  | .construct round =>
    ⟨RiskEngine.resetHalts process.halts, process.engines ++ [RiskEngine.new round]⟩
  | .validate engine clock ctx trace =>
    { process with
      engines := process.engines.modify engine fun engine =>
        (engine.validate process.halts clock ctx trace).engine }

/-- A process after some actions. -/
def run (process : RiskProcess) (actions : List RiskAction) : RiskProcess :=
  actions.foldl step process

end RiskProcess

/-! ## Halts and what ends them -/

/-- A status in which the circuit breaker rejects. -/
def MarketStatus.Stops (status : MarketStatus) : Prop := status = .halt ∨ status = .volatilityHalt
  deriving Decidable

/-- The halts that an operator can order. -/
inductive HaltOrder where
  | everything
  | account (accountId : AccountId)
  | symbol (symbolId : SymbolId)
  | market
  deriving DecidableEq

/-- The orders that a halt is meant to stop. -/
def HaltOrder.Covers : HaltOrder → RiskContext → Prop
  | .everything, _ => True
  | .account accountId, ctx => ctx.accountId = accountId
  | .symbol symbolId, ctx => ctx.symbolId = symbolId
  | .market, _ => True

/-- The flag of a halt is set. -/
def Halts.Flagged (halts : Halts) : HaltOrder → Prop
  | .everything => halts.globalHalt = true
  | .account accountId => halts.blockedAccounts (accountId.toNat % 1024) = true
  | .symbol symbolId => halts.blockedSymbols (symbolId.toNat % 1024) = true
  | .market => halts.status.Stops

namespace RiskAction

/-- The action is the setter's call that orders the halt. -/
def Sets : RiskAction → HaltOrder → Prop
  | .setGlobalHalt val, .everything => val = true
  | .setAccountHalt other val, .account accountId => other = accountId ∧ val = true
  | .setSymbolHalt other val, .symbol symbolId => other = symbolId ∧ val = true
  | .setStatus state, .market => state.Stops
  | _, _ => False

/-- The action is the setter's call with the clearing value. -/
def Lifts : RiskAction → HaltOrder → Prop
  | .setGlobalHalt val, .everything => val = false
  | .setAccountHalt other val, .account accountId => other = accountId ∧ val = false
  | .setSymbolHalt other val, .symbol symbolId => other = symbolId ∧ val = false
  | .setStatus state, .market => ¬state.Stops
  | _, _ => False

/-- The action clears the halt although it does not name it: an engine is constructed, or the halt
of another account or symbol is cleared that is stored in the same place. -/
def Overrides : RiskAction → HaltOrder → Prop
  | .construct _, _ => True
  | .setAccountHalt other val, .account accountId =>
    other ≠ accountId ∧ other.toNat % 1024 = accountId.toNat % 1024 ∧ val = false
  | .setSymbolHalt other val, .symbol symbolId =>
    other ≠ symbolId ∧ other.toNat % 1024 = symbolId.toNat % 1024 ∧ val = false
  | _, _ => False

end RiskAction

namespace RiskEngine

/-- The loop of `reset` clears the flags it has passed. -/
theorem foldl_unblock (halts : Halts) {count : Nat} (bounded : count ≤ 1024) {slot : Nat}
    (passed : slot < count) :
    ((List.range count).foldl unblock halts).blockedAccounts slot = false ∧
      ((List.range count).foldl unblock halts).blockedSymbols slot = false := by
  induction count with
  | zero => omega
  | succ count ih =>
    have index : (UInt32.ofNat count).toNat % 1024 = count := by
      rw [UInt32.toNat_ofNat']
      omega
    rw [List.range_succ, List.foldl_append, List.foldl_cons, List.foldl_nil]
    simp only [unblock, KillSwitch.setSymbolHalt, KillSwitch.setAccountHalt, index]
    by_cases last : slot = count
    · subst last
      exact ⟨update_self .., update_self ..⟩
    · obtain ⟨account, symbol⟩ := ih (by omega) (by omega)
      rw [update_of_ne last, update_of_ne last]
      exact ⟨account, symbol⟩

/-- Unblocking keeps the global halt. -/
theorem foldl_unblock_globalHalt (halts : Halts) (indices : List Nat) :
    (indices.foldl unblock halts).globalHalt = halts.globalHalt := by
  induction indices generalizing halts with
  | nil => rfl
  | cons index rest ih => exact ih (unblock halts index)

/-- A construction leaves no flag set. -/
theorem not_flagged_resetHalts (halts : Halts) (halt : HaltOrder) :
    ¬(resetHalts halts).Flagged halt := by
  have cleared {slot : Nat} (below : slot < 1024) :=
    foldl_unblock (KillSwitch.setGlobalHalt halts false) (Nat.le_refl 1024) below
  have small (identifier : UInt32) : identifier.toNat % 1024 < 1024 := Nat.mod_lt _ (by decide)
  cases halt with
  | everything =>
    simp only [Halts.Flagged, resetHalts, CircuitBreaker.setStatus, foldl_unblock_globalHalt,
      KillSwitch.setGlobalHalt]
    decide
  | account accountId =>
    simp only [Halts.Flagged, resetHalts, CircuitBreaker.setStatus,
      (cleared (small accountId)).1]
    decide
  | symbol symbolId =>
    simp only [Halts.Flagged, resetHalts, CircuitBreaker.setStatus,
      (cleared (small symbolId)).2]
    decide
  | market =>
    simp only [Halts.Flagged, resetHalts, CircuitBreaker.setStatus]
    decide

/-- A flagged halt rejects every order it covers, in every engine. -/
theorem validate_of_flagged {halts : Halts} {halt : HaltOrder} (flagged : halts.Flagged halt)
    {ctx : RiskContext} (covered : halt.Covers ctx) (engine : RiskEngine) (clock : RiskClock)
    (trace : RiskTrace) :
    (engine.validate halts clock ctx trace).result = .error .riskLimitExceeded := by
  have stopped : KillSwitch.validate halts ctx engine.limits = false ∨
      CircuitBreaker.validate halts = false := by
    cases halt with
    | everything =>
      have raised : halts.globalHalt = true := flagged
      simp [KillSwitch.validate, raised]
    | account accountId =>
      have raised : halts.blockedAccounts (ctx.accountId.toNat % 1024) = true :=
        covered.symm ▸ flagged
      simp [KillSwitch.validate, raised]
    | symbol symbolId =>
      have raised : halts.blockedSymbols (ctx.symbolId.toNat % 1024) = true :=
        covered.symm ▸ flagged
      simp [KillSwitch.validate, raised]
    | market =>
      rcases flagged with raised | raised <;> simp [CircuitBreaker.validate, raised]
  -- The two policies stand first in the pipeline and report the same reason.
  have failed : (runPolicies engine.round halts ctx engine.limits RiskPolicy.preTrade
      engine.context trace).failed = some .riskLimitExceeded := by
    rw [RiskPolicy.preTrade, failed_runPolicies_cons, failed_runPolicies_cons]
    rcases stopped with switched | broken
    · simp only [RiskPolicy.validate, switched, Bool.false_eq_true, if_false,
        RiskPolicy.rejectReason]
    · simp only [RiskPolicy.validate, broken, Bool.false_eq_true, if_false,
        RiskPolicy.rejectReason, ite_self]
  simp only [validate, failed]

end RiskEngine

namespace RiskProcess

variable {process : RiskProcess} {halt : HaltOrder} {action : RiskAction}

/-- A flag in a table of 1024 stays set exactly if no identifier of its place is cleared. -/
theorem update_flag_iff {table : Nat → Bool} {identifier other : UInt32} {val : Bool}
    (flag : table (identifier.toNat % 1024) = true) :
    update table (other.toNat % 1024) val (identifier.toNat % 1024) = true ↔
      ¬(other = identifier ∧ val = false ∨
        other ≠ identifier ∧ other.toNat % 1024 = identifier.toNat % 1024 ∧ val = false) := by
  by_cases home : identifier.toNat % 1024 = other.toNat % 1024
  · rw [home, update_self]
    by_cases same : other = identifier <;> simp [same]
  · rw [update_of_ne home]
    refine iff_of_true flag ?_
    rintro (⟨rfl, _⟩ | ⟨_, shared, _⟩)
    · exact home rfl
    · exact home shared.symm

/-- A flag that is set stays set exactly until it is cleared, by its own setter or not. -/
theorem flagged_step_iff (flagged : process.halts.Flagged halt) (action : RiskAction) :
    (process.step action).halts.Flagged halt ↔
      ¬(action.Lifts halt ∨ action.Overrides halt) := by
  cases action with
  | setGlobalHalt val =>
    cases halt with
    | everything => simp [step, KillSwitch.setGlobalHalt, Halts.Flagged, RiskAction.Lifts,
        RiskAction.Overrides]
    | _ => exact iff_of_true flagged (by simp [RiskAction.Lifts, RiskAction.Overrides])
  | setAccountHalt other val =>
    cases halt with
    | account accountId => exact update_flag_iff flagged
    | _ => exact iff_of_true flagged (by simp [RiskAction.Lifts, RiskAction.Overrides])
  | setSymbolHalt other val =>
    cases halt with
    | symbol symbolId => exact update_flag_iff flagged
    | _ => exact iff_of_true flagged (by simp [RiskAction.Lifts, RiskAction.Overrides])
  | setStatus state =>
    cases halt with
    | market => simp [step, CircuitBreaker.setStatus, Halts.Flagged, RiskAction.Lifts,
        RiskAction.Overrides]
    | _ => exact iff_of_true flagged (by simp [RiskAction.Lifts, RiskAction.Overrides])
  | construct round =>
    exact iff_of_false (RiskEngine.not_flagged_resetHalts _ _) (fun kept => kept (Or.inr trivial))
  | validate engine clock ctx trace =>
    exact iff_of_true flagged (by simp [RiskAction.Lifts, RiskAction.Overrides])

/-- A halt that is set is flagged. -/
theorem flagged_of_sets (sets : action.Sets halt) (process : RiskProcess) :
    (process.step action).halts.Flagged halt := by
  cases action <;> cases halt <;> simp only [RiskAction.Sets] at sets
  · exact sets
  · obtain ⟨rfl, rfl⟩ := sets
    exact update_self ..
  · obtain ⟨rfl, rfl⟩ := sets
    exact update_self ..
  · exact sets

/-- A flag survives actions that do not clear it. -/
theorem flagged_run (flagged : process.halts.Flagged halt) {actions : List RiskAction}
    (kept : ∀ action ∈ actions, ¬(action.Lifts halt ∨ action.Overrides halt)) :
    (process.run actions).halts.Flagged halt := by
  induction actions generalizing process with
  | nil => exact flagged
  | cons action rest ih =>
    have first := (flagged_step_iff flagged action).mpr (kept action List.mem_cons_self)
    exact ih first fun other member => kept other (List.mem_cons_of_mem _ member)

/-- In a process of any length, a halt is in force in every engine after it has been set, as long
as the operator has not lifted it, no engine is constructed and no other halt is cleared in its
place. -/
theorem halted_of_not_overridden (before : List RiskAction) (sets : action.Sets halt)
    {later : List RiskAction} (unlifted : ∀ other ∈ later, ¬other.Lifts halt)
    (kept : ∀ other ∈ later, ¬other.Overrides halt) :
    ∀ engine ∈ (new.run (before ++ action :: later)).engines, ∀ ctx, halt.Covers ctx →
      ∀ clock trace,
        (engine.validate (new.run (before ++ action :: later)).halts clock ctx trace).result =
          .error .riskLimitExceeded := by
  have flagged : (new.run (before ++ action :: later)).halts.Flagged halt := by
    rw [run, List.foldl_append, List.foldl_cons]
    refine flagged_run (flagged_of_sets sets _) fun other member => ?_
    rintro (lifted | overridden)
    · exact unlifted other member lifted
    · exact kept other member overridden
  intro engine _ ctx covered clock trace
  exact RiskEngine.validate_of_flagged flagged covered engine clock trace

/-- The halt of account 1 outlasts a halt and release of account 2. -/
theorem halted_of_not_overridden_account :
    ∃ engine ∈ (new.run ([.construct id] ++ .setAccountHalt 1 true ::
        [.setAccountHalt 2 true, .setAccountHalt 2 false])).engines,
      (engine.validate (new.run ([.construct id] ++ .setAccountHalt 1 true ::
        [.setAccountHalt 2 true, .setAccountHalt 2 false])).halts ⟨0, 0, 0, 0⟩ RiskRun.oneShare
        ⟨[]⟩).result = .error .riskLimitExceeded :=
  ⟨RiskEngine.new id, List.mem_cons_self,
    halted_of_not_overridden [.construct id]
      (show (RiskAction.setAccountHalt 1 true).Sets (.account 1) from ⟨rfl, rfl⟩)
      (by simp [RiskAction.Lifts]) (by simp [RiskAction.Overrides]) _ List.mem_cons_self
      RiskRun.oneShare rfl _ _⟩

/-- A second engine is constructed under a global halt that nobody lifts; the first engine then
accepts an order. -/
theorem construct_ends_halt :
    (RiskAction.setGlobalHalt true).Sets .everything ∧
      (∀ other ∈ [RiskAction.construct id], ¬other.Lifts .everything) ∧
      ∃ engine, (new.run ([.construct id] ++ .setGlobalHalt true :: [.construct id])).engines[0]? =
          some engine ∧
        (engine.validate (new.run ([.construct id] ++ .setGlobalHalt true ::
          [.construct id])).halts ⟨0, 0, 0, 0⟩ RiskRun.oneShare ⟨[]⟩).result =
            .ok ⟨.none, .accept, 0, 0⟩ :=
  ⟨rfl, by simp [RiskAction.Lifts], RiskEngine.new id, rfl, by decide +kernel⟩

end RiskProcess

end FluxTrade
