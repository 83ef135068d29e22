import FluxTrade.Exchange.EngineManager
import FluxTrade.Matching.Ownership

/-!
# Runs of an engine manager

A run processes commands one after the other. Beside the manager it remembers
the commands, the orders that reached the matching engine, the matches, and the
account behind each slot of the order pool. `Outcome` says once what a command
can do. The matching engine inside makes a run of its own, so what holds of its
runs holds here.
-/

namespace FluxTrade

open Execution

/-- A command with what is read while it is processed. -/
structure ManagerInput where
  command : OrderCommand
  env : CommandEnv

/-- The order of a command. -/
def ManagerInput.order (input : ManagerInput) : Order :=
  input.command.toOrder input.env.exchangeTime

/-- A manager with the history of its run. -/
structure ManagerRun where
  manager : EngineManager
  /-- Commands processed, the first one first. -/
  processed : List OrderCommand
  /-- Orders handed to the matching engine, the first one first. -/
  submitted : List Order
  /-- Matches with their aggressive orders, the first one first. -/
  matched : List (Order × MatchCall)
  /-- The account of the order in each slot of the order pool. -/
  owners : Nat → AccountId

/-- A limit order rests unless its matches exhaust it. -/
def Order.RestsAfter (order : Order) (calls : List MatchCall) : Prop :=
  order.type = .limit ∧ leftAfter order.qty (calls.map MatchCall.fill) ≠ 0
  deriving Decidable

namespace ManagerRun

/-- A new manager before its first command. -/
def start (symbolId : SymbolId) (round : ℚ → ℚ) : ManagerRun :=
  ⟨.new symbolId round, [], [], [], fun _ => 0⟩

/-- The book of the run's engine. -/
def book (run : ManagerRun) : LimitOrderBook := run.manager.matchingEngine.book

/-- The command passes the risk checks. -/
def Accepts (run : ManagerRun) (input : ManagerInput) : Prop :=
  run.manager.Accepts input.env input.command
  deriving Decidable

/-- The command puts an order into the matching engine. -/
def Submits (run : ManagerRun) (input : ManagerInput) : Prop :=
  run.Accepts input ∧ input.command.type = .newOrder
  deriving Decidable

/-- The owners after a submission: the slot of an order that rests gets its account. -/
def ownersAfter (run : ManagerRun) (order : Order) (calls : List MatchCall)
    (book : LimitOrderBook) : Nat → AccountId :=
  match book.findOrder order.orderId with
  | some slot =>
    if order.RestsAfter calls then Function.update run.owners slot order.accountId else run.owners
  | none => run.owners

/-- One command. -/
def step (run : ManagerRun) (input : ManagerInput) : Except Fault ManagerRun :=
  match run.manager.processCommand input.env input.command with
  | .error fault => .error fault
  | .ok outcome =>
    let submits := run.Submits input
    .ok
      { manager := outcome.manager
        processed := run.processed ++ [input.command]
        submitted := if submits then run.submitted ++ [input.order] else run.submitted
        matched := run.matched ++ outcome.calls.map fun call => (input.order, call)
        owners := if submits then
            run.ownersAfter input.order outcome.calls outcome.manager.matchingEngine.book
          else run.owners }

/-! ## What a command can do -/

section

variable (run : ManagerRun) (input : ManagerInput)

/-- The validation of a command. -/
def validation : Validation := run.manager.validate input.env input.command

/-- The manager when the validated command is in the journal. -/
def admitted : EngineManager :=
  { run.manager with riskEngine := (run.validation input).engine }.journal input.env input.command

/-- The run after the engine has executed an accepted command that puts no order in. -/
def executed (engine : MatchingEngine) (reports : List ExecutionReport) : ManagerRun :=
  { run with
    manager := ((run.admitted input).dispatchReports engine input.command.connId .buy reports
      []).manager
    processed := run.processed ++ [input.command] }

/-- The run after a submission. -/
def entered (submission : Submission) : ManagerRun where
  manager := ((run.admitted input).dispatchReports submission.engine input.command.connId
    input.command.side submission.ctx.reports submission.calls).manager
  processed := run.processed ++ [input.command]
  submitted := run.submitted ++ [input.order]
  matched := run.matched ++ submission.calls.map fun call => (input.order, call)
  owners := run.ownersAfter input.order submission.calls submission.engine.book

/-- The ways in which a command is processed. -/
inductive Outcome : ManagerRun → Prop where
  | rejected {reason : RejectReason} (refused : (run.validation input).result = .error reason) :
      Outcome
        { run with
          manager := { run.manager with riskEngine := (run.validation input).engine }
          processed := run.processed ++ [input.command] }
  | entered {submission : Submission} (accepted : run.Accepts input)
      (isNew : input.command.type = .newOrder)
      (submits : run.manager.matchingEngine.submitOrder input.order .empty input.env.engineClock =
        .ok submission) : Outcome (run.entered input submission)
  | cancelled {found : Bool} {engine : MatchingEngine} {ctx : ExecutionContext}
      (accepted : run.Accepts input) (isCancel : input.command.type = .cancelOrder)
      (cancels : run.manager.matchingEngine.cancelOrder input.command.origClientOrderId 1
        input.command.accountId input.command.symbolId .empty input.env.engineClock =
          .ok (found, engine, ctx)) : Outcome (run.executed input engine ctx.reports)
  | replaced (accepted : run.Accepts input) (isReplace : input.command.type = .replaceOrder) :
      Outcome (run.executed input run.manager.matchingEngine [])

end

variable {run next : ManagerRun} {input : ManagerInput}

/-- A refusal is no acceptance. -/
theorem not_accepts_of_error {reason : RejectReason}
    (refused : (run.validation input).result = .error reason) : ¬run.Accepts input := by
  intro accepted
  have isOk : (run.validation input).result.isOk = true := accepted
  rw [refused] at isOk
  cases isOk

/-- A rejected command is answered and changes the risk tables only. -/
theorem processCommand_of_error {reason : RejectReason}
    (refused : (run.validation input).result = .error reason) :
    run.manager.processCommand input.env input.command =
      .ok ⟨{ run.manager with riskEngine := (run.validation input).engine },
        [input.command.rejectReport reason input.env.rejectTime], []⟩ := by
  have result : (run.manager.validate input.env input.command).result = .error reason := refused
  simp only [EngineManager.processCommand, result]
  rfl

/-- An accepted command is executed. -/
theorem processCommand_of_accepts (accepted : run.Accepts input) :
    run.manager.processCommand input.env input.command =
      (run.admitted input).execute input.env input.command := by
  have isOk : (run.manager.validate input.env input.command).result.isOk = true := accepted
  cases result : (run.manager.validate input.env input.command).result with
  | error reason =>
    rw [result] at isOk
    cases isOk
  | ok value =>
    simp only [EngineManager.processCommand, result]
    rfl

/-- A processed command has one of the listed outcomes. -/
theorem outcome (taken : run.step input = .ok next) : run.Outcome input next := by
  cases result : (run.manager.validate input.env input.command).result with
  | error reason =>
    have refused : ¬run.Submits input := fun submits => not_accepts_of_error result submits.1
    rw [step, processCommand_of_error result] at taken
    simp only [refused, if_false, List.map_nil, List.append_nil] at taken
    cases taken
    exact .rejected result
  | ok value =>
    have accepted : run.Accepts input := by
      change (run.manager.validate input.env input.command).result.isOk = true
      rw [result]
      rfl
    rw [step, processCommand_of_accepts accepted] at taken
    cases done : (run.admitted input).execute input.env input.command with
    | error fault =>
      rw [done] at taken
      cases taken
    | ok outcome =>
      rw [done] at taken
      cases taken
      cases kind : input.command.type with
      | newOrder =>
        have submits : run.Submits input := ⟨accepted, kind⟩
        simp only [EngineManager.execute, kind] at done
        obtain ⟨submission, submitted, same⟩ := bind_eq_ok done
        cases same
        simp only [submits, if_true]
        exact .entered accepted kind submitted
      | cancelOrder =>
        have keeps : ¬run.Submits input := by simp [Submits, kind]
        simp only [EngineManager.execute, kind] at done
        obtain ⟨⟨found, engine, ctx⟩, cancelled, same⟩ := bind_eq_ok done
        cases same
        simp only [keeps, if_false]
        exact (List.append_nil run.matched).symm ▸ .cancelled accepted kind cancelled
      | replaceOrder =>
        have keeps : ¬run.Submits input := by simp [Submits, kind]
        simp only [EngineManager.execute, kind] at done
        cases done
        simp only [keeps, if_false, List.map_nil, List.append_nil]
        exact .replaced accepted kind

/-! ## The run of the matching engine -/

/-- The run that the matching engine makes. -/
def engineRun (run : ManagerRun) : EngineRun :=
  ⟨run.manager.matchingEngine, run.submitted, run.matched⟩

/-- A command leaves the matching engine alone or makes one call, which is no modification. -/
theorem step_engineRun (taken : run.step input = .ok next) :
    next.engineRun = run.engineRun ∨
      ∃ call, (∀ orderId newQty, call ≠ .modify orderId newQty) ∧
        run.engineRun.step ⟨call, .empty, input.env.engineClock⟩ = .ok next.engineRun := by
  cases outcome taken with
  | rejected _ => exact Or.inl rfl
  | replaced _ _ => exact Or.inl rfl
  | entered _ _ submits =>
    refine Or.inr ⟨.submit input.order, by simp, ?_⟩
    simp only [EngineRun.step, engineRun, submits]
    rfl
  | cancelled _ _ cancels =>
    refine Or.inr ⟨.cancel input.command.origClientOrderId 1 input.command.accountId
      input.command.symbolId, by simp, ?_⟩
    simp only [EngineRun.step, engineRun, cancels]
    rfl

/-- What holds between two commands of every run. -/
structure Invariant (run : ManagerRun) : Prop where
  engine : run.engineRun.Invariant
  owned : run.engineRun.Owned
  positive : run.engineRun.Positive

/-- A new engine is in order. -/
theorem Invariant.start (symbolId : SymbolId) (round : ℚ → ℚ) :
    (ManagerRun.start symbolId round).Invariant where
  engine := EngineRun.Invariant.start none
  owned := EngineRun.Owned.start none
  positive := fun _ _ member => by cases member

/-- A command keeps it so. -/
theorem Invariant.step (invariant : run.Invariant) (taken : run.step input = .ok next) :
    next.Invariant := by
  rcases step_engineRun taken with same | ⟨call, plain, moved⟩
  · exact ⟨same ▸ invariant.engine, same ▸ invariant.owned, same ▸ invariant.positive⟩
  · exact ⟨(invariant.engine.step moved).1, invariant.owned.step invariant.engine moved,
      invariant.positive.step invariant.engine plain moved⟩

end ManagerRun

/-- A new limit order for symbol 1, sequenced by its identifier. -/
def limitCommand (orderId : UInt64) (accountId : AccountId) (side : Side) (price : Price)
    (qty : Quantity) : OrderCommand where
  type := .newOrder
  sequence := orderId
  timestamp := 0
  clientOrderId := orderId
  origClientOrderId := 0
  symbolId := 1
  accountId
  price
  qty
  side
  orderType := .limit
  tif := .gtc
  connId := 1

/-- A command processed while no halt is in force and all clocks stand at zero. -/
def commandInput (command : OrderCommand) : ManagerInput :=
  ⟨command, ⟨.none, ⟨0, 0, 0, 0⟩, 0, ⟨0, 0, 0⟩, 0, 0⟩⟩

end FluxTrade
