import FluxTrade.Exchange.ManagerRun

/-!
# Routing commands to engines

The dispatcher puts a command into the queue of its symbol modulo 32, and an
engine reads the queue of its own symbol modulo 32. Engines whose symbols share
a queue take each other's commands, and no later check looks at the symbol. Where
every command finds in its queue no engine but its own, symbols stay isolated in
every interleaving of dispatching and polling. A queue is a bounded list here: it
has one producer, and one consumer wherever its commands find one engine.
-/

namespace FluxTrade

open Execution Function

/-- `Dispatcher`: the contents of its queues. -/
structure Dispatcher where
  queues : Nat → List OrderCommand

namespace Dispatcher

/-- `NumSymbols`. -/
def numSymbols : Nat := 32

/-- `QueueCapacity`. -/
def queueCapacity : Nat := 4096

/-- The queue of a symbol. -/
def slot (symbolId : SymbolId) : Nat := symbolId.toNat % numSymbols

/-- `Dispatcher::dispatch`: a full queue refuses the command. -/
def dispatch (dispatcher : Dispatcher) (command : OrderCommand) : Bool × Dispatcher :=
  let idx := slot command.symbolId
  if queueCapacity ≤ (dispatcher.queues idx).length then (false, dispatcher)
  else
    (true, ⟨update dispatcher.queues idx (dispatcher.queues idx ++ [command])⟩)

/-- A queued command was queued before or is the dispatched one. -/
theorem mem_dispatch {dispatcher : Dispatcher} {command waiting : OrderCommand} {idx : Nat}
    (member : waiting ∈ (dispatcher.dispatch command).2.queues idx) :
    waiting ∈ dispatcher.queues idx ∨ waiting = command ∧ idx = slot command.symbolId := by
  by_cases full : queueCapacity ≤ (dispatcher.queues (slot command.symbolId)).length
  · simp only [dispatch, full, if_true] at member
    exact Or.inl member
  · simp only [dispatch, full, if_false] at member
    by_cases same : idx = slot command.symbolId
    · rw [same, update_self] at member
      rw [same]
      exact (List.mem_append.mp member).imp_right fun new => ⟨List.mem_singleton.mp new, rfl⟩
    · rw [update_of_ne same] at member
      exact Or.inl member

end Dispatcher

/-- An engine with the queue it was constructed with. -/
structure EngineLoop where
  inboundQueue : Nat
  run : ManagerRun

/-- The symbol that the engine was made for. -/
def EngineLoop.symbolId (loop : EngineLoop) : SymbolId := loop.run.manager.symbolId

/-- `Exchange`: the dispatcher and the engines in the order of their registration. -/
structure Exchange where
  dispatcher : Dispatcher
  engines : List EngineLoop

/-- What happens next: a command is dispatched, or an engine loop turns once. -/
inductive ExchangeStep where
  | dispatch (command : OrderCommand)
  | poll (engine : Nat) (env : CommandEnv)

namespace Exchange

/-- `Exchange::add_symbol`. -/
def addSymbol (round : ℚ → ℚ) (exchange : Exchange) (symbolId : SymbolId) : Exchange :=
  { exchange with
    engines := exchange.engines ++ [⟨Dispatcher.slot symbolId, .start symbolId round⟩] }

/-- An exchange with its symbols registered. -/
def new (round : ℚ → ℚ) (symbols : List SymbolId) : Exchange :=
  symbols.foldl (addSymbol round) ⟨⟨fun _ => []⟩, []⟩

/-- One turn of the loop of `EngineManager::run`. -/
def poll (exchange : Exchange) (engine : Nat) (env : CommandEnv) : Except Fault Exchange :=
  match exchange.engines[engine]? with
  | none => .ok exchange
  | some loop =>
    match exchange.dispatcher.queues loop.inboundQueue with
    | [] => .ok exchange
    | command :: rest =>
      match loop.run.step ⟨command, env⟩ with
      | .ok run => .ok
        { dispatcher :=
            ⟨update exchange.dispatcher.queues loop.inboundQueue rest⟩
          engines := exchange.engines.set engine { loop with run } }
      | .error fault => .error fault

/-- One action of a thread. -/
def step (exchange : Exchange) : ExchangeStep → Except Fault Exchange
  | .dispatch command =>
    .ok { exchange with dispatcher := (exchange.dispatcher.dispatch command).2 }
  | .poll engine env => exchange.poll engine env

/-- Commands are processed by the engine registered for their symbol, and matched orders carry the
same symbol. -/
def Isolated (exchange : Exchange) : Prop :=
  ∀ loop ∈ exchange.engines,
    (∀ command ∈ loop.run.processed, command.symbolId = loop.symbolId) ∧
    ∀ entry ∈ loop.run.matched, entry.1.symbolId = entry.2.record.resting.key.symbolId
  deriving Decidable

/-- A dispatched command finds in its queue no engine but one of its own symbol. -/
def RoutesAlone (exchange : Exchange) : ExchangeStep → Prop
  | .dispatch command => ∀ loop ∈ exchange.engines,
    Dispatcher.slot loop.symbolId = Dispatcher.slot command.symbolId →
      loop.symbolId = command.symbolId
  | .poll _ _ => True

instance (exchange : Exchange) (action : ExchangeStep) :
    Decidable (exchange.RoutesAlone action) := by
  cases action <;> dsimp only [RoutesAlone] <;> infer_instance

end Exchange

/-! ## One engine -/

namespace ManagerRun

variable {run next : ManagerRun} {input : ManagerInput}

/-- The symbol of an engine stays. -/
theorem step_symbolId (taken : run.step input = .ok next) :
    next.manager.symbolId = run.manager.symbolId := by
  cases outcome taken <;> rfl

/-- Each command is recorded. -/
theorem step_processed (taken : run.step input = .ok next) :
    next.processed = run.processed ++ [input.command] := by
  cases outcome taken <;> rfl

/-- An order is old or the command's. -/
theorem mem_submitted_of_step (taken : run.step input = .ok next) {order : Order}
    (member : order ∈ next.submitted) : order ∈ run.submitted ∨ order = input.order := by
  cases outcome taken with
  | entered _ _ _ => exact (List.mem_append.mp member).imp_right List.mem_singleton.mp
  | _ => exact Or.inl member

/-- Everything that reached the engine carries its symbol. -/
structure OneSymbol (run : ManagerRun) : Prop where
  invariant : run.Invariant
  processed : ∀ command ∈ run.processed, command.symbolId = run.manager.symbolId
  submitted : ∀ order ∈ run.submitted, order.symbolId = run.manager.symbolId

namespace OneSymbol

/-- A new engine has one symbol. -/
theorem start (symbolId : SymbolId) (round : ℚ → ℚ) : (start symbolId round).OneSymbol where
  invariant := Invariant.start symbolId round
  processed := fun _ member => absurd member List.not_mem_nil
  submitted := fun _ member => absurd member List.not_mem_nil

/-- A command of the engine's symbol brings no other. -/
theorem step (one : run.OneSymbol) (own : input.command.symbolId = run.manager.symbolId)
    (taken : run.step input = .ok next) : next.OneSymbol where
  invariant := one.invariant.step taken
  processed := by
    intro command member
    rw [step_processed taken] at member
    rw [step_symbolId taken]
    rcases List.mem_append.mp member with old | new
    · exact one.processed command old
    · rw [List.mem_singleton.mp new]
      exact own
  submitted := by
    intro order member
    rw [step_symbolId taken]
    rcases mem_submitted_of_step taken member with old | rfl
    · exact one.submitted order old
    · exact own

/-- Matched orders carry the engine's symbol, and so the same one. -/
theorem matched (one : run.OneSymbol) :
    ∀ entry ∈ run.matched, entry.1.symbolId = entry.2.record.resting.key.symbolId := by
  intro entry member
  have taker := one.submitted _ (one.invariant.owned.takers entry member)
  obtain ⟨maker, listed, _, key⟩ := one.invariant.owned.makers entry member
  rw [taker, key]
  exact (one.submitted maker listed).symm

end OneSymbol

end ManagerRun

/-! ## The exchange -/

namespace Exchange

variable {exchange next : Exchange} {action : ExchangeStep}

/-- Every engine reads the queue of its symbol, and finds no other symbol there. -/
structure Routed (exchange : Exchange) : Prop where
  homes : ∀ loop ∈ exchange.engines, loop.inboundQueue = Dispatcher.slot loop.symbolId
  queued : ∀ loop ∈ exchange.engines,
    ∀ command ∈ exchange.dispatcher.queues loop.inboundQueue, command.symbolId = loop.symbolId
  engines : ∀ loop ∈ exchange.engines, loop.run.OneSymbol

namespace Routed

/-- One more symbol. -/
theorem addSymbol (round : ℚ → ℚ) (symbolId : SymbolId) (routed : exchange.Routed)
    (empty : exchange.dispatcher.queues = fun _ => []) :
    (exchange.addSymbol round symbolId).Routed where
  homes := by
    intro loop member
    rcases List.mem_append.mp member with old | new
    · exact routed.homes loop old
    · rw [List.mem_singleton.mp new]
      rfl
  queued := by
    intro loop _ command waiting
    change command ∈ exchange.dispatcher.queues _ at waiting
    rw [empty] at waiting
    cases waiting
  engines := by
    intro loop member
    rcases List.mem_append.mp member with old | new
    · exact routed.engines loop old
    · rw [List.mem_singleton.mp new]
      exact .start symbolId round

/-- A new exchange routes well. -/
theorem new (round : ℚ → ℚ) (symbols : List SymbolId) : (Exchange.new round symbols).Routed := by
  -- Registration leaves the queues empty, whatever has been registered before.
  have registered (exchange : Exchange) (empty : exchange.dispatcher.queues = fun _ => [])
      (routed : exchange.Routed) : (symbols.foldl (Exchange.addSymbol round) exchange).Routed := by
    induction symbols generalizing exchange with
    | nil => exact routed
    | cons symbolId rest ih => exact ih _ empty (routed.addSymbol round symbolId empty)
  apply registered _ rfl
  exact ⟨fun _ member => absurd member List.not_mem_nil,
    fun _ member => absurd member List.not_mem_nil, fun _ member => absurd member List.not_mem_nil⟩

/-- A command that finds no foreign engine may be queued. -/
theorem dispatch {command : OrderCommand} (routed : exchange.Routed)
    (alone : exchange.RoutesAlone (.dispatch command)) :
    Routed { exchange with dispatcher := (exchange.dispatcher.dispatch command).2 } where
  homes := routed.homes
  queued := by
    intro loop member waiting listed
    rcases Dispatcher.mem_dispatch listed with old | ⟨rfl, home⟩
    · exact routed.queued loop member waiting old
    · exact (alone loop member ((routed.homes loop member).symm.trans home)).symm
  engines := routed.engines

/-- A turn of an engine loop takes a command of the engine's symbol, if any. -/
theorem poll {engine : Nat} {env : CommandEnv} (routed : exchange.Routed)
    (taken : exchange.poll engine env = .ok next) : next.Routed := by
  unfold Exchange.poll at taken
  split at taken
  · cases taken
    exact routed
  · rename_i loop found
    have member := List.mem_of_getElem? found
    split at taken
    · cases taken
      exact routed
    · rename_i command rest queue
      have own := routed.queued loop member command (queue ▸ List.mem_cons_self)
      split at taken
      · rename_i run ran
        cases taken
        have symbol : ({ loop with run } : EngineLoop).symbolId = loop.symbolId :=
          ManagerRun.step_symbolId ran
        constructor
        · intro other listed
          rcases List.mem_or_eq_of_mem_set listed with old | rfl
          · exact routed.homes other old
          · rw [symbol]
            exact routed.homes loop member
        · intro other listed waiting inside
          change waiting ∈ update exchange.dispatcher.queues _ _ _ at inside
          have shorter : waiting ∈ exchange.dispatcher.queues other.inboundQueue := by
            by_cases same : other.inboundQueue = loop.inboundQueue
            · rw [same, update_self] at inside
              rw [same, queue]
              exact List.mem_cons_of_mem _ inside
            · rwa [update_of_ne same] at inside
          rcases List.mem_or_eq_of_mem_set listed with old | rfl
          · exact routed.queued other old waiting shorter
          · rw [symbol]
            exact routed.queued loop member waiting shorter
        · intro other listed
          rcases List.mem_or_eq_of_mem_set listed with old | rfl
          · exact routed.engines other old
          · exact (routed.engines loop member).step own ran
      · cases taken

/-- An action keeps it so. -/
theorem step (routed : exchange.Routed) (alone : exchange.RoutesAlone action)
    (taken : exchange.step action = .ok next) : next.Routed := by
  cases action with
  | dispatch command =>
    cases taken
    exact routed.dispatch alone
  | poll engine env => exact routed.poll taken

/-- Routed symbols are isolated. -/
theorem isolated (routed : exchange.Routed) : exchange.Isolated := fun loop member =>
  ⟨(routed.engines loop member).processed, (routed.engines loop member).matched⟩

end Routed

/-- Whatever symbols are registered, in every interleaving of dispatching and polling in which each
dispatched command finds no engine of another symbol at its queue, symbols are isolated in every
state. -/
theorem isolated_of_routesAlone {round : ℚ → ℚ} {symbols : List SymbolId}
    {actions : List ExchangeStep}
    (alone : Along RoutesAlone step (new round symbols) actions) :
    Throughout Isolated step (new round symbols) actions :=
  Throughout.of_guarded (Routed.new round symbols)
    (fun _ _ _ routed here taken => routed.step here taken) (fun _ routed => routed.isolated) alone

/-- A turn of an engine loop while no halt is in force and all clocks stand at zero. -/
def turn (engine : Nat) : ExchangeStep := .poll engine (commandInput default).env

/-- Symbols 1 and 2 trade in turns. -/
theorem isolated_of_routesAlone_turns :
    Throughout Isolated step (new id [1, 2])
      [.dispatch (limitCommand 1 1 .sell 10000000000 1000000),
        .dispatch { limitCommand 2 2 .buy 10000000000 1000000 with symbolId := 2 },
        turn 1, turn 0, .dispatch (limitCommand 3 2 .buy 10000000000 1000000), turn 1, turn 0] :=
  isolated_of_routesAlone (by decide +kernel)

/-- Symbols 1 and 33 share a queue: the engine of symbol 1 takes a command for symbol 33 and matches
it with an order for symbol 1. -/
theorem sharedQueue_mixes_symbols :
    ([1, 33] : List SymbolId).Nodup ∧
      Returns (fun exchange => ¬exchange.Isolated ∧ ∃ loop ∈ exchange.engines,
          loop.symbolId = 1 ∧ loop.run.processed.map OrderCommand.symbolId = [1, 33] ∧
            loop.run.matched.map (fun entry =>
              (entry.1.symbolId, entry.2.record.resting.key.symbolId)) = [(33, 1)])
        (runAll step (new id [1, 33])
          [.dispatch (limitCommand 1 1 .sell 10000000000 1000000),
            .dispatch { limitCommand 2 2 .buy 10000000000 1000000 with symbolId := 33 },
            turn 0, turn 0]) := by
  decide +kernel

end Exchange

end FluxTrade
