import FluxTrade.Exchange.Delivery
import FluxTrade.Persistence.Recovery

/-!
# From the sockets to the disk

The threads that bring commands to the symbol loops, the engines behind these
loops and the writers of their journals, in any interleaving. An engine processes
a popped command before its loop pops the next one. What an engine has processed
is at every moment the first part of what its queue has handed out, and that is a
part of what the gateway has numbered. So no command is executed twice, and of
the conditions under which a journal can be replayed only those remain that speak
of the matching engine: the sequence numbers come out right by themselves.
-/

namespace FluxTrade

open Execution Dispatcher List

/-- The threads of an exchange up to its journals. -/
structure Pipeline where
  inbound : InboundRun
  /-- The engines in the order of their symbols, each with its journal. -/
  engines : List JournaledRun

/-- What happens next. -/
inductive PipelineStep where
  /-- A step between the sockets and the symbol loops. -/
  | inbound (input : InboundStep)
  /-- An engine processes the command that its loop has popped. -/
  | process (engine : Nat) (env : CommandEnv)
  /-- The journal thread of an engine takes an entry. -/
  | write (engine : Nat) (now : UInt64)

namespace Pipeline

section

variable (registered : RegisteredSymbols) (pipeline : Pipeline)

/-- The threads before their first step. -/
def start (round : ℚ → ℚ) (maxFileSize : Nat) : Pipeline :=
  ⟨.start, registered.ids.map fun symbolId => .start symbolId round maxFileSize⟩

/-- What the loop of an engine has popped, the first one first. -/
def popped (engine : Nat) : List OrderCommand :=
  registered.ids[engine]?.elim [] fun symbolId =>
    (pipeline.inbound.queues (slot symbolId)).popped

/-- The command that the loop of an engine has popped and not yet processed. -/
def hand (engine : Nat) : Option OrderCommand :=
  pipeline.engines[engine]?.bind fun state =>
    (pipeline.popped registered engine)[state.run.processed.length]?

/-- The step is a pop of an engine that has a command to process. -/
def busy : InboundStep → Bool
  | .loop engine => (pipeline.hand registered engine).isSome
  | _ => false

/-- One engine or its journal takes a step. -/
def act (engine : Nat) (action : JournaledStep) : Except Fault Pipeline :=
  match pipeline.engines[engine]? with
  | none => .ok pipeline
  | some state => do
    let next ← state.step action
    .ok { pipeline with engines := pipeline.engines.set engine next }

/-- One step of a thread. -/
def step : PipelineStep → Except Fault Pipeline
  | .inbound input =>
    if pipeline.busy registered input then .ok pipeline
    else .ok { pipeline with inbound := pipeline.inbound.next registered input }
  | .process engine env =>
    match pipeline.hand registered engine with
    | none => .ok pipeline
    | some command => pipeline.act engine (.command ⟨command, env⟩)
  | .write engine now => pipeline.act engine (.write now)

/-- Every engine has the property. -/
def Each (property : Nat → JournaledRun → Prop) : Prop :=
  ∀ (engine : Nat) (state : JournaledRun), pipeline.engines[engine]? = some state →
    property engine state

/-- Each engine processes commands in the order in which the gateway handled them, and no command
is processed twice. -/
structure Orderly : Prop where
  ordered : pipeline.Each fun _ state =>
    state.run.processed.Sublist pipeline.inbound.commands
  increasing : pipeline.Each fun _ state =>
    state.run.processed.Pairwise fun early late => early.sequence < late.sequence
  once : (pipeline.engines.flatMap fun state => state.run.processed).Nodup

/-- The sequence numbers have not run out when a command needs one. -/
def Numbers : PipelineStep → Prop
  | .inbound input => pipeline.inbound.Numbers input
  | _ => True

instance (action : PipelineStep) : Decidable (pipeline.Numbers action) := by
  cases action <;> dsimp only [Numbers] <;> infer_instance

/-- An accepted new order is a limit order with a quantity that meets nothing, and an accepted
command finds room in the journal queue. -/
def Passive : PipelineStep → Prop
  | .process engine env => ∀ state ∈ pipeline.engines[engine]?,
    ∀ command ∈ pipeline.hand registered engine, state.run.Accepts ⟨command, env⟩ →
      (command.type = .newOrder → command.orderType = .limit ∧ command.qty ≠ 0 ∧
        ¬(command.toOrder env.exchangeTime).Meets state.run.book) ∧
      state.queue.length < journalCapacity
  | _ => True

instance (action : PipelineStep) : Decidable (pipeline.Passive registered action) := by
  cases action <;> dsimp only [Passive] <;> infer_instance

end

end Pipeline

/-! ## One engine -/

namespace ManagerRun

variable {run next : ManagerRun} {input : ManagerInput}

/-- A command is journalled once or not at all. -/
theorem step_journalQueue (taken : run.step input = .ok next) :
    ∃ entries, next.manager.journalQueue = run.manager.journalQueue ++ entries ∧
      ∀ entry ∈ entries, entry = input.logEntry := by
  have admitted : ∃ entries, (run.admitted input).journalQueue =
      run.manager.journalQueue ++ entries ∧ ∀ entry ∈ entries, entry = input.logEntry := by
    by_cases room : run.manager.journalQueue.length < journalCapacity
    · exact ⟨[input.logEntry], input.journal_of_room room, by simp⟩
    · refine ⟨[], ?_, by simp⟩
      simp only [admitted, EngineManager.journal, MemoryJournal.append, Nat.le_of_not_lt room,
        if_true, ite_self, append_nil]
  cases outcome taken with
  | rejected _ => exact ⟨[], (append_nil _).symm, by simp⟩
  | entered _ _ _ => exact admitted
  | cancelled _ _ _ => exact admitted
  | replaced _ _ => exact admitted

end ManagerRun

namespace JournaledRun

variable {state next : JournaledRun}

/-- Every entry bears the number of a processed command. -/
def Named (state : JournaledRun) : Prop :=
  ∀ entry ∈ state.journalled, ∃ command ∈ state.run.processed,
    command.sequence = entry.header.sequence

/-- A processed command is the last one, and what it adds to the journal bears its number. -/
theorem Named.command {input : ManagerInput} (named : state.Named)
    (taken : state.step (.command input) = .ok next) :
    next.run.processed = state.run.processed ++ [input.command] ∧ next.Named := by
  simp only [step] at taken
  split at taken
  · rename_i run ran
    cases taken
    have processed := ManagerRun.step_processed ran
    obtain ⟨entries, queue, own⟩ := ManagerRun.step_journalQueue ran
    refine ⟨processed, ?_⟩
    intro entry member
    dsimp only at member ⊢
    rw [processed]
    rcases mem_append.mp member with old | new
    · obtain ⟨command, before, same⟩ := named entry old
      exact ⟨command, mem_append_left _ before, same⟩
    · rw [queue, JournaledRun.queue, drop_left] at new
      rw [own entry new]
      exact ⟨input.command, mem_append_right _ mem_cons_self, rfl⟩
  · cases taken

/-- A write takes from the queue of the manager, and adds nothing to the journal. -/
theorem step_write {now : UInt64} (taken : state.step (.write now) = .ok next) :
    ∃ queue, next.run = withQueue state.run queue ∧ next.journalled = state.journalled := by
  simp only [step] at taken
  split at taken
  · cases taken
    exact ⟨state.queue, rfl, rfl⟩
  · cases taken
    exact ⟨_, rfl, rfl⟩

end JournaledRun

/-! ## The way to the engines -/

namespace InboundRun

variable {run next : InboundRun} {registered : RegisteredSymbols} {input : InboundStep}

/-- Nothing that a queue has handed out is taken back, and a command that is received bears a number
other than zero. -/
structure Extends (run next : InboundRun) : Prop where
  popped : ∀ idx, (run.queues idx).popped <+: (next.queues idx).popped
  received : ∀ command ∈ next.received, command ∈ run.received ∨ 0 < command.sequence

/-- Queues that did not move. -/
theorem Extends.of_same (queues : ∀ idx, (next.queues idx).popped = (run.queues idx).popped)
    (received : next.received = run.received) : run.Extends next :=
  ⟨fun idx => (queues idx).symm ▸ prefix_rfl, fun _ member => Or.inl (received ▸ member)⟩

namespace Invariant

/-- What a queue has handed out belongs there, and comes in the order of the packets handled. -/
theorem popped_sublist (invariant : run.Invariant) (idx : Nat) :
    (run.queues idx).popped.Sublist (run.commands.filter (belongs idx)) := by
  obtain ⟨sent, shares, sifted⟩ := invariant.dispatched idx
  have first : (run.queues idx).popped.Sublist sent := by
    refine List.Sublist.trans ?_ sifted.sublist
    rw [(invariant.queues idx).accepted_eq]
    exact sublist_append_left _ _
  have second : sent.Sublist (run.inbound.popped.filter (belongs idx)) := by
    rw [shares]
    exact sublist_append_left _ _
  refine first.trans (second.trans (List.Sublist.filter _ ?_))
  refine List.Sublist.trans ?_ invariant.pushed.sublist
  rw [invariant.inbound.accepted_eq]
  exact sublist_append_left _ _

/-- A step only extends what was popped. -/
theorem next_extends (invariant : run.Invariant) (numbers : run.Numbers input) :
    run.Extends (run.next registered input) := by
  cases input with
  | connect | disconnect => exact .of_same (fun _ => rfl) rfl
  | packet connId header memory env =>
    change run.Extends (run.receive connId header memory env)
    cases arriving : run.arriving with
    | some packet =>
      simp only [InboundRun.receive, arriving]
      exact .of_same (fun _ => rfl) rfl
    | none =>
      cases kind : run.gateway.takesOrder connId header with
      | false =>
        obtain ⟨gateway, packet, _, _, _, empty, received⟩ :=
          receive_other arriving invariant.blank kind memory env
        rw [received]
        exact .of_same (fun _ => rfl) (by simp [InboundRun.received, empty, arriving])
      | true =>
        obtain ⟨packet, pushed, _, _, only, numbered, received⟩ :=
          receive_order arriving invariant.blank kind memory env
        rw [received]
        refine ⟨fun _ => prefix_rfl, fun command member => ?_⟩
        simp only [InboundRun.received, Option.toList_some, flatMap_append,
          flatMap_singleton, only, mem_append, mem_singleton] at member
        rcases member with old | rfl
        · exact Or.inl (by simpa [InboundRun.received, arriving] using old)
        · rw [numbered]
          exact Or.inr (UInt64.pos_iff_ne_zero.mpr (numbers kind))
  | push =>
    change run.Extends run.push
    unfold InboundRun.push
    split
    · exact .of_same (fun _ => rfl) rfl
    · rename_i packet arriving
      dsimp only
      split
      · exact .of_same (fun _ => rfl) (by simp [InboundRun.received, arriving])
      · exact .of_same (fun _ => rfl) rfl
  | poll =>
    change run.Extends run.poll
    cases held : run.hand with
    | none =>
      simp only [InboundRun.poll, held]
      exact .of_same (fun _ => rfl) rfl
    | some command =>
      have same (idx : Nat) : (Function.update run.queues (slot command.symbolId)
          ((run.home command).push capacity command) idx).popped = (run.queues idx).popped := by
        by_cases own : idx = slot command.symbolId
        · rw [own, Function.update_self]
          exact (invariant.dispatch_pushed held).2
        · rw [Function.update_of_ne own]
      rw [poll_held held]
      split
      · exact .of_same same rfl
      · exact .of_same same rfl
  | loop engine =>
    change run.Extends (run.loop registered engine)
    unfold InboundRun.loop
    split
    · exact .of_same (fun _ => rfl) rfl
    · rename_i symbolId _
      refine ⟨fun idx => ?_, fun _ member => Or.inl member⟩
      dsimp only
      by_cases own : idx = slot symbolId
      · rw [own, Function.update_self]
        obtain ⟨_, _, _, same | ⟨value, more⟩⟩ := QueueRun.consume_popped capacity
          (run.queues (slot symbolId))
        · rw [same]
        · rw [more]
          exact prefix_append _ _
      · rw [Function.update_of_ne own]

end Invariant

end InboundRun

namespace Pipeline

variable {registered : RegisteredSymbols} {pipeline next : Pipeline} {engine : Nat}
variable {property : Nat → JournaledRun → Prop} {state : JournaledRun} {round : ℚ → ℚ}
  {maxFileSize : Nat} {action : PipelineStep} {command : OrderCommand} {actions : List PipelineStep}

/-- What an engine's queue handed out. -/
theorem popped_of_getElem {symbolId : SymbolId} (found : registered.ids[engine]? = some symbolId) :
    pipeline.popped registered engine =
      (pipeline.inbound.queues (slot symbolId)).popped := by
  rw [popped, found]
  rfl

/-- What holds of every engine still does when one of them has moved on. -/
theorem Each.set (each : pipeline.Each property) (moved : property engine state) :
    Each { pipeline with engines := pipeline.engines.set engine state } property := by
  intro other state' found
  rw [List.getElem?_set] at found
  split at found
  · rename_i same
    split at found
    · cases found
      exact same ▸ moved
    · cases found
  · exact each other state' found

/-- What holds of new engines holds of every engine at the start. -/
theorem Each.start (new : ∀ engine symbolId, registered.ids[engine]? = some symbolId →
      property engine (.start symbolId round maxFileSize)) :
    (start registered round maxFileSize).Each property := by
  intro engine state found
  change (registered.ids.map _)[engine]? = some state at found
  rw [List.getElem?_map] at found
  obtain ⟨symbolId, listed, rfl⟩ := Option.map_eq_some_iff.mp found
  exact new engine symbolId listed

/-- The engines go through what their queues hand out, and the journals go with the engines. -/
structure Flow (registered : RegisteredSymbols) (pipeline : Pipeline) : Prop where
  inbound : pipeline.inbound.Invariant
  numbered : ∀ command ∈ pipeline.inbound.received, 0 < command.sequence
  processed : pipeline.Each fun engine state =>
    state.run.processed <+: pipeline.popped registered engine
  named : pipeline.Each fun _ state => state.Named

namespace Flow

/-- An empty exchange flows. -/
theorem start (round : ℚ → ℚ) (maxFileSize : Nat) :
    Flow registered (start registered round maxFileSize) where
  inbound := .start
  numbered := fun _ member => absurd member not_mem_nil
  processed := .start fun _ _ _ => nil_prefix
  named := .start fun _ _ _ _ journalled => absurd journalled not_mem_nil

variable (flow : Flow registered pipeline)
include flow

/-- A step between the sockets and the symbol loops. -/
theorem inboundStep {input : InboundStep} (numbers : pipeline.inbound.Numbers input) :
    Flow registered { pipeline with inbound := pipeline.inbound.next registered input } where
  inbound := flow.inbound.next registered numbers
  numbered := fun command member =>
    ((flow.inbound.next_extends numbers).received command member).elim (flow.numbered command) id
  processed := by
    intro engine state found
    refine (flow.processed engine state found).trans ?_
    unfold popped
    cases registered.ids[engine]? with
    | none => exact prefix_rfl
    | some symbolId => exact (flow.inbound.next_extends numbers).popped _
  named := flow.named

/-- One engine has moved on. -/
theorem set {state : JournaledRun}
    (processed : state.run.processed <+: pipeline.popped registered engine) (named : state.Named) :
    Flow registered { pipeline with engines := pipeline.engines.set engine state } where
  inbound := flow.inbound
  numbered := flow.numbered
  processed := flow.processed.set processed
  named := flow.named.set named

/-- What the loop of an engine pops comes in the order in which the gateway handled it. -/
theorem popped_sublist (engine : Nat) :
    (pipeline.popped registered engine).Sublist pipeline.inbound.commands := by
  unfold popped
  cases registered.ids[engine]? with
  | none => exact nil_sublist _
  | some symbolId => exact (flow.inbound.popped_sublist _).trans filter_sublist

/-- Popped numbers go up. -/
theorem increasing (engine : Nat) :
    (pipeline.popped registered engine).Pairwise
      fun early late => early.sequence < late.sequence := by
  have received := flow.inbound.increasing
  rw [InboundRun.received, flatMap_append, pairwise_append] at received
  exact received.1.sublist (flow.popped_sublist engine)

/-- The command in the hand of an engine follows what the engine has processed. -/
theorem hand_follows {state : JournaledRun} {command : OrderCommand}
    (found : pipeline.engines[engine]? = some state)
    (held : pipeline.hand registered engine = some command) :
    state.run.processed ++ [command] <+: pipeline.popped registered engine := by
  obtain ⟨behind, whole⟩ := flow.processed engine state found
  rw [hand, found, Option.bind_some, ← whole, List.getElem?_append_right (Nat.le_refl _),
    Nat.sub_self] at held
  cases behind with
  | nil => cases held
  | cons head rest =>
    cases held
    exact ⟨rest, by rw [← whole, append_assoc]; rfl⟩

end Flow

/-- An engine acts alone or not at all. -/
theorem act_cases {action : JournaledStep} (taken : pipeline.act engine action = .ok next) :
    next = pipeline ∨ ∃ state moved, pipeline.engines[engine]? = some state ∧
      state.step action = .ok moved ∧
      next = { pipeline with engines := pipeline.engines.set engine moved } := by
  unfold act at taken
  split at taken
  · cases taken
    exact Or.inl rfl
  · rename_i state found
    obtain ⟨moved, stepped, same⟩ := bind_eq_ok taken
    cases same
    exact Or.inr ⟨state, moved, found, stepped, rfl⟩

/-- What one step of a thread can do. -/
inductive Moves (registered : RegisteredSymbols) (pipeline : Pipeline) :
    PipelineStep → Pipeline → Prop where
  | stays (action : PipelineStep) : Moves registered pipeline action pipeline
  | inbound (input : InboundStep) : Moves registered pipeline (.inbound input)
      { pipeline with inbound := pipeline.inbound.next registered input }
  | processes {engine : Nat} {env : CommandEnv} {state moved : JournaledRun}
      {command : OrderCommand} (found : pipeline.engines[engine]? = some state)
      (held : pipeline.hand registered engine = some command)
      (stepped : state.step (.command ⟨command, env⟩) = .ok moved) :
      Moves registered pipeline (.process engine env)
        { pipeline with engines := pipeline.engines.set engine moved }
  | writes {engine : Nat} {now : UInt64} {state moved : JournaledRun}
      (found : pipeline.engines[engine]? = some state)
      (stepped : state.step (.write now) = .ok moved) :
      Moves registered pipeline (.write engine now)
        { pipeline with engines := pipeline.engines.set engine moved }

/-- What a step can do. -/
theorem moves (taken : pipeline.step registered action = .ok next) :
    Moves registered pipeline action next := by
  cases action with
  | inbound input =>
    simp only [step] at taken
    split at taken
    · cases taken
      exact .stays _
    · cases taken
      exact .inbound input
  | process engine env =>
    simp only [step] at taken
    split at taken
    · cases taken
      exact .stays _
    · rename_i command held
      rcases act_cases taken with rfl | ⟨state, moved, found, stepped, rfl⟩
      · exact .stays _
      · exact .processes found held stepped
  | write engine now =>
    rcases act_cases taken with rfl | ⟨state, moved, found, stepped, rfl⟩
    · exact .stays _
    · exact .writes found stepped

/-- A step keeps the flow. -/
theorem Flow.step (flow : Flow registered pipeline) (numbers : pipeline.Numbers action)
    (taken : pipeline.step registered action = .ok next) :
    Flow registered next := by
  cases moves taken with
  | stays => exact flow
  | inbound input => exact flow.inboundStep numbers
  | processes found held stepped =>
    obtain ⟨processed, named⟩ := (flow.named _ _ found).command stepped
    refine flow.set ?_ named
    rw [processed]
    exact flow.hand_follows found held
  | writes found stepped =>
    obtain ⟨queue, run, journalled⟩ := JournaledRun.step_write stepped
    refine flow.set ?_ ?_
    · rw [run]
      exact flow.processed _ _ found
    · unfold JournaledRun.Named
      rw [run, journalled]
      exact flow.named _ _ found

/-! ## No command twice -/

/-- A command is processed at the queue of its symbol. -/
theorem Flow.home (flow : Flow registered pipeline) (found : pipeline.engines[engine]? = some state)
    (member : command ∈ state.run.processed) :
    (registered.ids.map slot)[engine]? = some (slot command.symbolId) := by
  have handed := (flow.processed engine state found).subset member
  cases shape : registered.ids[engine]? with
  | none =>
    rw [popped, shape] at handed
    cases handed
  | some symbolId =>
    rw [popped_of_getElem shape] at handed
    have belongs := (mem_filter.mp ((flow.inbound.popped_sublist _).subset handed)).2
    rw [List.getElem?_map, shape, of_decide_eq_true belongs]
    rfl

/-- The flow is orderly. -/
theorem Flow.orderly (flow : Flow registered pipeline) : pipeline.Orderly := by
  have increasing : pipeline.Each fun _ state =>
      state.run.processed.Pairwise fun early late => early.sequence < late.sequence :=
    fun engine state found =>
      (flow.increasing engine).sublist (flow.processed engine state found).sublist
  refine ⟨?_, increasing, ?_⟩
  · exact fun engine state found =>
      (flow.processed engine state found).sublist.trans (flow.popped_sublist engine)
  · rw [nodup_flatMap]
    constructor
    · intro state member
      obtain ⟨engine, found⟩ := mem_iff_getElem?.mp member
      refine (increasing engine state found).imp ?_
      rintro early _ before rfl
      exact absurd before (UInt64.lt_irrefl _)
    · rw [pairwise_iff_getElem]
      intro i j _ _ before command first second
      -- The two engines would read the same queue.
      have one := flow.home (List.getElem?_eq_getElem _) first
      have other := flow.home (List.getElem?_eq_getElem _) second
      obtain ⟨inside, _⟩ := List.getElem?_eq_some_iff.mp one
      have same := (List.getElem?_inj inside registered.apart).mp (one.trans other.symm)
      exact absurd same (Nat.ne_of_lt before)

/-- In every interleaving in which the sequence numbers do not run out, every engine processes
commands in the order in which the gateway handled them, and no command is processed twice. -/
theorem processed_once
    (numbers : Along Numbers (step registered) (start registered round maxFileSize) actions) :
    Throughout Orderly (step registered) (start registered round maxFileSize) actions :=
  Throughout.of_guarded (Flow.start round maxFileSize)
    (fun _ _ _ flow here taken => flow.step here taken) (fun _ flow => flow.orderly) numbers

/-- A bid of connection 1. -/
def bidPacket (symbolId : SymbolId) : InboundStep :=
  .packet 1 InboundRun.orderHeader ((Packet.image NewOrderBody.image).encode
    ⟨InboundRun.orderHeader, ⟨1, symbolId, 6, 10000000000, 1000000, 0, 0, 1, .replicate 5 0⟩⟩)
    ⟨0, 0, [], 0⟩

/-- Symbols 1 and 2. -/
def twoSymbols : RegisteredSymbols := ⟨[1, 2], by decide⟩

/-- Bids for two symbols reach their engines and their journals. -/
def twoBids : List PipelineStep :=
  ([.connect 1, InboundRun.loginPacket, bidPacket 1, .push, .push, .push, bidPacket 2] ++
    replicate 8 .poll ++ [.loop 0, .push, .loop 0, .push, .push, .loop 0, .loop 0] ++
    replicate 8 .poll ++ replicate 4 (.loop 1) : List InboundStep).map .inbound ++
  [.process 1 (commandInput default).env, .process 0 (commandInput default).env, .write 0 0,
    .write 1 0]

/-- A bid for each of two symbols. -/
theorem processed_once_bids :
    Throughout Orderly (step twoSymbols) (start twoSymbols id 1000) twoBids :=
  processed_once (by decide +kernel)

/-- No push was refused, and nothing is on its way or about to be processed. -/
def Drained (registered : RegisteredSymbols) (pipeline : Pipeline) : Prop :=
  pipeline.inbound.inbound.refused = [] ∧ pipeline.inbound.inbound.waiting = [] ∧
    pipeline.inbound.hand = none ∧
    (∀ idx < numSymbols, (pipeline.inbound.queues idx).refused = [] ∧
      (pipeline.inbound.queues idx).waiting = []) ∧
    ∀ engine < pipeline.engines.length, pipeline.hand registered engine = none

instance : Decidable (Drained registered pipeline) := inferInstanceAs (Decidable (_ ∧ _))

/-- Each engine has processed all commands of its queue that the gateway has handled, in order. -/
def Complete (registered : RegisteredSymbols) (pipeline : Pipeline) : Prop :=
  pipeline.Each fun engine state => ∀ symbolId, registered.ids[engine]? = some symbolId →
    state.run.processed =
      pipeline.inbound.commands.filter (InboundRun.belongs (slot symbolId))

/-- A drained flow is complete. -/
theorem Flow.complete (flow : Flow registered pipeline) (drained : Drained registered pipeline) :
    Complete registered pipeline := by
  intro engine state found symbolId listed
  obtain ⟨kept, arrived, dispatched, queues, engines⟩ := drained
  obtain ⟨sent, shares, sifted⟩ := flow.inbound.dispatched (slot symbolId)
  obtain ⟨queued, taken⟩ := queues (slot symbolId) (Nat.mod_lt _ (by decide))
  have first := flow.inbound.inbound.accepted_eq
  rw [arrived, append_nil, flow.inbound.pushed.eq_of_nil kept] at first
  have second := (flow.inbound.queues (slot symbolId)).accepted_eq
  rw [taken, append_nil, sifted.eq_of_nil queued] at second
  rw [← first, dispatched, Option.toList_none, filter_nil, append_nil, second,
    ← popped_of_getElem listed] at shares
  obtain ⟨behind, whole⟩ := flow.processed engine state found
  have idle := engines engine (List.getElem?_eq_some_iff.mp found).1
  rw [hand, found, Option.bind_some, ← whole, List.getElem?_append_right (Nat.le_refl _),
    Nat.sub_self, ← head?_eq_getElem?, head?_eq_none_iff] at idle
  rw [shares, ← whole, idle, append_nil]

/-- In every interleaving in which the sequence numbers do not run out, whenever everything is
drained and no push was refused, every command handled has been processed by its engine. -/
theorem drained_complete
    (numbers : Along Numbers (step registered) (start registered round maxFileSize) actions) :
    Throughout (fun pipeline => Drained registered pipeline → Complete registered pipeline)
      (step registered) (start registered round maxFileSize) actions :=
  Throughout.of_guarded (Flow.start round maxFileSize)
    (fun _ _ _ flow here taken => flow.step here taken) (fun _ flow => flow.complete) numbers

/-- Both bids have drained, rest and are written. -/
theorem twoBids_run :
    ∃ pipeline, runAll (step twoSymbols) (start twoSymbols id 1000) twoBids = .ok pipeline ∧
      Drained twoSymbols pipeline ∧ pipeline.engines.map (fun state =>
        ((restingBoth state.run.book.levelsOf).length, state.queue)) = [(1, []), (1, [])] := by
  have returns : Returns (fun pipeline => Drained twoSymbols pipeline ∧ pipeline.engines.map
      (fun state => ((restingBoth state.run.book.levelsOf).length, state.queue)) =
        [(1, []), (1, [])]) (runAll (step twoSymbols) (start twoSymbols id 1000) twoBids) := by
    decide +kernel
  exact returns.exists

/-- Both bids are processed. -/
theorem drained_complete_bids :
    ∃ pipeline, runAll (step twoSymbols) (start twoSymbols id 1000) twoBids = .ok pipeline ∧
      Drained twoSymbols pipeline ∧ Complete twoSymbols pipeline := by
  obtain ⟨pipeline, ran, drained, _⟩ := twoBids_run
  exact ⟨pipeline, ran, drained, (drained_complete (by decide +kernel)).final ran drained⟩

/-! ## Recovery -/

/-- The conditions on the sequence number of a replayable command hold by themselves. -/
theorem Flow.replayable (flow : Flow registered pipeline) {env : CommandEnv}
    (found : pipeline.engines[engine]? = some state)
    (held : pipeline.hand registered engine = some command)
    (passive : pipeline.Passive registered (.process engine env)) :
    state.Replayable (.command ⟨command, env⟩) := by
  intro accepts
  obtain ⟨idle, room⟩ := passive state found command held accepts
  have follows := flow.hand_follows found held
  refine ⟨idle, ?_, ?_, room⟩
  · have handled := (flow.popped_sublist engine).subset
      (follows.subset (mem_append_right _ mem_cons_self))
    refine flow.numbered command ?_
    rw [InboundRun.received, flatMap_append]
    exact mem_append_left _ handled
  · intro entry journalled
    obtain ⟨earlier, before, same⟩ := flow.named engine state found entry journalled
    have ordered := (flow.increasing engine).sublist follows.sublist
    rw [← same]
    exact (pairwise_append.mp ordered).2.2 earlier before command mem_cons_self

/-- In every interleaving of all threads in which the sequence numbers do not run out and accepted
orders rest, the journal of every engine yields its live book, whenever it has been written. -/
theorem every_journal_recovers
    (numbers : Along Numbers (step registered) (start registered round maxFileSize) actions)
    (passive : Along (Passive registered) (step registered)
      (start registered round maxFileSize) actions) :
    Throughout (fun pipeline => pipeline.Each fun _ state => state.Recovers) (step registered)
      (start registered round maxFileSize) actions := by
  refine Throughout.of_guarded
    (motive := fun pipeline => Flow registered pipeline ∧ pipeline.Each fun _ state => state.Logged)
    ⟨.start round maxFileSize, .start fun _ symbolId _ => .start symbolId round maxFileSize⟩ ?_
    (fun _ kept engine state found => (kept.2 engine state found).recovers) (numbers.and passive)
  rintro pipeline action next ⟨flow, logged⟩ ⟨left, quiet⟩ taken
  refine ⟨flow.step left taken, ?_⟩
  cases moves taken with
  | stays => exact logged
  | inbound input => exact logged
  | processes found held stepped =>
    exact logged.set ((logged _ _ found).command (flow.replayable found held quiet) stepped)
  | writes found stepped => exact logged.set ((logged _ _ found).write stepped)

/-- Both bids are recovered. -/
theorem every_journal_recovers_bids :
    ∃ pipeline, runAll (step twoSymbols) (start twoSymbols id 1000) twoBids = .ok pipeline ∧
      pipeline.engines.map (fun state =>
        ((restingBoth state.run.book.levelsOf).length, state.queue)) = [(1, []), (1, [])] ∧
      pipeline.Each fun _ state => state.Recovers := by
  obtain ⟨pipeline, ran, _, written⟩ := twoBids_run
  exact ⟨pipeline, ran, written,
    (every_journal_recovers (by decide +kernel) (by decide +kernel)).final ran⟩

end Pipeline

end FluxTrade
