import FluxTrade.Exchange.Inbound

/-!
# Commands that reach their engine

Every step of the gateway, the poller and the symbol loops keeps what the threads
know of each other, and a push is refused exactly if it finds its queue full. So
commands are dropped silently as soon as one of the queues fills up, and only then.
-/

namespace FluxTrade

open Execution Trace Words Function QueueRun Dispatcher PushStage List

namespace InboundRun

variable {run : InboundRun}

namespace Invariant

variable {connId : ConnId} {header : MessageHeader} {gateway : Gateway} {packet : PacketHandled}
  {command : OrderCommand}

/-! ## One step -/

/-- A packet that is no order frame pushes nothing. -/
theorem receive_other (none : run.arriving = none) (blank : run.gateway.inbound = [])
    (notOrder : run.gateway.takesOrder connId header = false) (memory : List UInt8)
    (env : PacketEnv) : ∃ gateway packet,
      gateway.inbound = [] ∧ gateway.nextSequence = run.gateway.nextSequence ∧
      packet.isOrder = false ∧ packet.commands = [] ∧
      run.receive connId header memory env =
        { run with gateway, handled := run.handled ++ [packet] } := by
  have outcome : PacketOutcome run.gateway (run.gateway.handlePacket connId header memory env)
      false := notOrder ▸ Gateway.handlePacket_outcome memory env
  obtain _ | ⟨inbound, nextSequence⟩ := outcome
  rw [blank] at inbound
  refine ⟨run.gateway.handlePacket connId header memory env,
    ⟨connId, false, [], (run.gateway.handlePacket connId header memory env).sent.drop
      run.gateway.sent.length⟩, inbound, nextSequence, rfl, rfl, ?_⟩
  simp only [InboundRun.receive, none, inbound, notOrder, head?_nil, Option.elim_none]

/-- An order frame begins the push of its command and is not answered. -/
theorem receive_order (none : run.arriving = none) (blank : run.gateway.inbound = [])
    (isOrder : run.gateway.takesOrder connId header = true) (memory : List UInt8) (env : PacketEnv)
    : ∃ packet command,
      packet.isOrder = true ∧ packet.answers = [] ∧ packet.commands = [command] ∧
      command.sequence = run.gateway.nextSequence ∧
      run.receive connId header memory env =
        { run with
          gateway := run.gateway.advance
          arriving := some packet
          inbound := run.inbound.push capacity command } := by
  have outcome : PacketOutcome run.gateway (run.gateway.handlePacket connId header memory env)
      true := isOrder ▸ Gateway.handlePacket_outcome memory env
  obtain ⟨command, numbered, pushed⟩ | _ := outcome
  have handled : run.gateway.advance.pushCommand command =
      { run.gateway.advance with inbound := [command] } := by
    simp [Gateway.pushCommand, Gateway.advance, blank]
  rw [handled] at pushed
  refine ⟨⟨connId, true, [command], []⟩, command, rfl, rfl, rfl, numbered, ?_⟩
  simp only [InboundRun.receive, none, pushed, isOrder]
  simp [Gateway.advance, blank]

section

variable (invariant : run.Invariant)
include invariant

/-- Without an arriving packet no push is under way. -/
theorem idle_of_none (none : run.arriving = none) :
    run.inbound.pushing = .idle := by
  have stage := invariant.arriving
  rw [none, Option.map_none, eq_comm, Option.map_eq_none_iff] at stage
  exact eq_idle stage

/-- A packet that is not an order frame is handled at once. -/
theorem other (inbound : gateway.inbound = [])
    (nextSequence : gateway.nextSequence = run.gateway.nextSequence) (none : run.arriving = none)
    (plain : Plain packet) (empty : packet.commands = []) :
    Invariant { run with gateway, handled := run.handled ++ [packet] } := by
  have commands : commands { run with gateway, handled := run.handled ++ [packet] } =
      run.commands := by
    simp [InboundRun.commands, empty]
  have received : received { run with gateway, handled := run.handled ++ [packet] } =
      run.received := by
    simp [InboundRun.received, empty, none]
  refine ⟨invariant.inbound, invariant.queues, inbound, invariant.arriving, invariant.dispatching,
    ?_, ?_, invariant.dispatched, ?_, ?_⟩
  · intro candidate member
    simp only [none, Option.toList_none, append_nil, mem_append,
      mem_singleton] at member
    rcases member with old | rfl
    · exact invariant.plain candidate (mem_append_left _ old)
    · exact plain
  · rw [commands]
    exact invariant.pushed
  · rw [received]
    exact invariant.increasing
  · rw [received]
    change ∀ command ∈ run.received, _ < gateway.nextSequence ∨ gateway.nextSequence = 0
    rw [nextSequence]
    exact invariant.numbered

/-- The push of an order frame begins. -/
theorem begin (inbound : gateway.inbound = [])
    (nextSequence : gateway.nextSequence = run.gateway.nextSequence + 1)
    (left : run.gateway.nextSequence ≠ 0) (none : run.arriving = none) (plain : Plain packet)
    (only : packet.commands = [command]) (numbered : command.sequence = run.gateway.nextSequence) :
    Invariant
      { run with
        gateway
        arriving := some packet
        inbound := run.inbound.push capacity command } := by
  have idle := invariant.idle_of_none none
  obtain ⟨stage, accepted, refused, popped⟩ :=
    push_begins capacity idle command
  have received : received
      { run with
        gateway
        arriving := some packet
        inbound := run.inbound.push capacity command } = run.received ++ [command] := by
    simp [InboundRun.received, none, only]
  have before (early : OrderCommand) (member : early ∈ run.received) :
      early.sequence < run.gateway.nextSequence :=
    (invariant.numbered early member).resolve_right left
  refine ⟨invariant.inbound.push powerOfTwo_capacity _, invariant.queues, inbound,
    ?_, invariant.dispatching, ?_, ?_, ?_, ?_, ?_⟩
  · simp only [stage, value?, Option.map_some, only]
  · intro candidate member
    rcases mem_append.mp member with old | new
    · exact invariant.plain candidate (mem_append_left _ old)
    · rw [mem_singleton.mp new]
      exact plain
  · change Sifted run.commands (run.inbound.push capacity command).accepted
      (run.inbound.push capacity command).refused
    rw [accepted, refused]
    exact invariant.pushed
  · change ∀ idx, ∃ sent, (run.inbound.push capacity command).popped.filter _ = _ ∧ _
    rw [popped]
    exact invariant.dispatched
  · rw [received, pairwise_append]
    refine ⟨invariant.increasing, pairwise_singleton _ _, ?_⟩
    intro early member late isLast
    rw [mem_singleton.mp isLast, numbered]
    exact before early member
  · rw [received]
    change ∀ earlier ∈ run.received ++ [command],
      earlier.sequence < gateway.nextSequence ∨ gateway.nextSequence = 0
    rw [nextSequence]
    by_cases wraps : run.gateway.nextSequence + 1 = 0
    · exact fun _ _ => .inr wraps
    · have larger := lt_add_one wraps
      intro earlier member
      rcases mem_append.mp member with old | new
      · exact .inl (UInt64.lt_trans (before earlier old) larger)
      · rw [mem_singleton.mp new, numbered]
        exact .inl larger

/-- A packet keeps the invariant. -/
theorem receive (left : run.gateway.takesOrder connId header = true → run.gateway.nextSequence ≠ 0)
    (memory : List UInt8) (env : PacketEnv) :
    (run.receive connId header memory env).Invariant := by
  cases arriving : run.arriving with
  | some packet =>
    simp only [InboundRun.receive, arriving]
    exact invariant
  | none =>
    cases kind : run.gateway.takesOrder connId header with
    | false =>
      obtain ⟨gateway, packet, inbound, nextSequence, notOrder, empty, received⟩ :=
        receive_other arriving invariant.blank kind memory env
      rw [received]
      refine invariant.other inbound nextSequence arriving ⟨?_, fun _ => empty⟩ empty
      intro isOrder
      rw [notOrder] at isOrder
      cases isOrder
    | true =>
      obtain ⟨packet, command, isOrder, unanswered, only, numbered, received⟩ :=
        receive_order arriving invariant.blank kind memory env
      rw [received]
      refine invariant.begin invariant.blank rfl (left kind) arriving
        ⟨fun _ => ⟨unanswered, command, only⟩, ?_⟩ only numbered
      intro notOrder
      rw [isOrder] at notOrder
      cases notOrder

/-- The packet under way with its one command. -/
theorem arriving_command (arriving : run.arriving = some packet) :
    ∃ command,
      packet.commands = [command] ∧ run.inbound.pushing.value? = some command := by
  have stage := invariant.arriving
  rw [arriving, Option.map_some] at stage
  obtain ⟨command, busy, only⟩ := Option.map_eq_some_iff.mp stage.symm
  exact ⟨command, only.symm, busy⟩

end

/-- The push returns, and the packet is handled. -/
theorem returned {inbound : QueueRun OrderCommand 1} (invariant : run.Invariant)
    (arriving : run.arriving = some packet) (fifo : Fifo capacity 0 inbound)
    (idle : inbound.pushing = .idle) (popped : inbound.popped = run.inbound.popped)
    (sifted : Sifted (run.commands ++ packet.commands) inbound.accepted inbound.refused) :
    Invariant { run with inbound, arriving := none, handled := run.handled ++ [packet] } := by
  have received : received
      { run with inbound, arriving := none, handled := run.handled ++ [packet] } =
        run.received := by
    simp [InboundRun.received, arriving]
  refine ⟨fifo, invariant.queues, invariant.blank, ?_, invariant.dispatching, ?_, ?_, ?_, ?_, ?_⟩
  · simp only [idle]
    rfl
  · intro candidate member
    apply invariant.plain
    simpa [arriving] using member
  · simpa [InboundRun.commands] using sifted
  · simp only [popped]
    exact invariant.dispatched
  · rw [received]
    exact invariant.increasing
  · rw [received]
    exact invariant.numbered

/-- A step of the push keeps it. -/
theorem push (invariant : run.Invariant) : run.push.Invariant := by
  unfold InboundRun.push
  cases arriving : run.arriving with
  | none => exact invariant
  | some packet =>
    obtain ⟨command, only, busy⟩ := invariant.arriving_command arriving
    obtain ⟨outcome, popped⟩ := push_pushed capacity busy default
    have fifo : Fifo capacity 0 (run.inbound.push capacity default) :=
      invariant.inbound.push powerOfTwo_capacity _
    dsimp only
    generalize run.inbound.push capacity default = inbound at outcome popped fifo ⊢
    cases outcome with
    | working stage accepted refused =>
      simp only [stage]
      rw [← arriving]
      refine ⟨fifo, invariant.queues, invariant.blank, ?_, invariant.dispatching,
        invariant.plain, ?_, ?_, invariant.increasing, invariant.numbered⟩
      · simp only [stage, arriving, Option.map_some, only]
      · simp only [accepted, refused]
        exact invariant.pushed
      · simp only [popped]
        exact invariant.dispatched
    | accepted idle accepted refused =>
      simp only [idle, value?]
      apply invariant.returned arriving fifo idle popped
      rw [only, accepted, refused]
      exact invariant.pushed.keep command
    | refused idle accepted refused =>
      simp only [idle, value?]
      apply invariant.returned arriving fifo idle popped
      rw [only, accepted, refused]
      exact invariant.pushed.drop command

/-- With an empty hand no dispatch is under way. -/
theorem undispatched (invariant : run.Invariant) (empty : run.hand = none) (idx : Nat)
    (command : OrderCommand) : (run.queues idx).pushing.value? ≠ some command := by
  intro busy
  obtain ⟨held, _⟩ := invariant.dispatching idx command busy
  rw [empty] at held
  cases held

/-- The poller pops. -/
theorem pop (invariant : run.Invariant) (empty : run.hand = none) : run.poll.Invariant := by
  obtain ⟨pushes, accepted, refused, popped⟩ := consume_popped capacity run.inbound
  have fifo : Fifo capacity 0 (run.inbound.consume capacity) := invariant.inbound.consume
  simp only [InboundRun.poll, empty]
  generalize run.inbound.consume capacity = inbound at pushes accepted refused popped fifo ⊢
  refine ⟨fifo, invariant.queues, invariant.blank, ?_, ?_, invariant.plain, ?_, ?_,
    invariant.increasing, invariant.numbered⟩
  · simp only [pushes]
    exact invariant.arriving
  · exact fun idx command busy => absurd busy (invariant.undispatched empty idx command)
  · simp only [accepted, refused]
    exact invariant.pushed
  · intro idx
    obtain ⟨sent, shares, sifted⟩ := invariant.dispatched idx
    rw [empty, Option.toList_none, filter_nil, append_nil] at shares
    refine ⟨sent, ?_, sifted⟩
    rcases popped with same | ⟨value, more⟩
    · simp [same, shares]
    · simp [more, shares]

/-- The poll of a command in hand. -/
theorem poll_held (held : run.hand = some command) : run.poll =
    match ((run.home command).push capacity command).pushing.value? with
    | none =>
      { run with
        queues := update run.queues (slot command.symbolId)
          ((run.home command).push capacity command)
        hand := none }
    | some _ =>
      { run with
        queues := update run.queues (slot command.symbolId)
          ((run.home command).push capacity command) } := by
  simp only [InboundRun.poll, held]
  rfl

/-- The queue of the command in the poller's hand takes a step. -/
theorem dispatching_step {queue : QueueRun OrderCommand 1} {hand : Option OrderCommand}
    (invariant : run.Invariant) (held : run.hand = some command)
    (fifo : Fifo capacity 0 queue) (kept : hand = none ∨ hand = some command)
    (busy : ∀ value, queue.pushing.value? = some value → hand = some value ∧ value = command)
    (moved : ∃ sent, run.inbound.popped.filter (belongs (slot command.symbolId)) =
        sent ++ hand.toList ∧ Sifted sent queue.accepted queue.refused) :
    Invariant
      { run with
        hand
        queues := update run.queues (slot command.symbolId) queue } := by
  have foreign {idx : Nat} (apart : idx ≠ slot command.symbolId) :
      belongs idx command = false := by
    simp [belongs, Ne.symm apart]
  refine ⟨invariant.inbound, ?_, invariant.blank, invariant.arriving, ?_, invariant.plain,
    invariant.pushed, ?_, invariant.increasing, invariant.numbered⟩
  · intro idx
    by_cases own : idx = slot command.symbolId
    · simp only [own, update_self]
      exact fifo
    · simp only [update_of_ne own]
      exact invariant.queues idx
  · intro idx value stage
    by_cases own : idx = slot command.symbolId
    · simp only [own, update_self] at stage
      obtain ⟨inHand, rfl⟩ := busy value stage
      exact ⟨inHand, by simp [belongs, own]⟩
    · simp only [update_of_ne own] at stage
      obtain ⟨inHand, mine⟩ := invariant.dispatching idx value stage
      rw [held] at inHand
      cases inHand
      rw [foreign own] at mine
      cases mine
  · intro idx
    by_cases own : idx = slot command.symbolId
    · obtain ⟨sent, shares, sifted⟩ := moved
      simp only [own, update_self]
      refine ⟨sent, ?_, sifted⟩
      rw [shares]
      rcases kept with rfl | rfl
      · rfl
      · simp [belongs]
    · obtain ⟨sent, shares, sifted⟩ := invariant.dispatched idx
      simp only [update_of_ne own]
      refine ⟨sent, ?_, sifted⟩
      rw [shares, held]
      rcases kept with rfl | rfl
      · simp [foreign own]
      · rfl

/-- The dispatch of the command in the poller's hand begins or goes on. -/
theorem dispatch_pushed (invariant : run.Invariant) (held : run.hand = some command) :
    Pushed (run.home command) ((run.home command).push capacity command) command ∧
      ((run.home command).push capacity command).popped = (run.home command).popped := by
  cases stage : (run.home command).pushing.value? with
  | none =>
    obtain ⟨busy, accepted, refused, popped⟩ :=
      push_begins capacity (eq_idle stage) command
    exact ⟨.working (by rw [busy]; rfl) accepted refused, popped⟩
  | some value =>
    obtain ⟨inHand, _⟩ := invariant.dispatching _ value stage
    rw [held] at inHand
    cases inHand
    exact push_pushed capacity stage command

/-- The poller dispatches. -/
theorem dispatch (invariant : run.Invariant) (held : run.hand = some command) :
    run.poll.Invariant := by
  obtain ⟨outcome, _⟩ := invariant.dispatch_pushed held
  have fifo : Fifo capacity 0 ((run.home command).push capacity command) :=
    (invariant.queues _).push powerOfTwo_capacity _
  obtain ⟨sent, shares, sifted⟩ := invariant.dispatched (slot command.symbolId)
  have single : run.hand.toList.filter (belongs (slot command.symbolId)) =
      [command] := by
    simp [held, belongs]
  rw [single] at shares
  rw [poll_held held]
  generalize (run.home command).push capacity command = queue at outcome fifo ⊢
  cases outcome with
  | working stage accepted refused =>
    simp only [stage]
    refine invariant.dispatching_step held fifo (.inr held) ?_ ⟨sent, ?_, ?_⟩
    · intro value busy
      rw [stage] at busy
      cases busy
      exact ⟨held, rfl⟩
    · rw [shares, held]
      rfl
    · rw [accepted, refused]
      exact sifted
  | accepted idle accepted refused =>
    simp only [idle, value?]
    refine invariant.dispatching_step held fifo (.inl rfl) ?_ ⟨sent ++ [command], ?_, ?_⟩
    · intro value busy
      rw [idle] at busy
      cases busy
    · rw [shares, Option.toList_none, append_nil]
    · rw [accepted, refused]
      exact sifted.keep command
  | refused idle accepted refused =>
    simp only [idle, value?]
    refine invariant.dispatching_step held fifo (.inl rfl) ?_ ⟨sent ++ [command], ?_, ?_⟩
    · intro value busy
      rw [idle] at busy
      cases busy
    · rw [shares, Option.toList_none, append_nil]
    · rw [accepted, refused]
      exact sifted.drop command

/-- A poll keeps the invariant. -/
theorem poll (invariant : run.Invariant) : run.poll.Invariant := by
  cases hand : run.hand with
  | none => exact invariant.pop hand
  | some command => exact invariant.dispatch hand

/-- The loop of a symbol leaves the producer's end of its queue alone. -/
theorem loop_queues (run : InboundRun) (registered : RegisteredSymbols) (engine idx : Nat) :
    ((run.loop registered engine).queues idx).pushing = (run.queues idx).pushing ∧
      ((run.loop registered engine).queues idx).accepted = (run.queues idx).accepted ∧
      ((run.loop registered engine).queues idx).refused = (run.queues idx).refused := by
  unfold InboundRun.loop
  split
  · exact ⟨rfl, rfl, rfl⟩
  · rename_i symbolId _
    dsimp only
    by_cases own : idx = slot symbolId
    · obtain ⟨pushes, accepted, refused, _⟩ := consume_popped capacity
        (run.queues (slot symbolId))
      rw [own, update_self]
      exact ⟨pushes, accepted, refused⟩
    · rw [update_of_ne own]
      exact ⟨rfl, rfl, rfl⟩

/-- The loop of a symbol touches nothing but its queue. -/
theorem loop_eq (run : InboundRun) (registered : RegisteredSymbols) (engine : Nat) :
    run.loop registered engine =
      { run with queues := (run.loop registered engine).queues } := by
  unfold InboundRun.loop
  split <;> rfl

variable (invariant : run.Invariant)
include invariant

/-- An engine's turn keeps it. -/
theorem loop (registered : RegisteredSymbols) (engine : Nat) :
    (run.loop registered engine).Invariant := by
  have fifo (idx : Nat) : Fifo capacity 0 ((run.loop registered engine).queues idx) := by
    unfold InboundRun.loop
    split
    · exact invariant.queues idx
    · rename_i symbolId _
      dsimp only
      by_cases own : idx = slot symbolId
      · rw [own, update_self]
        exact (invariant.queues _).consume
      · rw [update_of_ne own]
        exact invariant.queues idx
  rw [loop_eq]
  refine ⟨invariant.inbound, fifo, invariant.blank, invariant.arriving, ?_, invariant.plain,
    invariant.pushed, ?_, invariant.increasing, invariant.numbered⟩
  · intro idx command
    simp only [(loop_queues run registered engine idx).1]
    exact invariant.dispatching idx command
  · intro idx
    obtain ⟨_, accepted, refused⟩ := loop_queues run registered engine idx
    simp only [accepted, refused]
    exact invariant.dispatched idx

/-- Every step keeps it. -/
theorem next (registered : RegisteredSymbols) {input : InboundStep} (numbers : run.Numbers input) :
    (run.next registered input).Invariant := by
  cases input with
  | connect connId | disconnect connId =>
    exact ⟨invariant.inbound, invariant.queues, invariant.blank, invariant.arriving,
      invariant.dispatching, invariant.plain, invariant.pushed, invariant.dispatched,
      invariant.increasing, invariant.numbered⟩
  | packet connId header memory env => exact invariant.receive numbers memory env
  | push => exact invariant.push
  | poll => exact invariant.poll
  | loop engine => exact invariant.loop registered engine

/-! ## Refusals -/

/-- A push refuses nothing exactly when there is room. -/
theorem push_refused (clean : run.NoneRefused) :
    run.push.NoneRefused ↔ run.Room .push := by
  have room := invariant.inbound.findsRoom_iff powerOfTwo_capacity default
  rw [clean.1] at room
  cases arriving : run.arriving with
  | none =>
    have idle := invariant.idle_of_none arriving
    simp only [InboundRun.push, arriving, Room, FindsRoom, idle, iff_true]
    exact clean
  | some packet =>
    simp only [InboundRun.push, arriving, Room, room]
    split
    · exact ⟨And.left, fun none => ⟨none, clean.2⟩⟩
    · exact ⟨And.left, fun none => ⟨none, clean.2⟩⟩

/-- So does a poll. -/
theorem poll_refused (clean : run.NoneRefused) :
    run.poll.NoneRefused ↔ run.Room .poll := by
  cases hand : run.hand with
  | none =>
    obtain ⟨_, _, refused, _⟩ := consume_popped capacity run.inbound
    simp only [InboundRun.poll, hand, NoneRefused, refused, Room]
    exact iff_of_true clean fun _ held => (by cases held)
  | some command =>
    have room := (invariant.queues (slot command.symbolId)).findsRoom_iff
      powerOfTwo_capacity command
    rw [clean.2] at room
    have refused : run.poll.NoneRefused ↔
        ((run.home command).push capacity command).refused = [] := by
      rw [poll_held hand]
      constructor
      · intro none
        have own := none.2 (slot command.symbolId)
        split at own
        · simpa using own
        · simpa using own
      · intro none
        have others (idx : Nat) : (update run.queues (slot command.symbolId)
            ((run.home command).push capacity command) idx).refused = [] := by
          by_cases own : idx = slot command.symbolId
          · rw [own, update_self]
            exact none
          · rw [update_of_ne own]
            exact clean.2 idx
        split
        · exact ⟨clean.1, others⟩
        · exact ⟨clean.1, others⟩
    rw [refused, home, ← room]
    simp [Room, hand, home]

/-- A step without a refusal is one that finds room. -/
theorem next_refused (registered : RegisteredSymbols) (clean : run.NoneRefused)
    (input : InboundStep) :
    (run.next registered input).NoneRefused ↔ run.Room input := by
  cases input with
  | connect connId | disconnect connId => exact iff_of_true clean trivial
  | packet connId header memory env =>
    refine iff_of_true ?_ trivial
    change (run.receive connId header memory env).NoneRefused
    unfold InboundRun.receive
    cases arriving : run.arriving with
    | some packet => exact clean
    | none =>
      dsimp only
      cases (run.gateway.handlePacket connId header memory env).inbound.head? with
      | none => exact clean
      | some command =>
        obtain ⟨_, _, refused, _⟩ := push_begins capacity
          (invariant.idle_of_none arriving) command
        exact ⟨refused.trans clean.1, clean.2⟩
  | push => exact invariant.push_refused clean
  | poll => exact invariant.poll_refused clean
  | loop engine =>
    refine iff_of_true ?_ trivial
    change (run.loop registered engine).NoneRefused
    rw [loop_eq]
    refine ⟨clean.1, fun idx => ?_⟩
    exact (loop_queues run registered engine idx).2.2.trans (clean.2 idx)

end Invariant

/-- Until the sequence numbers run out, in every interleaving of the threads no command is dropped
silently exactly if no push and no dispatch finds its queue full. -/
theorem delivered_iff_room (registered : RegisteredSymbols) {inputs : List InboundStep}
    (numbers : Along Numbers (step registered) start inputs) :
    Throughout Delivered (step registered) start inputs ↔
      Along Room (step registered) start inputs := by
  refine Throughout.iff_along (motive := fun run => run.Invariant ∧ run.NoneRefused)
    ⟨.start, rfl, fun _ => rfl⟩ ?_ ?_ ?_ numbers (runAll_ok (next registered) start inputs)
  · rintro run ⟨invariant, clean⟩
    exact invariant.delivered_iff.mpr clean
  · rintro run input _ ⟨invariant, clean⟩ left room taken
    cases taken
    exact ⟨invariant.next registered left, (invariant.next_refused registered clean input).mpr room⟩
  · rintro run input _ ⟨invariant, clean⟩ left taken delivered
    cases taken
    have refused := (invariant.next registered left).delivered_iff.mp delivered
    exact (invariant.next_refused registered clean input).mp refused

/-! ## Runs -/

/-- A login of connection 1. -/
def loginPacket : InboundStep :=
  .packet 1 ⟨64, MessageType.loginRequest.code, 0, 0, 0⟩
    ((Packet.image LoginRequestBody.image).encode
      ⟨⟨64, MessageType.loginRequest.code, 0, 0, 0⟩,
        ⟨5, 6, .replicate 16 97, .replicate 16 98⟩⟩) ⟨0, 0, [], 0⟩

/-- The header of an order packet. -/
def orderHeader : MessageHeader := ⟨64, MessageType.newOrder.code, 0, 0, 0⟩

/-- An order of connection 1 for symbol 2. -/
def orderPacket : InboundStep :=
  .packet 1 orderHeader
    ((Packet.image NewOrderBody.image).encode
      ⟨orderHeader, ⟨1, 2, 6, 100, 3, 0, 0, 1, .replicate 5 0⟩⟩) ⟨0, 0, [], 0⟩

/-- Symbol 2 alone. -/
def oneSymbol : RegisteredSymbols := ⟨[2], by decide⟩

/-- Two orders reach the loop of their symbol. -/
theorem delivered_iff_room_two :
    Throughout Delivered (step oneSymbol) start
      ([.connect 1, loginPacket, orderPacket, .push, .push, .push, orderPacket, .push] ++
        replicate 8 .poll ++ [.loop 0, .loop 0, .push, .push] ++ replicate 8 .poll ++
        replicate 6 (.loop 0)) :=
  (delivered_iff_room oneSymbol (by decide +kernel)).mpr (by decide +kernel)

/-- So many order packets, each with the steps of its push; the poller stands still. -/
def burst (count : Nat) : List InboundStep :=
  (replicate count [orderPacket, .push, .push, .push]).flatten

/-- The push under way has returned. -/
structure Settled (run next : InboundRun) (packet : PacketHandled) : Prop where
  gateway : next.gateway = run.gateway
  arriving : next.arriving = none
  popped : next.inbound.popped = run.inbound.popped
  handled : next.handled = run.handled ++ [packet]

/-- Without an order there is no push. -/
theorem push_none (none : run.arriving = none) : run.push = run := by
  simp only [push, none]

/-- The push under way returns, and further steps of the gateway find nothing to do. -/
theorem Settled.push {next : InboundRun} {packet : PacketHandled}
    (settled : Settled run next packet) : Settled run next.push packet := by
  rw [push_none settled.arriving]
  exact settled

section

variable {packet : PacketHandled} {value : OrderCommand} {currWrite : UInt64}

/-- The step in which the push returns. -/
theorem settled_of_idle (arriving : run.arriving = some packet)
    (busy : run.inbound.pushing.value? = some value)
    (returned : (run.inbound.push capacity default).pushing = .idle) :
    Settled run run.push packet := by
  have step : run.push = { run with
      inbound := run.inbound.push capacity default
      arriving := none
      handled := run.handled ++ [packet] } := by
    simp only [InboundRun.push, arriving, returned, value?]
  rw [step]
  exact ⟨rfl, rfl, (push_pushed capacity busy default).2, rfl⟩

/-- A step that only moves the push on. -/
theorem settled_of_working {other : OrderCommand} {next : InboundRun}
    (arriving : run.arriving = some packet)
    (busy : run.inbound.pushing.value? = some value)
    (working : (run.inbound.push capacity default).pushing.value? = some other)
    (later : ∀ moved, run.push = moved → moved.arriving = some packet →
      moved.inbound = run.inbound.push capacity default → Settled moved next packet) :
    Settled run next packet := by
  have step : run.push = { run with inbound := run.inbound.push capacity default } := by
    simp only [InboundRun.push, arriving, working]
  have settled := later _ step arriving rfl
  exact ⟨settled.gateway, settled.arriving,
    settled.popped.trans (push_pushed capacity busy default).2, settled.handled⟩

variable (arriving : run.arriving = some packet)
include arriving

/-- The last step of a push settles it. -/
theorem settled_of_written (stage : run.inbound.pushing = .written value currWrite) :
    Settled run run.push packet :=
  settled_of_idle arriving (by rw [stage]; rfl) (pushing_of_written capacity stage _)

/-- Its last two steps settle it. -/
theorem settled_of_checked (stage : run.inbound.pushing = .checked value currWrite) :
    Settled run run.push.push packet := by
  have onward := pushing_of_checked capacity stage default
  apply settled_of_working arriving (by rw [stage]; rfl) (by rw [onward]; rfl)
  intro moved step arriving inbound
  rw [step]
  exact settled_of_written arriving (inbound ▸ onward)

/-- A push returns after at most three steps. -/
theorem settled_of_loadedWrite (stage : run.inbound.pushing = .loadedWrite value currWrite) :
    Settled run run.push.push.push packet := by
  have onward := pushing_of_loadedWrite capacity stage default
  have busy : run.inbound.pushing.value? = some value := by
    rw [stage]
    rfl
  by_cases full : capacity ≤ currWrite - run.inbound.queue.readIdx
  · rw [if_pos full] at onward
    exact (settled_of_idle arriving busy onward).push.push
  · rw [if_neg full] at onward
    apply settled_of_working arriving busy (by rw [onward]; rfl)
    intro moved step arriving inbound
    rw [step]
    exact settled_of_checked arriving (inbound ▸ onward)

end

/-- Connection 1 is logged in, the poller has not turned, and so many commands were handled. -/
structure Ready (run : InboundRun) (count : Nat) : Prop where
  invariant : run.Invariant
  arriving : run.arriving = none
  loggedIn : run.gateway.takesOrder 1 orderHeader = true
  nextSequence : run.gateway.nextSequence = UInt64.ofNat (count + 1)
  popped : run.inbound.popped = []
  commands : run.commands.length = count

/-- One order is pushed. -/
theorem Ready.order {count : Nat} (ready : run.Ready count) (few : count + 1 < 2 ^ 64)
    (registered : RegisteredSymbols) :
    Along Numbers (step registered) run [orderPacket, .push, .push, .push] ∧
      Ready ([orderPacket, .push, .push, .push].foldl (next registered) run) (count + 1) := by
  have left : run.gateway.nextSequence ≠ 0 := by
    rw [ready.nextSequence]
    intro zero
    have value := congrArg UInt64.toNat zero
    rw [UInt64.toNat_ofNat', Nat.mod_eq_of_lt few] at value
    cases value
  refine ⟨⟨fun _ => left, trivial, trivial, trivial, trivial⟩, ?_⟩
  obtain ⟨packet, command, _, _, only, _, received⟩ :=
    Invariant.receive_order ready.arriving ready.invariant.blank ready.loggedIn
      ((Packet.image NewOrderBody.image).encode
        ⟨orderHeader, ⟨1, 2, 6, 100, 3, 0, 0, 1, .replicate 5 0⟩⟩) ⟨0, 0, [], 0⟩
  have begun : run.next registered orderPacket = _ := received
  have invariant : (run.next registered orderPacket).Invariant :=
    ready.invariant.next registered fun _ => left
  have idle := ready.invariant.idle_of_none ready.arriving
  change Ready (run.next registered orderPacket).push.push.push (count + 1)
  rw [begun] at invariant ⊢
  have settled := @settled_of_loadedWrite
    { run with
      gateway := run.gateway.advance
      arriving := some packet
      inbound := run.inbound.push capacity command }
    packet command run.inbound.queue.writeIdx rfl (push_begins capacity idle command).1
  refine ⟨invariant.push.push.push, settled.arriving, ?_, ?_, ?_, ?_⟩
  · rw [settled.gateway]
    exact ready.loggedIn
  · rw [settled.gateway]
    change run.gateway.nextSequence + 1 = _
    rw [ready.nextSequence, UInt64.ofNat_add (count + 1)]
    rfl
  · rw [settled.popped, (push_begins capacity idle command).2.2.2, ready.popped]
  · rw [InboundRun.commands, settled.handled, flatMap_append, length_append]
    change run.commands.length + _ = _
    rw [ready.commands]
    simp [only]

/-- A burst is pushed. -/
theorem Ready.burst {count : Nat} (ready : run.Ready count) (more : Nat)
    (few : count + more < 2 ^ 64) (registered : RegisteredSymbols) :
    Along Numbers (step registered) run (burst more) ∧
      Ready ((burst more).foldl (next registered) run) (count + more) := by
  induction more generalizing run count with
  | zero => exact ⟨trivial, ready⟩
  | succ more ih =>
    obtain ⟨numbers, ready'⟩ := ready.order (by omega) registered
    obtain ⟨later, final⟩ := ih ready' (by omega)
    rw [InboundRun.burst, replicate_succ, flatten_cons]
    constructor
    · exact numbers.append (runAll_ok (next registered) run _) later
    · rw [foldl_append, show count + (more + 1) = count + 1 + more by omega]
      exact final

/-- The login takes no number. -/
theorem numbers_login : Along Numbers (step oneSymbol) start [.connect 1, loginPacket] := by
  decide +kernel

/-- After the login the gateway is ready. -/
theorem ready_login : Ready ([.connect 1, loginPacket].foldl (next oneSymbol) start) 0 where
  invariant :=
    runAll_induction Invariant.start
      (fun _ _ _ invariant numbers taken => by cases taken; exact invariant.next oneSymbol numbers)
      numbers_login (runAll_ok (next oneSymbol) start _)
  arriving := Option.isNone_iff_eq_none.mp (by decide +kernel)
  loggedIn := by decide +kernel
  nextSequence := by decide +kernel
  popped := by decide +kernel
  commands := by decide +kernel

/-- With 4097 orders handled before the poller turns, the inbound queue holds 4096 of them; the last
one is gone, and no Reject was sent. -/
theorem not_delivered_burst : ∃ run,
    runAll (step oneSymbol) start ([.connect 1, loginPacket] ++ burst 4097) = .ok run ∧
      Along Numbers (step oneSymbol) start ([.connect 1, loginPacket] ++ burst 4097) ∧
      run.commands.length = 4097 ∧ run.inbound.accepted.length ≤ 4096 ∧
      run.inbound.popped = [] ∧ ¬run.Delivered := by
  obtain ⟨numbers, ready⟩ := ready_login.burst 4097 (by decide) oneSymbol
  refine ⟨([.connect 1, loginPacket] ++ burst 4097).foldl (next oneSymbol) start,
    runAll_ok (next oneSymbol) start _,
    numbers_login.append (runAll_ok (next oneSymbol) start _) numbers, ?_⟩
  rw [foldl_append]
  generalize ([.connect 1, loginPacket] : List InboundStep).foldl (next oneSymbol) start = first
    at ready ⊢
  generalize (InboundRun.burst 4097).foldl (next oneSymbol) first = run at ready ⊢
  have room := ready.invariant.inbound.room
  rw [ready.popped] at room
  change _ ≤ 0 + 4096 at room
  refine ⟨ready.commands, by omega, ready.popped, fun delivered => ?_⟩
  obtain ⟨clean, _⟩ := ready.invariant.delivered_iff.mp delivered
  have all := ready.invariant.pushed.perm.length_eq
  rw [clean, append_nil, ready.commands] at all
  omega

end InboundRun

end FluxTrade
