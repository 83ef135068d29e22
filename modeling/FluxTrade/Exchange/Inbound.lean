import FluxTrade.Common.SpscQueue
import FluxTrade.Exchange.Routing
import FluxTrade.Gateway.FrameBytes
import FluxTrade.Library.Trace

/-!
# The way of a command to its engine

The gateway pushes a command into the inbound queue, the poller pops it and
dispatches it to the queue of its symbol, and a symbol loop pops it there. Nobody
looks at what the two pushes return, so that a command which meets a full queue is
gone without a Reject. The threads interleave step by step of the two queue
operations. Each queue has one loop that reads it: registered symbols differ
modulo 32, because the queues are not made for two readers.
-/

namespace FluxTrade

open Execution Trace Words Dispatcher MessageType List

/-- The symbols that were registered, no two of them for one queue. -/
structure RegisteredSymbols where
  ids : List SymbolId
  apart : (ids.map slot).Nodup

/-- The packet is an order, cancel or replace from an authenticated connection. -/
def Gateway.takesOrder (gateway : Gateway) (connId : ConnId) (header : MessageHeader) : Bool :=
  match gateway.sessions.getConnection connId with
  | none => false
  | some conn =>
    conn.authenticated && (header.type = newOrder.code ||
      header.type = cancelOrder.code || header.type = replaceOrder.code)

/-- One call of `handle_packet` with what it did. -/
structure PacketHandled where
  connId : ConnId
  /-- An order frame from an authenticated connection. -/
  isOrder : Bool
  /-- Commands passed to `push` of the inbound queue. -/
  commands : List OrderCommand
  /-- Packets passed to `send` meanwhile. -/
  answers : List (ConnId × List UInt8)

/-- A Reject was sent to the connection of the packet. -/
def PacketHandled.Rejected (packet : PacketHandled) : Prop :=
  ∃ answer ∈ packet.answers, answer.1 = packet.connId ∧
    (MessageHeader.image.decode answer.2).type = reject.code
  deriving Decidable

/-- The threads between the sockets and the symbol loops. -/
structure InboundRun where
  /-- Its list of inbound commands holds only what a call of `handle_packet` is about to push. -/
  gateway : Gateway
  /-- The packet whose push is under way. -/
  arriving : Option PacketHandled
  /-- `inbound_queue_`. -/
  inbound : QueueRun OrderCommand 1
  /-- The command that the poller has popped and not yet dispatched. -/
  hand : Option OrderCommand
  /-- `symbol_queues_`. -/
  queues : Nat → QueueRun OrderCommand 1
  /-- Calls of `handle_packet` that have returned, the first one first. -/
  handled : List PacketHandled

/-- What happens next. -/
inductive InboundStep where
  | connect (connId : ConnId)
  | disconnect (connId : ConnId)
  /-- `handle_packet` is called and, for a command, its push begins. -/
  | packet (connId : ConnId) (header : MessageHeader) (memory : List UInt8) (env : PacketEnv)
  /-- The gateway's push takes a step. -/
  | push
  /-- The poller takes a step of its pop or of its dispatch. -/
  | poll
  /-- The loop of a symbol takes a step of its pop. -/
  | loop (engine : Nat)

namespace InboundRun

/-- Cells of each of the queues. -/
def capacity : UInt64 := 4096

/-- A run before its first step. -/
def start : InboundRun where
  gateway := .new
  arriving := none
  inbound := .start (fun _ => default) 0
  hand := none
  queues := fun _ => .start (fun _ => default) 0
  handled := []

/-- `handle_packet` up to its push. A gateway whose push is under way handles no other packet. -/
def receive (run : InboundRun) (connId : ConnId) (header : MessageHeader) (memory : List UInt8)
    (env : PacketEnv) : InboundRun :=
  match run.arriving with
  | some _ => run
  | none =>
    let gateway := run.gateway.handlePacket connId header memory env
    let packet : PacketHandled :=
      { connId
        isOrder := run.gateway.takesOrder connId header
        commands := gateway.inbound
        answers := gateway.sent.drop run.gateway.sent.length }
    gateway.inbound.head?.elim { run with gateway, handled := run.handled ++ [packet] }
      fun command =>
        { run with
          gateway := { gateway with inbound := [] }
          arriving := some packet
          inbound := run.inbound.push capacity command }

/-- The push of `handle_packet`, whose result is ignored. -/
def push (run : InboundRun) : InboundRun :=
  match run.arriving with
  | none => run
  | some packet =>
    let inbound := run.inbound.push capacity default
    match inbound.pushing.value? with
    | none => { run with inbound, arriving := none, handled := run.handled ++ [packet] }
    | some _ => { run with inbound }

/-- The poller: `pop` into the hand, then `Dispatcher::dispatch`, whose result is ignored. -/
def poll (run : InboundRun) : InboundRun :=
  match run.hand with
  | none =>
    let inbound := run.inbound.consume capacity
    { run with inbound, hand := inbound.popped[run.inbound.popped.length]? }
  | some command =>
    let idx := slot command.symbolId
    let queue := (run.queues idx).push capacity command
    let queues := Function.update run.queues idx queue
    match queue.pushing.value? with
    | none => { run with queues, hand := none }
    | some _ => { run with queues }

/-- The loop of a registered symbol. -/
def loop (registered : RegisteredSymbols) (run : InboundRun) (engine : Nat) : InboundRun :=
  match registered.ids[engine]? with
  | none => run
  | some symbolId =>
    let idx := slot symbolId
    { run with queues := Function.update run.queues idx ((run.queues idx).consume capacity) }

/-- The run after a step. -/
def next (registered : RegisteredSymbols) (run : InboundRun) : InboundStep → InboundRun
  | .connect connId => { run with gateway := run.gateway.onConnect connId }
  | .disconnect connId => { run with gateway := run.gateway.onDisconnect connId }
  | .packet connId header memory env => run.receive connId header memory env
  | .push => run.push
  | .poll => run.poll
  | .loop engine => run.loop registered engine

/-- One step, which never fails. -/
def step (registered : RegisteredSymbols) (run : InboundRun) (input : InboundStep) :
    Except Fault InboundRun :=
  .ok (run.next registered input)

/-! ## What is to hold -/

/-- The queue of a command's symbol. -/
def home (run : InboundRun) (command : OrderCommand) : QueueRun OrderCommand 1 :=
  run.queues (slot command.symbolId)

/-- The command is in one place: the inbound queue, the poller's hand, the queue of its symbol or
popped there. No other queue has ever held it. -/
def InOnePlace (run : InboundRun) (command : OrderCommand) : Prop :=
  run.inbound.waiting.count command + run.hand.toList.count command +
      (run.home command).waiting.count command + (run.home command).popped.count command = 1 ∧
    ∀ idx < numSymbols, idx ≠ slot command.symbolId →
      command ∉ (run.queues idx).accepted

/-- Commands of the packets handled, the first one first. -/
def commands (run : InboundRun) : List OrderCommand := run.handled.flatMap PacketHandled.commands

/-- The command came from the connection and is for the symbol. -/
def between (connId : ConnId) (symbolId : SymbolId) (command : OrderCommand) : Bool :=
  command.connId = connId && command.symbolId = symbolId

/-- Commands on their way, those popped by the symbol loop first. -/
def flow (run : InboundRun) (symbolId : SymbolId) : List OrderCommand :=
  let queue := run.queues (slot symbolId)
  queue.popped ++ queue.waiting ++ run.hand.toList ++ run.inbound.waiting

/-- No command is dropped silently. -/
structure Delivered (run : InboundRun) : Prop where
  /-- An order frame that has been handled was rejected or is in one place. -/
  placed : ∀ packet ∈ run.handled, packet.isOrder = true →
    packet.Rejected ∨ ∃ command, packet.commands = [command] ∧ run.InOnePlace command
  /-- Commands of a connection for a symbol keep the order in which they were handled. -/
  inOrder : ∀ connId symbolId, ((run.flow symbolId).filter (between connId symbolId)).Sublist
    (run.commands.filter (between connId symbolId))
  /-- Their sequence numbers increase. -/
  increasing : ∀ connId symbolId, ((run.flow symbolId).filter (between connId symbolId)).Pairwise
    fun early late => early.sequence < late.sequence

/-- The sequence numbers have not run out when a command needs one. -/
def Numbers (run : InboundRun) : InboundStep → Prop
  | .packet connId header _ _ =>
    run.gateway.takesOrder connId header = true → run.gateway.nextSequence ≠ 0
  | _ => True

instance (run : InboundRun) (input : InboundStep) : Decidable (run.Numbers input) := by
  cases input <;> dsimp only [Numbers] <;> infer_instance

/-- The push or dispatch that takes a step does not find its queue full. -/
def Room (run : InboundRun) : InboundStep → Prop
  | .push => run.inbound.FindsRoom capacity
  | .poll => ∀ command ∈ run.hand, (run.home command).FindsRoom capacity
  | _ => True

instance (run : InboundRun) (input : InboundStep) : Decidable (run.Room input) := by
  cases input <;> dsimp only [Room] <;> infer_instance

end InboundRun

/-! ## Handling one packet -/

/-- What `handle_packet` did, by whether it was given an order frame of an authenticated
connection. -/
inductive PacketOutcome (gateway next : Gateway) : Bool → Prop
  | order (command : OrderCommand) (numbered : command.sequence = gateway.nextSequence)
    (pushed : next = gateway.advance.pushCommand command) : PacketOutcome gateway next true
  | other (inbound : next.inbound = gateway.inbound)
    (nextSequence : next.nextSequence = gateway.nextSequence) : PacketOutcome gateway next false

namespace Gateway

variable {gateway : Gateway} {connId : ConnId} {header : MessageHeader}

/-- An answer takes no number. -/
theorem sendPacket_inbound {Body : Type} (image : Layout Body) (type : MessageType)
    (seq ts : UInt64) (body : Body) :
    (gateway.sendPacket image connId type seq ts body).inbound = gateway.inbound ∧
      (gateway.sendPacket image connId type seq ts body).nextSequence = gateway.nextSequence := by
  unfold sendPacket
  dsimp only
  split <;> exact ⟨rfl, rfl⟩

/-- Every packet has an outcome. -/
theorem handlePacket_outcome (memory : List UInt8) (env : PacketEnv) :
    PacketOutcome gateway (gateway.handlePacket connId header memory env)
      (gateway.takesOrder connId header) := by
  cases found : gateway.sessions.getConnection connId with
  | none =>
    simp only [takesOrder, handlePacket, found]
    exact .other rfl rfl
  | some conn =>
    by_cases isLogin : header.type = loginRequest.code
    · have notOrder : gateway.takesOrder connId header = false := by
        simp [takesOrder, found, isLogin, code]
      rw [notOrder, handlePacket_login found isLogin]
      exact .other (sendPacket_inbound ..).1 (sendPacket_inbound ..).2
    cases flag : conn.authenticated with
    | false =>
      simp only [takesOrder, handlePacket, found, isLogin, flag, if_false, if_true,
        Bool.false_and]
      exact .other (sendPacket_inbound ..).1 (sendPacket_inbound ..).2
    | true =>
      by_cases isNew : header.type = newOrder.code
      · rw [handlePacket_newOrder found flag isNew]
        simp only [takesOrder, found, flag, isNew]
        exact .order _ rfl rfl
      by_cases isCancel : header.type = cancelOrder.code
      · rw [handlePacket_cancelOrder found flag isCancel]
        simp only [takesOrder, found, flag, isCancel]
        exact .order _ rfl rfl
      by_cases isReplace : header.type = replaceOrder.code
      · rw [handlePacket_replaceOrder found flag isReplace]
        simp only [takesOrder, found, flag, isReplace]
        exact .order _ rfl rfl
      simp only [takesOrder, handlePacket, found, flag, isLogin, isNew, isCancel, isReplace,
        if_false, Bool.true_eq_false, decide_false, Bool.or_self, Bool.and_false]
      split
      · exact .other (sendPacket_inbound ..).1 (sendPacket_inbound ..).2
      split
      · exact .other rfl rfl
      · exact .other rfl rfl

end Gateway

namespace InboundRun

variable {run : InboundRun}

/-- The rings have 4096 cells. -/
theorem powerOfTwo_capacity : PowerOfTwo capacity := ⟨12, by decide, rfl⟩

/-- Commands of the packets handled and of the one whose push is under way. -/
def received (run : InboundRun) : List OrderCommand :=
  (run.handled ++ run.arriving.toList).flatMap PacketHandled.commands

/-- The command belongs into the queue. -/
def belongs (idx : Nat) (command : OrderCommand) : Bool := slot command.symbolId = idx

/-- An order frame is answered by nothing and has one command, any other packet has none. -/
structure Plain (packet : PacketHandled) : Prop where
  order : packet.isOrder = true → packet.answers = [] ∧ ∃ command, packet.commands = [command]
  other : packet.isOrder = false → packet.commands = []

/-- What the threads know of each other. -/
structure Invariant (run : InboundRun) : Prop where
  inbound : QueueRun.Fifo capacity 0 run.inbound
  queues : ∀ idx, QueueRun.Fifo capacity 0 (run.queues idx)
  blank : run.gateway.inbound = []
  /-- The push under way is that of the arriving packet. -/
  arriving : run.arriving.map PacketHandled.commands =
    run.inbound.pushing.value?.map fun command => [command]
  /-- A dispatch under way is that of the command in the poller's hand. -/
  dispatching : ∀ idx command, (run.queues idx).pushing.value? = some command →
    run.hand = some command ∧ belongs idx command = true
  plain : ∀ packet ∈ run.handled ++ run.arriving.toList, Plain packet
  pushed : Sifted run.commands run.inbound.accepted run.inbound.refused
  dispatched : ∀ idx, ∃ sent, run.inbound.popped.filter (belongs idx) =
      sent ++ run.hand.toList.filter (belongs idx) ∧
    Sifted sent (run.queues idx).accepted (run.queues idx).refused
  increasing : run.received.Pairwise fun early late => early.sequence < late.sequence
  numbered : ∀ command ∈ run.received,
    command.sequence < run.gateway.nextSequence ∨ run.gateway.nextSequence = 0

/-- No push has returned false. -/
def NoneRefused (run : InboundRun) : Prop :=
  run.inbound.refused = [] ∧ ∀ idx, (run.queues idx).refused = []

namespace Invariant

variable {command : OrderCommand}

/-- The empty pipeline. -/
theorem start : InboundRun.start.Invariant where
  inbound := .start ..
  queues := fun _ => .start ..
  blank := rfl
  arriving := rfl
  dispatching := fun _ _ busy => by cases busy
  plain := fun _ member => absurd member not_mem_nil
  pushed := .nil
  dispatched := fun _ => ⟨[], rfl, .nil⟩
  increasing := Pairwise.nil
  numbered := fun _ member => absurd member not_mem_nil

/-! ### One state -/

variable (invariant : run.Invariant)
include invariant

/-- Every handled command is somewhere on its way or was refused. -/
theorem count_commands (command : OrderCommand) :
    run.commands.count command =
      run.inbound.waiting.count command + run.hand.toList.count command +
        (run.home command).waiting.count command + (run.home command).popped.count command +
        run.inbound.refused.count command + (run.home command).refused.count command := by
  obtain ⟨sent, shares, sifted⟩ := invariant.dispatched (slot command.symbolId)
  have own : belongs (slot command.symbolId) command = true := by simp [belongs]
  have first := invariant.pushed.perm.count_eq command
  have second := sifted.perm.count_eq command
  have taken := congrArg (count command) shares
  rw [count_append, count_filter own, count_filter own] at taken
  rw [count_append, invariant.inbound.accepted_eq, count_append] at first
  rw [count_append, (invariant.queues _).accepted_eq, count_append] at second
  unfold home
  omega

/-- Numbers make commands distinct. -/
theorem nodup_commands : run.commands.Nodup := by
  have increasing := invariant.increasing
  rw [received, flatMap_append, pairwise_append] at increasing
  refine increasing.1.imp ?_
  rintro early _ before rfl
  exact absurd before (UInt64.lt_irrefl _)

/-- A command of a packet handled is listed once. -/
theorem count_eq_one (member : command ∈ run.commands) :
    run.commands.count command = 1 :=
  count_eq_one_of_mem invariant.nodup_commands member

/-- A queue only ever holds its own commands. -/
theorem belongs_of_dispatched {idx : Nat}
    (member : command ∈ (run.queues idx).accepted ++ (run.queues idx).refused) :
    slot command.symbolId = idx ∧ command ∈ run.inbound.popped := by
  obtain ⟨sent, shares, sifted⟩ := invariant.dispatched idx
  have among : command ∈ run.inbound.popped.filter (belongs idx) := by
    rw [shares]
    exact mem_append_left _ (sifted.perm.mem_iff.mpr member)
  obtain ⟨popped, own⟩ := mem_filter.mp among
  exact ⟨of_decide_eq_true own, popped⟩

/-- Whatever entered the inbound queue comes from a packet handled. -/
theorem mem_commands (member : command ∈ run.inbound.accepted) :
    command ∈ run.commands :=
  invariant.pushed.sublist.subset member

/-- A command is in one place unless it was refused. -/
theorem inOnePlace_iff (member : command ∈ run.commands) :
    run.InOnePlace command ↔
      command ∉ run.inbound.refused ∧ command ∉ (run.home command).refused := by
  have total := invariant.count_commands command
  rw [invariant.count_eq_one member] at total
  rw [← count_eq_zero, ← count_eq_zero]
  constructor
  · rintro ⟨one, _⟩
    omega
  · intro kept
    refine ⟨by omega, ?_⟩
    intro idx _ foreign inside
    exact foreign (invariant.belongs_of_dispatched (mem_append_left _ inside)).1.symm

/-- The packet of a command. -/
theorem packet_of_command (member : command ∈ run.commands) :
    ∃ packet ∈ run.handled,
      packet.isOrder = true ∧ packet.answers = [] ∧ packet.commands = [command] := by
  obtain ⟨packet, listed, inside⟩ := mem_flatMap.mp member
  have plain := invariant.plain packet (mem_append_left _ listed)
  cases kind : packet.isOrder with
  | false =>
    rw [plain.other kind] at inside
    cases inside
  | true =>
    obtain ⟨unanswered, only, commands⟩ := plain.order kind
    rw [commands, mem_singleton] at inside
    exact ⟨packet, listed, kind, unanswered, inside ▸ commands⟩

/-- The commands on their way to a symbol are in the order in which they were handled. -/
theorem flow_sublist (connId : ConnId) (symbolId : SymbolId) :
    ((run.flow symbolId).filter (between connId symbolId)).Sublist
      (run.commands.filter (between connId symbolId)) := by
  obtain ⟨sent, shares, sifted⟩ := invariant.dispatched (slot symbolId)
  have own (list : List OrderCommand) :
      (list.filter (belongs (slot symbolId))).filter (between connId symbolId) =
        list.filter (between connId symbolId) := by
    rw [filter_filter]
    apply filter_congr
    intro command _
    cases pair : between connId symbolId command with
    | false => rfl
    | true =>
      simp only [between, Bool.and_eq_true, decide_eq_true_eq] at pair
      simp [belongs, pair.2]
  have dispatched : (((run.queues (slot symbolId)).accepted ++
      run.hand.toList).filter (between connId symbolId)).Sublist
        (run.inbound.popped.filter (between connId symbolId)) := by
    rw [← own run.inbound.popped, shares, filter_append, filter_append,
      own run.hand.toList]
    exact (sifted.sublist.filter _).append_right _
  have kept := invariant.pushed.sublist.filter (between connId symbolId)
  rw [invariant.inbound.accepted_eq, filter_append] at kept
  unfold flow
  dsimp only
  rw [← (invariant.queues _).accepted_eq, filter_append]
  exact (dispatched.append_right _).trans kept

/-- Nothing is dropped exactly if no push has returned false. -/
theorem delivered_iff : run.Delivered ↔ run.NoneRefused := by
  constructor
  · intro delivered
    have safe (command : OrderCommand) (member : command ∈ run.commands) :
        command ∉ run.inbound.refused ∧ command ∉ (run.home command).refused := by
      obtain ⟨packet, listed, isOrder, unanswered, commands⟩ :=
        invariant.packet_of_command member
      rcases delivered.placed packet listed isOrder with
        ⟨answer, sent, _⟩ | ⟨other, same, place⟩
      · rw [unanswered] at sent
        cases sent
      · rw [commands] at same
        cases same
        exact (invariant.inOnePlace_iff member).mp place
    constructor
    · apply eq_nil_iff_forall_not_mem.mpr
      intro command refused
      have member := invariant.pushed.perm.mem_iff.mpr (mem_append_right _ refused)
      exact (safe command member).1 refused
    · intro idx
      apply eq_nil_iff_forall_not_mem.mpr
      intro command refused
      obtain ⟨rfl, popped⟩ := invariant.belongs_of_dispatched (mem_append_right _ refused)
      have member := invariant.mem_commands
        (invariant.inbound.accepted_eq ▸ mem_append_left _ popped)
      exact (safe command member).2 refused
  · rintro ⟨inbound, queues⟩
    refine ⟨?_, invariant.flow_sublist, ?_⟩
    · intro packet listed isOrder
      obtain ⟨_, command, commands⟩ :=
        (invariant.plain packet (mem_append_left _ listed)).order isOrder
      have member : command ∈ run.commands :=
        mem_flatMap.mpr ⟨packet, listed, commands ▸ mem_cons_self⟩
      refine .inr ⟨command, commands, (invariant.inOnePlace_iff member).mpr ?_⟩
      rw [home, inbound, queues]
      exact ⟨not_mem_nil, not_mem_nil⟩
    · intro connId symbolId
      have increasing := invariant.increasing
      rw [received, flatMap_append, pairwise_append] at increasing
      exact (increasing.1.filter _).sublist (invariant.flow_sublist connId symbolId)

end Invariant

end InboundRun

end FluxTrade
