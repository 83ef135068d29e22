import FluxTrade.Gateway.SessionManager
import FluxTrade.Library.Execution

/-!
# The gateway

The callbacks of `Gateway` as the source computes them: received bytes are
collected in the buffer of their connection, whole frames are handed to
`handle_packet`, which answers the client or pushes a command to the inbound
queue. Readings of the clock are inputs, and so is what lies in memory behind the
buffer, because a packet is read at its full size wherever its frame ends.
-/

namespace FluxTrade

open SessionManager MessageType

/-- What one `handle_packet` reads from outside: the clock, at most twice, the bytes that lie
behind the buffer, and the bytes that a reject packet on the stack has behind its named ones. -/
structure PacketEnv where
  now : UInt64
  later : UInt64
  beyond : List UInt8
  unnamed : UInt32

/-- `Gateway` with what its transport was told. -/
structure Gateway where
  sessions : SessionManager
  /-- The counter of `sequence_manager_`. -/
  nextSequence : UInt64
  /-- Commands in `inbound_queue_`, the oldest first. -/
  inbound : List OrderCommand
  /-- Packets passed to `send`, in order. -/
  sent : List (ConnId × List UInt8)
  /-- Connections passed to `disconnect`, in order. -/
  disconnected : List ConnId

/-- `strncpy`: the rest of the array is filled with zeros. -/
def strncpy (count : Nat) (text : String) : Vector UInt8 count :=
  (Layout.bytes count).decode (text.toList.map fun letter => UInt8.ofNat letter.toNat)

namespace Gateway

/-- The gateway as it is built. -/
def new : Gateway := ⟨.new, 1, [], [], []⟩

/-- A gateway with connection 1 logged in. -/
def loggedIn : Gateway :=
  { new with sessions := ⟨[{ connId := 1, authenticated := true }]⟩ }

/-- `on_connect`. -/
def onConnect (gateway : Gateway) (connId : ConnId) : Gateway :=
  { gateway with sessions := gateway.sessions.createConnection connId }

/-- `on_disconnect`. -/
def onDisconnect (gateway : Gateway) (connId : ConnId) : Gateway :=
  { gateway with sessions := gateway.sessions.removeConnection connId }

/-- `disconnect` of the transport, which calls back. -/
def disconnect (gateway : Gateway) (connId : ConnId) : Gateway :=
  { gateway.onDisconnect connId with disconnected := gateway.disconnected ++ [connId] }

/-- `send_packet`; `write_buffer_` has 8192 bytes. -/
def sendPacket {Body : Type} (gateway : Gateway) (image : Layout Body) (connId : ConnId)
    (type : MessageType) (seq ts : UInt64) (body : Body) : Gateway :=
  let bytes := PacketEncoder.encode image 8192 type seq ts ⟨⟨0, 0, 0, 0, 0⟩, body⟩
  if bytes.length = 0 then gateway else { gateway with sent := gateway.sent ++ [(connId, bytes)] }

/-- `inbound_queue_->push`: a full queue refuses, and nobody looks at the result. -/
def pushCommand (gateway : Gateway) (command : OrderCommand) : Gateway :=
  if 4096 ≤ gateway.inbound.length then gateway
  else { gateway with inbound := gateway.inbound ++ [command] }

/-- A command with the next sequence number, all other fields at their defaults. -/
def blankCommand (gateway : Gateway) (type : CommandType) (connId : ConnId) (now : UInt64) :
    OrderCommand where
  type
  sequence := gateway.nextSequence
  timestamp := now
  clientOrderId := 0
  origClientOrderId := 0
  symbolId := 0
  accountId := 0
  price := 0
  qty := 0
  side := .buy
  orderType := .limit
  tif := .gtc
  connId

/-- `next_sequence` has been called. -/
def advance (gateway : Gateway) : Gateway :=
  { gateway with nextSequence := gateway.nextSequence + 1 }

/-- A login request. -/
def handleLogin (gateway : Gateway) (connId : ConnId) (packet : LoginRequestBody)
    (env : PacketEnv) : Gateway :=
  let (ok, sessions) := gateway.sessions.authenticate connId packet.clientId packet.accountId
    packet.username packet.password
  { gateway with sessions }.sendPacket LoginResponseBody.image connId .loginResponse 0 env.now
    { clientId := packet.clientId
      accountId := packet.accountId
      success := if ok then 1 else 0
      rejectReason := strncpy 23 (if ok then "" else "Auth Failure") }

/-- The command of a `NewOrderPacket`. -/
def newOrderCommand (gateway : Gateway) (connId : ConnId) (packet : NewOrderBody)
    (now : UInt64) : OrderCommand :=
  { gateway.blankCommand .newOrder connId now with
    clientOrderId := packet.clientOrderId
    symbolId := packet.symbolId
    accountId := packet.accountId
    price := packet.priceTicks.toInt64
    qty := packet.qtyUnits
    side := if packet.side = 0 then .buy else .sell
    orderType := if packet.type = 0 then .limit else .market
    tif := TimeInForce.ofCode packet.tif }

/-- The command of a `CancelOrderPacket`. -/
def cancelOrderCommand (gateway : Gateway) (connId : ConnId) (packet : CancelOrderBody)
    (now : UInt64) : OrderCommand :=
  { gateway.blankCommand .cancelOrder connId now with
    clientOrderId := packet.clientOrderId
    origClientOrderId := packet.origClientOrderId
    symbolId := packet.symbolId
    accountId := packet.accountId }

/-- The command of a `ReplaceOrderPacket`. -/
def replaceOrderCommand (gateway : Gateway) (connId : ConnId) (packet : ReplaceOrderBody)
    (now : UInt64) : OrderCommand :=
  { gateway.blankCommand .replaceOrder connId now with
    clientOrderId := packet.clientOrderId
    origClientOrderId := packet.origClientOrderId
    symbolId := packet.symbolId
    accountId := packet.accountId
    price := packet.priceTicks.toInt64
    qty := packet.qtyUnits }

/-- `handle_packet`. `memory` is what lies from the first byte of the frame on: the packet types
are read from there at their full size. -/
def handlePacket (gateway : Gateway) (connId : ConnId) (header : MessageHeader)
    (memory : List UInt8) (env : PacketEnv) : Gateway :=
  let read {Body : Type} (image : Layout Body) : Body := ((Packet.image image).decode memory).body
  match gateway.sessions.getConnection connId with
  | none => gateway
  | some conn =>
    if header.type = loginRequest.code then
      gateway.handleLogin connId (read LoginRequestBody.image) env
    else if conn.authenticated = false then
      gateway.sendPacket RejectBody.image connId .reject 0 env.now
        { clientOrderId := 0
          accountId := 0
          reason := RejectReason.none.code
          padding := Vector.replicate 6 0
          unnamed := env.unnamed }
    else if header.type = heartbeat.code then
      { gateway with sessions := gateway.sessions.modify connId fun conn =>
          { conn with lastHeartbeatTs := env.now } }.sendPacket
        Layout.unit connId .heartbeat 0 env.later ()
    else if header.type = logout.code then
      { gateway with sessions := gateway.sessions.modify connId fun conn =>
          { conn with authenticated := false } }
    else if header.type = newOrder.code then
      let command := gateway.newOrderCommand connId (read NewOrderBody.image) env.now
      gateway.advance.pushCommand command
    else if header.type = cancelOrder.code then
      let command := gateway.cancelOrderCommand connId (read CancelOrderBody.image) env.now
      gateway.advance.pushCommand command
    else if header.type = replaceOrder.code then
      let command := gateway.replaceOrderCommand connId (read ReplaceOrderBody.image) env.now
      gateway.advance.pushCommand command
    else gateway

end Gateway

/-! ## The parser loop -/

/-- One call of `handle_packet` with what it is given, for a frame of some size. -/
structure PacketCall where
  connId : ConnId
  header : MessageHeader
  memory : List UInt8
  size : Nat
  env : PacketEnv

/-- The bytes of the frame in the memory that the call is given. -/
def PacketCall.frame (call : PacketCall) : List UInt8 := call.memory.take call.size

/-- What a call of `handle_packet` makes of the gateway. -/
def Gateway.handle (gateway : Gateway) (call : PacketCall) : Gateway :=
  gateway.handlePacket call.connId call.header call.memory call.env

/-- Variables of a running parser loop. -/
structure FrameLoop where
  gateway : Gateway
  processed : Nat
  /-- Calls of `handle_packet`, in order. -/
  calls : List PacketCall

namespace FrameLoop

/-- The frame that the loop handles next, if it does not end. -/
def nextFrame (loop : FrameLoop) (buffer : ReadBuffer) : Option Decoded :=
  if loop.processed < buffer.len then
    PacketDecoder.decode (buffer.pending.drop loop.processed)
  else none

/-- The call of `handle_packet` for a whole frame. -/
def call (loop : FrameLoop) (connId : ConnId) (buffer : ReadBuffer) (decoded : Decoded)
    (env : PacketEnv) : PacketCall where
  connId
  header := decoded.header
  memory := buffer.bytes.drop loop.processed ++ env.beyond
  size := decoded.bytesRead
  env

/-- The body of the loop for a whole frame. -/
def handle (loop : FrameLoop) (connId : ConnId) (buffer : ReadBuffer) (decoded : Decoded)
    (env : PacketEnv) : FrameLoop where
  gateway := loop.gateway.handle (loop.call connId buffer decoded env)
  processed := loop.processed + decoded.bytesRead
  calls := loop.calls ++ [loop.call connId buffer decoded env]

/-- The loop; `handle_packet` does not write to the buffer. -/
def run (connId : ConnId) (buffer : ReadBuffer) (env : Nat → PacketEnv) :
    Nat → FrameLoop → Except Fault FrameLoop
  | 0, loop =>
    match loop.nextFrame buffer with
    | none => .ok loop
    | some _ => .error .outOfFuel
  | fuel + 1, loop =>
    match loop.nextFrame buffer with
    | none => .ok loop
    | some decoded =>
      run connId buffer env fuel (loop.handle connId buffer decoded (env loop.calls.length))

end FrameLoop

/-- A gateway with the calls of `handle_packet` so far. -/
structure GatewayRun where
  gateway : Gateway
  handled : List PacketCall

/-- A callback of the transport; `env` is what each frame of a read is handled with. -/
inductive GatewayCallback where
  | connect (connId : ConnId)
  | disconnect (connId : ConnId)
  | read (connId : ConnId) (data : List UInt8) (env : Nat → PacketEnv)

namespace GatewayRun

/-- `on_read`. A loop that handles more frames than the buffer has bytes does not end. -/
def onRead (run : GatewayRun) (connId : ConnId) (data : List UInt8) (env : Nat → PacketEnv) :
    Except Fault GatewayRun :=
  match run.gateway.sessions.getConnection connId with
  | none => .ok run
  | some conn =>
    if room : conn.buffer.len + data.length ≤ bufferSize then do
      let buffer := conn.buffer.append data room
      let gateway := { run.gateway with
        sessions := run.gateway.sessions.modify connId fun conn => { conn with buffer } }
      let loop ← FrameLoop.run connId buffer env bufferSize ⟨gateway, 0, []⟩
      .ok
        { gateway := { loop.gateway with
            sessions := loop.gateway.sessions.modify connId fun conn =>
              { conn with buffer := conn.buffer.shift loop.processed } }
          handled := run.handled ++ loop.calls }
    else .ok { run with gateway := run.gateway.disconnect connId }

/-- One callback. -/
def step (run : GatewayRun) : GatewayCallback → Except Fault GatewayRun
  | .connect connId => .ok { run with gateway := run.gateway.onConnect connId }
  | .disconnect connId => .ok { run with gateway := run.gateway.onDisconnect connId }
  | .read connId data env => run.onRead connId data env

end GatewayRun

/-! ## What handling a packet leaves alone -/

namespace Gateway

/-- Nothing was received and nobody was disconnected. -/
structure SameBuffers (before after : Gateway) : Prop where
  buffers : ∀ connId, (after.sessions.getConnection connId).map ClientConnection.buffer =
    (before.sessions.getConnection connId).map ClientConnection.buffer
  disconnected : after.disconnected = before.disconnected

namespace SameBuffers

variable {before after last : Gateway} {connId : ConnId}

/-- Nothing changed. -/
theorem refl (gateway : Gateway) : SameBuffers gateway gateway := ⟨fun _ => rfl, rfl⟩

/-- One change after another. -/
theorem trans (first : SameBuffers before after) (second : SameBuffers after last) :
    SameBuffers before last where
  buffers other := (second.buffers other).trans (first.buffers other)
  disconnected := second.disconnected.trans first.disconnected

/-- An answer touches no buffer. -/
theorem sendPacket {Body : Type} {image : Layout Body} {type : MessageType} {seq ts : UInt64}
    {body : Body} (same : SameBuffers before after) :
    SameBuffers before (after.sendPacket image connId type seq ts body) := by
  unfold Gateway.sendPacket
  dsimp only
  split
  · exact same
  · exact ⟨same.buffers, same.disconnected⟩

/-- Nor does a push. -/
theorem pushCommand {command : OrderCommand} (same : SameBuffers before after) :
    SameBuffers before (after.pushCommand command) := by
  unfold Gateway.pushCommand
  split
  · exact same
  · exact ⟨same.buffers, same.disconnected⟩

/-- Nor does a write beside it. -/
theorem modify {update : ClientConnection → ClientConnection}
    (keeps : ∀ conn, (update conn).connId = conn.connId)
    (beside : ∀ conn, (update conn).buffer = conn.buffer) :
    SameBuffers before { before with sessions := before.sessions.modify connId update } :=
  ⟨buffer_modify keeps beside, rfl⟩

/-- Nor does a login. -/
theorem handleLogin (before : Gateway) (packet : LoginRequestBody) (env : PacketEnv) :
    SameBuffers before (before.handleLogin connId packet env) := by
  unfold Gateway.handleLogin authenticate
  apply sendPacket
  cases before.sessions.getConnection connId with
  | none => exact refl before
  | some conn =>
    by_cases empty : packet.username[0] = 0 ∨ packet.password[0] = 0
    · simp only [empty, if_true]
      exact refl before
    · simp only [empty, if_false]
      exact modify (fun _ => rfl) fun _ => rfl

/-- `handle_packet` touches no buffer and disconnects nobody. -/
theorem handlePacket (before : Gateway) (header : MessageHeader) (memory : List UInt8)
    (env : PacketEnv) : SameBuffers before (before.handlePacket connId header memory env) := by
  unfold Gateway.handlePacket
  cases before.sessions.getConnection connId with
  | none => exact refl before
  | some conn =>
    have advanced : SameBuffers before before.advance := ⟨fun _ => rfl, rfl⟩
    dsimp only
    split
    · exact handleLogin before _ env
    split
    · exact (refl before).sendPacket
    split
    · apply sendPacket
      exact modify (fun _ => rfl) fun _ => rfl
    split
    · exact modify (fun _ => rfl) fun _ => rfl
    split
    · exact advanced.pushCommand
    split
    · exact advanced.pushCommand
    split
    · exact advanced.pushCommand
    · exact refl before

/-- Calls of `handle_packet` touch no buffer and disconnect nobody. -/
theorem foldl_handle (before : Gateway) (calls : List PacketCall) :
    SameBuffers before (calls.foldl handle before) := by
  induction calls generalizing before with
  | nil => exact refl before
  | cons call calls ih => exact (handlePacket before _ _ _).trans (ih _)

end SameBuffers

/-! ## What handling a packet does not read -/

/-- The gateway with another framing buffer for a connection. -/
def withBuffer (gateway : Gateway) (connId : ConnId) (buffer : ReadBuffer) : Gateway :=
  { gateway with sessions := gateway.sessions.modify connId fun conn => { conn with buffer } }

section

variable (gateway : Gateway) (connId : ConnId) (buffer : ReadBuffer)

/-- The entry with the buffer. -/
theorem getConnection_withBuffer :
    (gateway.withBuffer connId buffer).sessions.getConnection connId =
      (gateway.sessions.getConnection connId).map fun conn => { conn with buffer } :=
  getConnection_modify fun _ => rfl

/-- `send_packet` does not look at the buffer. -/
theorem sendPacket_withBuffer {Body : Type} {image : Layout Body} {type : MessageType}
    {seq ts : UInt64} {body : Body} :
    (gateway.withBuffer connId buffer).sendPacket image connId type seq ts body =
      (gateway.sendPacket image connId type seq ts body).withBuffer connId buffer := by
  unfold sendPacket
  dsimp only
  split <;> rfl

/-- Pushing a command does not look at the buffer. -/
theorem pushCommand_withBuffer {command : OrderCommand} :
    (gateway.withBuffer connId buffer).pushCommand command =
      (gateway.pushCommand command).withBuffer connId buffer := by
  unfold pushCommand
  change (if 4096 ≤ gateway.inbound.length then _ else _) = _
  split <;> rfl

/-- Writes beside the buffer do not look at it. -/
theorem modify_withBuffer {update : ClientConnection → ClientConnection}
    (keeps : ∀ conn, (update conn).connId = conn.connId)
    (beside : ∀ conn, update { conn with buffer } = { update conn with buffer }) :
    { gateway.withBuffer connId buffer with
        sessions := (gateway.withBuffer connId buffer).sessions.modify connId update } =
      { gateway with sessions := gateway.sessions.modify connId update }.withBuffer
        connId buffer := by
  have commute : (gateway.sessions.modify connId fun conn => { conn with buffer }).modify connId
      update = (gateway.sessions.modify connId update).modify connId
        fun conn => { conn with buffer } := by
    rw [modify_modify (by exact fun _ => rfl), modify_modify keeps]
    exact congrArg _ (funext beside)
  exact congrArg (fun sessions => { gateway with sessions }) commute

/-- A login does not look at the buffer. -/
theorem handleLogin_withBuffer (packet : LoginRequestBody) (env : PacketEnv) :
    (gateway.withBuffer connId buffer).handleLogin connId packet env =
      (gateway.handleLogin connId packet env).withBuffer connId buffer := by
  unfold handleLogin authenticate
  rw [gateway.getConnection_withBuffer]
  cases gateway.sessions.getConnection connId with
  | none => exact gateway.sendPacket_withBuffer connId buffer
  | some conn =>
    simp only [Option.map_some]
    split
    · exact gateway.sendPacket_withBuffer connId buffer
    · dsimp only
      rw [modify_withBuffer _ _ _ (by exact fun _ => rfl) (by exact fun _ => rfl),
        sendPacket_withBuffer]

/-- `handle_packet` reads the bytes that it is given and no buffer. -/
theorem handlePacket_withBuffer (header : MessageHeader) (memory : List UInt8)
    (env : PacketEnv) :
    (gateway.withBuffer connId buffer).handlePacket connId header memory env =
      (gateway.handlePacket connId header memory env).withBuffer connId buffer := by
  unfold handlePacket
  rw [getConnection_withBuffer]
  cases gateway.sessions.getConnection connId with
  | none => rfl
  | some conn =>
    simp only [Option.map_some]
    split
    · exact gateway.handleLogin_withBuffer connId buffer _ env
    split
    · exact gateway.sendPacket_withBuffer connId buffer
    split
    · rw [modify_withBuffer _ _ _ (by exact fun _ => rfl) (by exact fun _ => rfl),
        sendPacket_withBuffer]
    split
    · exact gateway.modify_withBuffer connId buffer (fun _ => rfl) fun _ => rfl
    split
    · exact gateway.advance.pushCommand_withBuffer connId buffer
    split
    · exact gateway.advance.pushCommand_withBuffer connId buffer
    split
    · exact gateway.advance.pushCommand_withBuffer connId buffer
    · rfl

/-- A buffer replaced twice. -/
theorem withBuffer_withBuffer (later : ReadBuffer) :
    (gateway.withBuffer connId buffer).withBuffer connId later =
      gateway.withBuffer connId later := by
  have once := @modify_modify gateway.sessions connId
    (fun conn => { conn with buffer }) (fun conn => { conn with buffer := later }) fun _ => rfl
  exact congrArg (fun sessions => { gateway with sessions }) once

/-- A buffer replaced by itself. -/
theorem withBuffer_self {conn : ClientConnection}
    (found : gateway.sessions.getConnection connId = some conn) :
    gateway.withBuffer connId conn.buffer = gateway := by
  have same := @modify_eq_self gateway.sessions connId conn
    (fun other => { other with buffer := conn.buffer }) found rfl
  exact congrArg (fun sessions => { gateway with sessions }) same

/-- Calls for one connection read the bytes that they are given and no buffer of it. -/
theorem foldl_handle_withBuffer {calls : List PacketCall}
    (own : ∀ call ∈ calls, call.connId = connId) :
    calls.foldl handle (gateway.withBuffer connId buffer) =
      (calls.foldl handle gateway).withBuffer connId buffer := by
  induction calls generalizing gateway with
  | nil => rfl
  | cons call calls ih =>
    obtain ⟨here, later⟩ := List.forall_mem_cons.mp own
    have handled : (gateway.withBuffer connId buffer).handle call =
        (gateway.handle call).withBuffer connId buffer := by
      subst here
      exact gateway.handlePacket_withBuffer _ buffer _ _ _
    rw [List.foldl_cons, List.foldl_cons, handled, ih _ later]

end

end Gateway

end FluxTrade
