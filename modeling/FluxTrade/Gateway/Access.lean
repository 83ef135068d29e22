import FluxTrade.Gateway.Framing
import FluxTrade.Library.Trace

/-!
# Access

While the callbacks of a gateway run, what happens to its connections is logged.
The status of a connection follows from the log alone, and the session table
agrees with it although connections change their slots. So a command is pushed
only for a connection that has logged in since it was created and has neither
logged out nor been disconnected after that.
-/

namespace FluxTrade

open Execution

/-- What the callbacks of a gateway do with its connections. -/
inductive SessionEvent where
  /-- `create_connection` took a slot into use. -/
  | created (connId : ConnId)
  /-- `on_disconnect` was called. -/
  | disconnected (connId : ConnId)
  /-- `authenticate` returned true. -/
  | authenticated (connId : ConnId)
  /-- `handle_packet` was given a logout packet. -/
  | loggedOut (connId : ConnId)
  /-- `push` of the inbound queue was called, in front of these sessions. -/
  | pushed (command : OrderCommand) (sessions : SessionManager)

/-- The command that an event pushes. -/
def SessionEvent.command : SessionEvent → Option OrderCommand
  | pushed command _ => some command
  | _ => none

/-! ## The log of a run -/

/-- The events of one `handle_packet`. -/
def Gateway.packetEvents (gateway : Gateway) (connId : ConnId) (header : MessageHeader)
    (memory : List UInt8) (env : PacketEnv) : List SessionEvent :=
  let read {Body : Type} (image : Layout Body) : Body := ((Packet.image image).decode memory).body
  match gateway.sessions.getConnection connId with
  | none => []
  | some conn =>
    if header.type = MessageType.loginRequest.code then
      let packet := read LoginRequestBody.image
      let (ok, _) := gateway.sessions.authenticate connId packet.clientId packet.accountId
        packet.username packet.password
      if ok then [.authenticated connId] else []
    else if header.type = MessageType.logout.code then [.loggedOut connId]
    else if conn.authenticated = false then []
    else if header.type = MessageType.newOrder.code then
      [.pushed (gateway.newOrderCommand connId (read NewOrderBody.image) env.now) gateway.sessions]
    else if header.type = MessageType.cancelOrder.code then
      [.pushed (gateway.cancelOrderCommand connId (read CancelOrderBody.image) env.now)
        gateway.sessions]
    else if header.type = MessageType.replaceOrder.code then
      [.pushed (gateway.replaceOrderCommand connId (read ReplaceOrderBody.image) env.now)
        gateway.sessions]
    else []

/-- The events of the frames that a parser loop handles. -/
def FrameLoop.events (connId : ConnId) (buffer : ReadBuffer) (env : Nat → PacketEnv) :
    Nat → FrameLoop → List SessionEvent
  | 0, _ => []
  | fuel + 1, loop =>
    match loop.nextFrame buffer with
    | none => []
    | some decoded =>
      let here := env loop.calls.length
      loop.gateway.packetEvents connId decoded.header
          (buffer.bytes.drop loop.processed ++ here.beyond) here ++
        events connId buffer env fuel (loop.handle connId buffer decoded here)

namespace GatewayRun

/-- A new gateway. -/
def new : GatewayRun := ⟨.new, []⟩

/-- The events of a callback. -/
def events (run : GatewayRun) : GatewayCallback → List SessionEvent
  | .connect connId =>
    let before := run.gateway.sessions
    if before.connections.length < (before.createConnection connId).connections.length then
      [.created connId]
    else []
  | .disconnect connId => [.disconnected connId]
  | .read connId data env =>
    match run.gateway.sessions.getConnection connId with
    | none => []
    | some conn =>
      if room : conn.buffer.len + data.length ≤ bufferSize then
        let buffer := conn.buffer.append data room
        let gateway := { run.gateway with
          sessions := run.gateway.sessions.modify connId fun conn => { conn with buffer } }
        FrameLoop.events connId buffer env bufferSize ⟨gateway, 0, []⟩
      else [.disconnected connId]

/-- The frames that a read handles are at least as long as their headers. -/
def LongFrames (run : GatewayRun) : GatewayCallback → Prop
  | .read connId data _ => ∀ conn, run.gateway.sessions.getConnection connId = some conn →
      conn.buffer.len + data.length ≤ bufferSize →
      Framing.Frames frameSize (fun frame => MessageHeader.image.width ≤ frame.length)
        (conn.buffer.pending ++ data)
  | _ => True

end GatewayRun

/-- A run with the events so far. -/
structure LoggedRun where
  run : GatewayRun
  log : List SessionEvent

namespace LoggedRun

/-- A new gateway without events. -/
def new : LoggedRun := ⟨.new, []⟩

/-- One callback with its events. -/
def step (logged : LoggedRun) (callback : GatewayCallback) : Except Fault LoggedRun :=
  (logged.run.step callback).map fun run => ⟨run, logged.log ++ logged.run.events callback⟩

end LoggedRun

/-! ## The status of a connection -/

/-- What a client may do on a connection. -/
inductive SessionStatus where
  | absent
  | connected
  | loggedIn
  deriving DecidableEq

/-- What an event makes of the status of a connection. -/
def SessionStatus.next (connId : ConnId) (status : SessionStatus) : SessionEvent → SessionStatus
  | .created other => if connId = other then connected else status
  | .disconnected other => if connId = other then absent else status
  | .authenticated other => if connId = other ∧ status ≠ absent then loggedIn else status
  | .loggedOut other => if connId = other ∧ status ≠ absent then connected else status
  | .pushed _ _ => status

/-- The status of a connection after some events. -/
def SessionStatus.after (connId : ConnId) (log : List SessionEvent) : SessionStatus :=
  log.foldl (SessionStatus.next connId) absent

/-- The connection has been there since it was last created. -/
def Connected (connId : ConnId) (past : List SessionEvent) : Prop :=
  ∃ before since, past = before ++ .created connId :: since ∧
    .created connId ∉ since ∧ .disconnected connId ∉ since

/-- Since the connection was last created, a login succeeded, after which nobody logged out and the
connection was not disconnected. -/
def LoggedIn (connId : ConnId) (past : List SessionEvent) : Prop :=
  ∃ before middle since,
    past = before ++ .created connId :: (middle ++ .authenticated connId :: since) ∧
    .created connId ∉ middle ++ since ∧ .disconnected connId ∉ middle ++ since ∧
    .loggedOut connId ∉ since

/-- A command may be pushed where its connection exists and is logged in. -/
def SessionEvent.Admitted (past : List SessionEvent) : SessionEvent → Prop
  | pushed command sessions =>
    (sessions.getConnection command.connId).isSome ∧ LoggedIn command.connId past
  | _ => True

section

variable {connId : ConnId} {past : List SessionEvent} {event : SessionEvent}

/-- The status after more events. -/
theorem SessionStatus.after_append (connId : ConnId) (log events : List SessionEvent) :
    after connId (log ++ events) = events.foldl (next connId) (after connId log) :=
  List.foldl_append

/-- Other events keep a connection. -/
theorem Connected.snoc (connected : Connected connId past) (notCreated : event ≠ .created connId)
    (notDisconnected : event ≠ .disconnected connId) : Connected connId (past ++ [event]) := by
  obtain ⟨before, since, rfl, once, stays⟩ := connected
  refine ⟨before, since ++ [event], by simp, ?_, ?_⟩
  · simp [once, notCreated.symm]
  · simp [stays, notDisconnected.symm]

/-- Other events keep a login. -/
theorem LoggedIn.snoc (loggedIn : LoggedIn connId past) (notCreated : event ≠ .created connId)
    (notDisconnected : event ≠ .disconnected connId) (notOut : event ≠ .loggedOut connId) :
    LoggedIn connId (past ++ [event]) := by
  obtain ⟨before, middle, since, rfl, once, stays, inside⟩ := loggedIn
  refine ⟨before, middle, since ++ [event], by simp, ?_, ?_, ?_⟩
  · rw [← List.append_assoc, List.mem_append]
    simp [once, notCreated.symm]
  · rw [← List.append_assoc, List.mem_append]
    simp [stays, notDisconnected.symm]
  · simp [inside, notOut.symm]

/-- A connection logs in. -/
theorem Connected.login (connected : Connected connId past) :
    LoggedIn connId (past ++ [.authenticated connId]) := by
  obtain ⟨before, since, rfl, once, stays⟩ := connected
  exact ⟨before, since, [], by simp, by simpa using once, by simpa using stays, by simp⟩

/-- What the status of a connection says about the past. -/
theorem SessionStatus.meaning (connId : ConnId) (log : List SessionEvent) :
    (after connId log ≠ absent → Connected connId log) ∧
      (after connId log = loggedIn → LoggedIn connId log) := by
  induction log using List.reverseRecOn with
  | nil => exact ⟨fun present => absurd rfl present, fun wrong => by cases wrong⟩
  | append_singleton past event ih =>
    obtain ⟨present, inside⟩ := ih
    -- Where the event is none of these, the past stays as the status says.
    have keep (notCreated : event ≠ .created connId)
        (notDisconnected : event ≠ .disconnected connId) (notOut : event ≠ .loggedOut connId) :
        (after connId past ≠ absent → Connected connId (past ++ [event])) ∧
          (after connId past = loggedIn → LoggedIn connId (past ++ [event])) :=
      ⟨fun there => (present there).snoc notCreated notDisconnected,
        fun there => (inside there).snoc notCreated notDisconnected notOut⟩
    rw [after_append]
    change (next connId (after connId past) event ≠ absent → _) ∧
      (next connId (after connId past) event = loggedIn → _)
    cases event with
    | created other =>
      by_cases same : connId = other
      · subst same
        simp only [next, if_true, reduceCtorEq, false_implies, and_true]
        exact fun _ => ⟨past, [], by simp, by simp, by simp⟩
      · simp only [next, same, if_false]
        exact keep (by simp [Ne.symm same]) (by simp) (by simp)
    | disconnected other =>
      by_cases same : connId = other
      · simp only [next, same, if_true, reduceCtorEq, ne_eq, not_true_eq_false, false_implies,
          and_true]
      · simp only [next, same, if_false]
        exact keep (by simp) (by simp [Ne.symm same]) (by simp)
    | authenticated other =>
      by_cases same : connId = other ∧ after connId past ≠ absent
      · obtain ⟨rfl, there⟩ := same
        exact ⟨fun _ => (present there).snoc (by simp) (by simp), fun _ => (present there).login⟩
      · simp only [next, same, if_false]
        exact keep (by simp) (by simp) (by simp)
    | loggedOut other =>
      by_cases same : connId = other
      · subst same
        cases status : after connId past with
        | absent => simp [next]
        | connected | loggedIn =>
          have there : after connId past ≠ absent := by simp [status]
          simp only [next, ne_eq, reduceCtorEq, not_false_eq_true, and_self, if_true,
            false_implies, and_true]
          exact fun _ => (present there).snoc (by simp) (by simp)
      · simp only [next, same, false_and, if_false]
        exact keep (by simp) (by simp) (by simp [Ne.symm same])
    | pushed command sessions => exact keep (by simp) (by simp) (by simp)

end

/-! ## The table follows the log -/

/-- The status that the flag of a connection stands for. -/
def ClientConnection.status (conn : ClientConnection) : SessionStatus :=
  if conn.authenticated then .loggedIn else .connected

/-- A connection is present. -/
theorem ClientConnection.status_ne_absent (conn : ClientConnection) : conn.status ≠ .absent := by
  unfold status
  split <;> simp

namespace SessionManager

/-- The status of a connection in the table. -/
def status (sessions : SessionManager) (connId : ConnId) : SessionStatus :=
  match sessions.getConnection connId with
  | none => .absent
  | some conn => conn.status

variable {sessions : SessionManager} {connId : ConnId} {conn : ClientConnection}
  {update : ClientConnection → ClientConnection}

/-- The status is the entry's. -/
theorem status_of_getConnection (found : sessions.getConnection connId = some conn) :
    sessions.status connId = conn.status := by
  rw [status, found]

/-- A write moves one status. -/
theorem status_modify (found : sessions.getConnection connId = some conn)
    (keeps : ∀ conn, (update conn).connId = conn.connId) (other : ConnId) :
    (sessions.modify connId update).status other =
      if other = connId then (update conn).status else sessions.status other := by
  by_cases same : other = connId
  · rw [same, if_pos rfl, status, getConnection_modify keeps, found]
    rfl
  · rw [if_neg same, status, getConnection_modify_of_ne keeps same]
    rfl

/-- Writes beside the flag change no status. -/
theorem status_modify_of_keeps (keeps : ∀ conn, (update conn).connId = conn.connId)
    (beside : ∀ conn, (update conn).authenticated = conn.authenticated) (other : ConnId) :
    (sessions.modify connId update).status other = sessions.status other := by
  by_cases same : other = connId
  · rw [same, status, getConnection_modify keeps, status]
    cases sessions.getConnection connId with
    | none => rfl
    | some conn => simp only [Option.map_some, ClientConnection.status, beside]
  · rw [status, getConnection_modify_of_ne keeps same]
    rfl

end SessionManager

/-- A queue of the first 4096 commands still is one after a push. -/
theorem Gateway.inbound_pushCommand (gateway : Gateway) (command : OrderCommand)
    {commands : List OrderCommand} (first : gateway.inbound = commands.take 4096) :
    (gateway.pushCommand command).inbound = (commands ++ [command]).take 4096 := by
  have length := congrArg List.length first
  rw [List.length_take] at length
  unfold pushCommand
  split
  · rename_i full
    rw [List.take_append_of_le_length (by omega)]
    exact first
  · rename_i room
    have all : commands.length ≤ 4096 := by omega
    rw [List.take_of_length_le all] at first
    rw [List.take_of_length_le (by rw [List.length_append, List.length_singleton]; omega), ← first]

/-- The table and the inbound queue of a gateway are what the log says, and the log admits every
push. The queue takes the first 4096 commands. -/
structure Tracks (gateway : Gateway) (log : List SessionEvent) : Prop where
  distinct : gateway.sessions.Distinct
  status : ∀ connId, gateway.sessions.status connId = .after connId log
  inbound : gateway.inbound = (log.filterMap SessionEvent.command).take 4096
  justified : Trace.Justified SessionEvent.Admitted log

namespace Tracks

variable {gateway next : Gateway} {log : List SessionEvent} {connId : ConnId}
  {conn : ClientConnection}

/-- An empty table. -/
theorem new : Tracks .new [] := ⟨List.nodup_nil, fun _ => rfl, rfl, .nil⟩

/-- Nothing was logged. -/
theorem keep (tracks : Tracks gateway log) (distinct : next.sessions.Distinct)
    (same : ∀ connId, next.sessions.status connId = gateway.sessions.status connId)
    (inbound : next.inbound = gateway.inbound) : Tracks next log where
  distinct
  status connId := (same connId).trans (tracks.status connId)
  inbound := inbound.trans tracks.inbound
  justified := tracks.justified

/-- An event that pushes nothing was logged. -/
theorem event {event : SessionEvent} (tracks : Tracks gateway log) (silent : event.command = none)
    (distinct : next.sessions.Distinct)
    (moved : ∀ connId,
      next.sessions.status connId = (gateway.sessions.status connId).next connId event)
    (inbound : next.inbound = gateway.inbound) : Tracks next (log ++ [event]) where
  distinct
  status connId := by
    rw [moved, tracks.status, SessionStatus.after_append]
    rfl
  inbound := by
    rw [inbound, tracks.inbound, List.filterMap_append]
    simp [silent]
  justified := by
    apply tracks.justified.snoc
    cases event with
    | pushed command sessions => cases silent
    | created | disconnected | authenticated | loggedOut => trivial

/-- A command of a connection with its flag set was pushed. -/
theorem push (tracks : Tracks gateway log) {command : OrderCommand}
    (found : gateway.sessions.getConnection command.connId = some conn)
    (flag : conn.authenticated = true) :
    Tracks (gateway.advance.pushCommand command)
      (log ++ [.pushed command gateway.sessions]) := by
  have sessions : (gateway.advance.pushCommand command).sessions = gateway.sessions := by
    unfold Gateway.pushCommand
    split <;> rfl
  have inside : SessionStatus.after command.connId log = .loggedIn := by
    rw [← tracks.status, SessionManager.status_of_getConnection found, ClientConnection.status,
      flag, if_pos rfl]
  refine ⟨?_, ?_, ?_, ?_⟩
  · rw [sessions]
    exact tracks.distinct
  · intro connId
    rw [sessions, tracks.status, SessionStatus.after_append]
    rfl
  · rw [List.filterMap_append]
    exact Gateway.inbound_pushCommand gateway.advance command tracks.inbound
  · apply tracks.justified.snoc
    refine ⟨?_, (SessionStatus.meaning _ _).2 inside⟩
    rw [found]
    rfl

/-- A packet was sent. -/
theorem sendPacket {Body : Type} {image : Layout Body} {type : MessageType} {seq ts : UInt64}
    {body : Body} (tracks : Tracks gateway log) :
    Tracks (gateway.sendPacket image connId type seq ts body) log := by
  unfold Gateway.sendPacket
  dsimp only
  split
  · exact tracks
  · exact ⟨tracks.distinct, tracks.status, tracks.inbound, tracks.justified⟩

/-- A write to a connection moves its status as the logged event does. -/
theorem modify {event : SessionEvent} {update : ClientConnection → ClientConnection}
    (tracks : Tracks gateway log) (silent : event.command = none)
    (found : gateway.sessions.getConnection connId = some conn)
    (keeps : ∀ conn, (update conn).connId = conn.connId)
    (own : (update conn).status = conn.status.next connId event)
    (others : ∀ other status, other ≠ connId → SessionStatus.next other status event = status) :
    Tracks { gateway with sessions := gateway.sessions.modify connId update }
      (log ++ [event]) := by
  refine tracks.event silent (tracks.distinct.modify keeps) ?_ rfl
  intro other
  change (gateway.sessions.modify connId update).status other = _
  rw [SessionManager.status_modify found keeps]
  by_cases same : other = connId
  · rw [if_pos same, own, same, SessionManager.status_of_getConnection found]
  · rw [if_neg same, others other _ same]

section

variable (tracks : Tracks gateway log) (found : gateway.sessions.getConnection connId = some conn)
include tracks found

/-- A login succeeds exactly for a connection in the table, with a name and a password. -/
theorem login (packet : LoginRequestBody) (env : PacketEnv) :
    Tracks (gateway.handleLogin connId packet env) (log ++
      if (gateway.sessions.authenticate connId packet.clientId packet.accountId packet.username
        packet.password).1 then [.authenticated connId] else []) := by
  unfold Gateway.handleLogin SessionManager.authenticate
  apply sendPacket
  simp only [found]
  by_cases empty : packet.username[0] = 0 ∨ packet.password[0] = 0
  · simp only [empty, if_true, Bool.false_eq_true, if_false, List.append_nil]
    exact tracks
  · simp only [empty, if_false, if_true]
    apply tracks.modify rfl found
    · exact fun _ => rfl
    · rw [SessionStatus.next, if_pos ⟨rfl, conn.status_ne_absent⟩]
      rfl
    · intro other status apart
      simp [SessionStatus.next, apart]

/-- A logout clears the flag. -/
theorem logout :
    Tracks { gateway with sessions := gateway.sessions.modify connId fun conn =>
      { conn with authenticated := false } } (log ++ [.loggedOut connId]) := by
  apply tracks.modify rfl found
  · exact fun _ => rfl
  · rw [SessionStatus.next, if_pos ⟨rfl, conn.status_ne_absent⟩]
    rfl
  · intro other status apart
    simp [SessionStatus.next, apart]

/-- A logout of a connection that is not logged in is refused, and changes nothing. -/
theorem refusedLogout (clear : conn.authenticated = false) :
    Tracks gateway (log ++ [.loggedOut connId]) := by
  apply tracks.event rfl tracks.distinct _ rfl
  intro other
  by_cases same : other = connId
  · rw [same, SessionManager.status_of_getConnection found, ClientConnection.status, clear]
    simp [SessionStatus.next]
  · simp [SessionStatus.next, same]

end

/-- `handle_packet` logs what it does. -/
theorem handlePacket (tracks : Tracks gateway log) (connId : ConnId) (header : MessageHeader)
    (memory : List UInt8) (env : PacketEnv) :
    Tracks (gateway.handlePacket connId header memory env)
      (log ++ gateway.packetEvents connId header memory env) := by
  unfold Gateway.handlePacket Gateway.packetEvents
  cases found : gateway.sessions.getConnection connId with
  | none => simpa using tracks
  | some conn =>
    dsimp only
    by_cases isLogin : header.type = MessageType.loginRequest.code
    · simp only [if_pos isLogin]
      exact tracks.login found _ env
    by_cases clear : conn.authenticated = false
    · simp only [if_neg isLogin, if_pos clear]
      split
      · exact (tracks.refusedLogout found clear).sendPacket
      · rw [List.append_nil]
        exact tracks.sendPacket
    have flag : conn.authenticated = true := Bool.eq_true_of_not_eq_false clear
    simp only [if_neg isLogin, if_neg clear]
    by_cases isHeartbeat : header.type = MessageType.heartbeat.code
    · have silent : MessageType.heartbeat.code ≠ MessageType.logout.code ∧
          MessageType.heartbeat.code ≠ MessageType.newOrder.code ∧
          MessageType.heartbeat.code ≠ MessageType.cancelOrder.code ∧
          MessageType.heartbeat.code ≠ MessageType.replaceOrder.code := by decide
      simp only [isHeartbeat, if_true, silent, if_false, List.append_nil]
      apply sendPacket
      refine tracks.keep (tracks.distinct.modify ?_) ?_ rfl
      · exact fun _ => rfl
      · exact SessionManager.status_modify_of_keeps (fun _ => rfl) fun _ => rfl
    simp only [if_neg isHeartbeat]
    split
    · exact tracks.logout found
    split
    · exact tracks.push found flag
    split
    · exact tracks.push found flag
    split
    · exact tracks.push found flag
    · simpa using tracks

/-- The parser loop logs what its frames do. -/
theorem loop {buffer : ReadBuffer} {env : Nat → PacketEnv} {fuel : Nat} {loop after : FrameLoop}
    (tracks : Tracks loop.gateway log)
    (ran : FrameLoop.run connId buffer env fuel loop = .ok after) :
    Tracks after.gateway (log ++ FrameLoop.events connId buffer env fuel loop) := by
  induction fuel generalizing loop log with
  | zero =>
    unfold FrameLoop.run at ran
    cases found : loop.nextFrame buffer with
    | none =>
      rw [found] at ran
      cases ran
      simpa [FrameLoop.events] using tracks
    | some decoded =>
      rw [found] at ran
      cases ran
  | succ fuel ih =>
    unfold FrameLoop.run at ran
    unfold FrameLoop.events
    cases found : loop.nextFrame buffer with
    | none =>
      rw [found] at ran
      cases ran
      simpa using tracks
    | some decoded =>
      rw [found] at ran
      dsimp only
      rw [← List.append_assoc]
      exact ih (tracks.handlePacket connId _ _ _) ran

/-- A connection is logged. -/
theorem onConnect (tracks : Tracks gateway log) (connId : ConnId) (handled : List PacketCall) :
    Tracks (gateway.onConnect connId)
      (log ++ GatewayRun.events ⟨gateway, handled⟩ (.connect connId)) := by
  unfold Gateway.onConnect GatewayRun.events
  dsimp only
  rcases gateway.sessions.createConnection_cases connId with same | ⟨absent, created⟩
  · rw [same, if_neg (Nat.lt_irrefl _), List.append_nil]
    exact tracks
  · rw [created, if_pos (by simp)]
    refine tracks.event rfl (tracks.distinct.append absent) ?_ rfl
    intro other
    change SessionManager.status ⟨_⟩ other = _
    rw [SessionManager.status, SessionManager.getConnection_append absent]
    by_cases same : other = connId
    · simp [SessionStatus.next, same, ClientConnection.status]
    · simp only [SessionStatus.next, same, if_false]
      rfl

/-- A disconnection is logged. -/
theorem onDisconnect (tracks : Tracks gateway log) (connId : ConnId) :
    Tracks (gateway.onDisconnect connId) (log ++ [.disconnected connId]) := by
  refine tracks.event rfl (tracks.distinct.removeConnection connId) ?_ rfl
  intro other
  change (gateway.sessions.removeConnection connId).status other = _
  rw [SessionManager.status, tracks.distinct.getConnection_removeConnection]
  by_cases same : other = connId
  · simp [SessionStatus.next, same]
  · simp only [SessionStatus.next, same, if_false]
    rfl

/-- Writes to a buffer are not logged. -/
theorem fill (tracks : Tracks gateway log) (change : ClientConnection → ReadBuffer) :
    Tracks { gateway with sessions := gateway.sessions.modify connId fun conn =>
      { conn with buffer := change conn } } log := by
  refine tracks.keep (tracks.distinct.modify ?_) ?_ rfl
  · exact fun _ => rfl
  · exact SessionManager.status_modify_of_keeps (fun _ => rfl) fun _ => rfl

/-- One callback. -/
theorem step {run after : GatewayRun} {callback : GatewayCallback} (tracks : Tracks run.gateway log)
    (ran : run.step callback = .ok after) : Tracks after.gateway (log ++ run.events callback) := by
  cases callback with
  | connect connId =>
    cases ran
    exact tracks.onConnect connId run.handled
  | disconnect connId =>
    cases ran
    exact tracks.onDisconnect connId
  | read connId data env =>
    change run.onRead connId data env = _ at ran
    unfold GatewayRun.onRead at ran
    unfold GatewayRun.events
    dsimp only
    cases found : run.gateway.sessions.getConnection connId with
    | none =>
      rw [found] at ran
      cases ran
      simpa using tracks
    | some conn =>
      rw [found] at ran
      dsimp only at ran ⊢
      by_cases room : conn.buffer.len + data.length ≤ bufferSize
      · rw [dif_pos room] at ran ⊢
        obtain ⟨loop, parsed, shifted⟩ := bind_eq_ok ran
        cases shifted
        exact ((tracks.fill _).loop parsed).fill _
      · rw [dif_neg room] at ran ⊢
        cases ran
        have gone := tracks.onDisconnect connId
        exact ⟨gone.distinct, gone.status, gone.inbound, gone.justified⟩

end Tracks

/-- A callback with long frames returns. -/
theorem GatewayRun.step_returns {run : GatewayRun} {callback : GatewayCallback}
    (long : run.LongFrames callback) : ∃ next, run.step callback = .ok next := by
  cases callback with
  | connect connId => exact ⟨_, rfl⟩
  | disconnect connId => exact ⟨_, rfl⟩
  | read connId data env =>
    change ∃ next, run.onRead connId data env = .ok next
    cases found : run.gateway.sessions.getConnection connId with
    | none => exact ⟨run, by simp only [onRead, found]⟩
    | some conn =>
      by_cases room : conn.buffer.len + data.length ≤ bufferSize
      · obtain ⟨frames, residue, cut, each⟩ :=
          (long conn found room).exists_cut fun _ => long_ne_nil
        have few := cut.length_le fun frame member => long_ne_nil (each frame member)
        rw [List.length_append, conn.buffer.pending_length] at few
        obtain ⟨next, _, _, ran, _⟩ := onRead_of_cut env found room cut each (Nat.le_trans few room)
        exact ⟨next, ran⟩
      · exact ⟨_, by simp only [onRead, found, room, dif_neg, not_false_eq_true]; rfl⟩

namespace LoggedRun

/-- A run whose reads have long frames returns, and its log follows it. -/
theorem run_tracks {logged : LoggedRun} {callbacks : List GatewayCallback}
    (tracks : Tracks logged.run.gateway logged.log)
    (long : Along GatewayRun.LongFrames GatewayRun.step logged.run callbacks) :
    ∃ final, runAll step logged callbacks = .ok final ∧
      runAll GatewayRun.step logged.run callbacks = .ok final.run ∧
      Tracks final.run.gateway final.log := by
  induction callbacks generalizing logged with
  | nil => exact ⟨logged, rfl, rfl, tracks⟩
  | cons callback rest ih =>
    obtain ⟨here, later⟩ := long
    obtain ⟨next, ran⟩ := GatewayRun.step_returns here
    rw [ran] at later
    have stepped : logged.step callback = .ok ⟨next, logged.log ++ logged.run.events callback⟩ := by
      rw [step, ran]
      rfl
    simp only [runAll, stepped, ran]
    exact ih (tracks.step ran) later

end LoggedRun

/-- Whatever callbacks are made on whatever connections, as long as frames are at least as long as
their headers, every command is pushed for a connection that exists and is logged in: since it was
last created a login succeeded, and it has neither logged out nor been disconnected after that.
What the inbound queue takes is what was pushed. -/
theorem pushed_of_loggedIn {callbacks : List GatewayCallback}
    (long : Along GatewayRun.LongFrames GatewayRun.step .new callbacks) :
    ∃ final, runAll LoggedRun.step .new callbacks = .ok final ∧
      runAll GatewayRun.step .new callbacks = .ok final.run ∧
      final.run.gateway.inbound = (final.log.filterMap SessionEvent.command).take 4096 ∧
      ∀ early command sessions late, final.log = early ++ .pushed command sessions :: late →
        (sessions.getConnection command.connId).isSome ∧ LoggedIn command.connId early := by
  obtain ⟨final, logged, ran, tracks⟩ := @LoggedRun.run_tracks .new callbacks .new long
  refine ⟨final, logged, ran, tracks.inbound, ?_⟩
  intro early command sessions late split
  exact tracks.justified early _ late split

/-- A `LoginRequestPacket` and a `NewOrderPacket`. -/
def loginAndOrder : List Outgoing :=
  [⟨.loginRequest, ⟨⟨0, 0, 0, 0, 0⟩, ⟨5, 6, .replicate 16 97, .replicate 16 98⟩⟩, .loginRequest, 1,
      10, 8192, by decide⟩,
    ⟨.newOrder, ⟨⟨0, 0, 0, 0, 0⟩, ⟨1, 2, 6, 100, 3, 0, 0, 0, .replicate 5 0⟩⟩, .newOrder, 2, 20,
      8192, by decide⟩]

/-- The second connection moves to the slot of the first one before its client logs in. -/
def moveAndLogin : List GatewayCallback :=
  [.connect 7, .connect 8, .disconnect 7,
    .read 8 (loginAndOrder.map Outgoing.frame).flatten fun _ => ⟨0, 0, [], 0⟩]

/-- A connection that changed its slot. -/
theorem pushed_of_loggedIn_moved :
    ∃ final, runAll LoggedRun.step .new moveAndLogin = .ok final ∧
      final.run.gateway.inbound.map OrderCommand.connId = [8] ∧
      ∀ early command sessions late, final.log = early ++ .pushed command sessions :: late →
        (sessions.getConnection command.connId).isSome ∧ LoggedIn command.connId early := by
  have framed : ∀ frame ∈ loginAndOrder.map Outgoing.frame, WellFramed frame := by
    intro frame member
    obtain ⟨packet, _, rfl⟩ := List.mem_map.mp member
    exact packet.frame_wellFramed
  have long : Along GatewayRun.LongFrames GatewayRun.step .new moveAndLogin := by
    refine ⟨trivial, trivial, trivial, ?_, ?_⟩
    · intro conn found _
      have fresh : some { connId := 8 } = some conn := found
      cases fresh
      have cut := @Framing.cut_flatten _ frameSize (loginAndOrder.map Outgoing.frame) [] []
        frameSize_stable (by simpa using fun frame member => (framed frame member).whole) rfl
      rw [List.append_nil] at cut
      exact cut.frames fun frame member => (framed frame member).header
    · dsimp only
      split <;> trivial
  obtain ⟨final, logged, ran, _, admitted⟩ := pushed_of_loggedIn long
  obtain ⟨run, same, commands⟩ : ∃ run, runAll GatewayRun.step .new moveAndLogin = .ok run ∧
      run.gateway.inbound.map OrderCommand.connId = [8] := Returns.exists (by decide +kernel)
  rw [ran] at same
  cases same
  exact ⟨final, logged, commands, admitted⟩

end FluxTrade
