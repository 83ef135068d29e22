import FluxTrade.Gateway.Access
import FluxTrade.Gateway.Progress

/-!
# The account of a session

A login binds a connection to an account, and the session table keeps that
account for as long as the connection is logged in. The commands of the
connection do not take it from there: they carry the account that their own
packet names.
-/

namespace FluxTrade

open Execution MessageType GatewayRun

/-- What concerns the accounts of sessions. -/
inductive AccountEvent where
  /-- `authenticate` returned true for a connection and an account. -/
  | authenticated (connId : ConnId) (accountId : AccountId)
  /-- `push` of the inbound queue was called, in front of these sessions. -/
  | pushed (command : OrderCommand) (sessions : SessionManager)

namespace AccountEvent

/-- An event of a packet that names an account where a login would. -/
def ofSession (accountId : AccountId) : SessionEvent → Option AccountEvent
  | .authenticated connId => some (authenticated connId accountId)
  | .pushed command sessions => some (pushed command sessions)
  | _ => none

/-- The account that an event binds a connection to. -/
def login (connId : ConnId) : AccountEvent → Option AccountId
  | authenticated other accountId => if other = connId then some accountId else none
  | pushed _ _ => none

/-- The account with which a connection was most recently authenticated. -/
def lastAccount (connId : ConnId) (past : List AccountEvent) : Option AccountId :=
  (past.filterMap (login connId)).getLast?

/-- A pushed command carries the account with which its connection was most recently
authenticated. -/
def OwnAccount (past : List AccountEvent) : AccountEvent → Prop
  | pushed command _ => lastAccount command.connId past = some command.accountId
  | authenticated _ _ => True

/-- A pushed command carries the account that the table has for its connection. -/
def TableAccount : AccountEvent → Prop
  | pushed command sessions =>
    (sessions.getConnection command.connId).map ClientConnection.accountId =
      some command.accountId
  | authenticated _ _ => True

instance (past : List AccountEvent) (event : AccountEvent) :
    Decidable (OwnAccount past event) := by
  cases event <;> dsimp only [OwnAccount] <;> infer_instance

/-- In front of a push, the table has the account of the most recent login. -/
def Bound (past : List AccountEvent) : AccountEvent → Prop
  | pushed command sessions =>
    lastAccount command.connId past =
      (sessions.getConnection command.connId).map ClientConnection.accountId
  | authenticated _ _ => True

/-- A bound event names its own account. -/
theorem Bound.ownAccount_iff {past : List AccountEvent} {event : AccountEvent}
    (bound : Bound past event) : OwnAccount past event ↔ event.TableAccount := by
  cases event with
  | authenticated connId accountId => exact Iff.rfl
  | pushed command sessions =>
    unfold Bound at bound
    unfold OwnAccount TableAccount
    dsimp only at bound ⊢
    rw [bound]

/-- The most recent login is the last event or an earlier one. -/
theorem lastAccount_snoc (connId : ConnId) (past : List AccountEvent) (event : AccountEvent) :
    lastAccount connId (past ++ [event]) = (event.login connId).or (lastAccount connId past) := by
  unfold lastAccount
  rw [List.filterMap_append]
  cases named : event.login connId <;> simp [named]

end AccountEvent

/-! ## The log of a run -/

/-- The events of one `handle_packet`; the account of a login is the one that its packet names. -/
def Gateway.accountEvents (gateway : Gateway) (connId : ConnId) (header : MessageHeader)
    (memory : List UInt8) (env : PacketEnv) : List AccountEvent :=
  (gateway.packetEvents connId header memory env).filterMap
    (AccountEvent.ofSession ((Packet.image LoginRequestBody.image).decode memory).body.accountId)

/-- The account that an order, cancel or replace packet names. -/
def MessageHeader.namedAccount (header : MessageHeader) (memory : List UInt8) :
    Option AccountId :=
  let read {Body : Type} (image : Layout Body) : Body := ((Packet.image image).decode memory).body
  if header.type = newOrder.code then some (read NewOrderBody.image).accountId
  else if header.type = cancelOrder.code then
    some (read CancelOrderBody.image).accountId
  else if header.type = replaceOrder.code then
    some (read ReplaceOrderBody.image).accountId
  else none

/-- A call of `handle_packet`, with the gateway in front of it. -/
structure HandledPacket where
  gateway : Gateway
  call : PacketCall

namespace HandledPacket

/-- What the call does to the accounts of sessions. -/
def events (packet : HandledPacket) : List AccountEvent :=
  packet.gateway.accountEvents packet.call.connId packet.call.header packet.call.memory
    packet.call.env

/-- On a connection that is logged in, an order, cancel or replace frame names the account of the
session. -/
def NamesSession (packet : HandledPacket) : Prop :=
  ∀ conn ∈ packet.gateway.sessions.getConnection packet.call.connId, conn.authenticated = true →
    ∀ account ∈ packet.call.header.namedAccount packet.call.memory, account = conn.accountId

instance (packet : HandledPacket) : Decidable packet.NamesSession :=
  have (conn : ClientConnection) : Decidable (∀ account ∈
      packet.call.header.namedAccount packet.call.memory, account = conn.accountId) :=
    Option.decidableForallMem _
  Option.decidableForallMem _

/-- The commands that a call pushes carry the account of the session exactly if its frame names
it. -/
theorem namesSession_iff (packet : HandledPacket) :
    packet.NamesSession ↔ ∀ event ∈ packet.events, event.TableAccount := by
  obtain ⟨gateway, call⟩ := packet
  let read {Body : Type} (image : Layout Body) := ((Packet.image image).decode call.memory).body
  have apart {code : UInt16} (session : code = loginRequest.code ∨ code = logout.code) :
      code ≠ newOrder.code ∧ code ≠ cancelOrder.code ∧ code ≠ replaceOrder.code := by
    rcases session with rfl | rfl <;> decide
  unfold NamesSession events Gateway.accountEvents Gateway.packetEvents MessageHeader.namedAccount
  dsimp only
  cases found : gateway.sessions.getConnection call.connId with
  | none => simp
  | some conn =>
    have pushes (command : OrderCommand) (own : command.connId = call.connId) :
        (∀ account ∈ some command.accountId, account = conn.accountId) ↔
          ∀ event ∈ [AccountEvent.pushed command gateway.sessions], event.TableAccount := by
      simp [AccountEvent.TableAccount, own, found, eq_comm]
    simp only [Option.mem_some_iff, forall_eq']
    by_cases isLogin : call.header.type = loginRequest.code
    · simp only [isLogin, apart (.inl rfl), if_true, if_false]
      split <;> simp [AccountEvent.ofSession, AccountEvent.TableAccount]
    by_cases isLogout : call.header.type = logout.code
    · simp only [isLogout, apart (.inr rfl), if_true, if_false]
      split <;> simp [AccountEvent.ofSession, AccountEvent.TableAccount]
    by_cases clear : conn.authenticated = false
    · simp [isLogin, isLogout, clear]
    simp only [isLogin, isLogout, clear, if_false, true_imp_iff, Bool.true_eq_false]
    split
    · exact pushes (gateway.newOrderCommand call.connId (read NewOrderBody.image) call.env.now) rfl
    split
    · exact pushes
        (gateway.cancelOrderCommand call.connId (read CancelOrderBody.image) call.env.now) rfl
    split
    · exact pushes
        (gateway.replaceOrderCommand call.connId (read ReplaceOrderBody.image) call.env.now) rfl
    · simp

end HandledPacket

/-- The first frames that a parser loop handles. -/
def FrameLoop.handledPackets (connId : ConnId) (buffer : ReadBuffer) (env : Nat → PacketEnv) :
    Nat → FrameLoop → List HandledPacket
  | 0, _ => []
  | frames + 1, loop =>
    match loop.nextFrame buffer with
    | none => []
    | some decoded =>
      let here := env loop.calls.length
      ⟨loop.gateway, loop.call connId buffer decoded here⟩ ::
        handledPackets connId buffer env frames (loop.handle connId buffer decoded here)

/-- The packets that a callback handles, up to a number of frames where it reads. -/
def GatewayRun.handledPackets (run : GatewayRun) (frames : Nat) :
    GatewayCallback → List HandledPacket
  | .connect _ => []
  | .disconnect _ => []
  | .read connId data env =>
    match run.gateway.sessions.getConnection connId with
    | none => []
    | some conn =>
      if room : conn.buffer.len + data.length ≤ bufferSize then
        FrameLoop.handledPackets connId (conn.buffer.append data room) env frames
          (run.startLoop connId (conn.buffer.append data room))
      else []

/-- A run with the packets that it has handled so far. -/
structure AccountedRun where
  run : GatewayRun
  handled : List HandledPacket

namespace AccountedRun

/-- A gateway that has handled nothing. -/
def new : AccountedRun := ⟨.new, []⟩

/-- A callback of the transport. -/
def step (logged : AccountedRun) (callback : GatewayCallback) : Except Fault AccountedRun :=
  (logged.run.step callback).map fun run =>
    ⟨run, logged.handled ++ logged.run.handledPackets bufferSize callback⟩

/-- The packets up to a number of frames of one more callback, which need not return. -/
def during (logged : AccountedRun) (callback : GatewayCallback) (frames : Nat) :
    List HandledPacket :=
  logged.handled ++ logged.run.handledPackets frames callback

end AccountedRun

/-! ## The table keeps the account of a login -/

/-- Nobody logs in: what is logged in afterwards was so before, with the same account. -/
structure SessionManager.Quiet (before after : SessionManager) : Prop where
  distinct : before.Distinct → after.Distinct
  account : before.Distinct → ∀ connId conn, after.getConnection connId = some conn →
    conn.authenticated = true → ∃ old, before.getConnection connId = some old ∧
      old.authenticated = true ∧ old.accountId = conn.accountId

namespace SessionManager.Quiet

variable {sessions : SessionManager} {connId : ConnId}

/-- Nothing changed. -/
theorem refl (sessions : SessionManager) : sessions.Quiet sessions :=
  ⟨id, fun _ _ conn found flag => ⟨conn, found, flag, rfl⟩⟩

/-- A write that logs nobody in. -/
theorem modify {update : ClientConnection → ClientConnection}
    (keeps : ∀ conn, (update conn).connId = conn.connId)
    (quiet : ∀ conn, (update conn).authenticated = true →
      conn.authenticated = true ∧ conn.accountId = (update conn).accountId) :
    sessions.Quiet (sessions.modify connId update) where
  distinct before := before.modify keeps
  account _ other conn found flag := by
    by_cases same : other = connId
    · rw [same, getConnection_modify keeps] at found
      obtain ⟨old, there, rfl⟩ := Option.map_eq_some_iff.mp found
      exact ⟨old, same ▸ there, (quiet old flag).1, (quiet old flag).2⟩
    · rw [getConnection_modify_of_ne keeps same] at found
      exact ⟨conn, found, flag, rfl⟩

/-- A new connection is not logged in. -/
theorem createConnection (sessions : SessionManager) (connId : ConnId) :
    sessions.Quiet (sessions.createConnection connId) := by
  rcases sessions.createConnection_cases connId with same | ⟨absent, created⟩
  · rw [same]
    exact refl sessions
  · rw [created]
    refine ⟨fun distinct => distinct.append absent, fun _ other conn found flag => ?_⟩
    rw [getConnection_append absent] at found
    by_cases same : other = connId
    · rw [if_pos same] at found
      cases found
      cases flag
    · rw [if_neg same] at found
      exact ⟨conn, found, flag, rfl⟩

/-- Nor does a removal log in. -/
theorem removeConnection (sessions : SessionManager) (connId : ConnId) :
    sessions.Quiet (sessions.removeConnection connId) where
  distinct before := before.removeConnection connId
  account before other conn found flag := by
    rw [before.getConnection_removeConnection] at found
    by_cases same : other = connId
    · rw [if_pos same] at found
      cases found
    · rw [if_neg same] at found
      exact ⟨conn, found, flag, rfl⟩

end SessionManager.Quiet

/-- The table has the account of the most recent login for every connection that is logged in, and
had it for every command that was pushed. -/
structure Binds (sessions : SessionManager) (log : List AccountEvent) : Prop where
  distinct : sessions.Distinct
  account : ∀ connId conn, sessions.getConnection connId = some conn →
    conn.authenticated = true → AccountEvent.lastAccount connId log = some conn.accountId
  justified : Trace.Justified AccountEvent.Bound log

namespace Binds

variable {sessions after : SessionManager} {log : List AccountEvent} {connId : ConnId}
  {conn : ClientConnection}
variable {command : OrderCommand} {gateway : Gateway} {run : GatewayRun}

/-- An empty table. -/
theorem new : Binds .new [] where
  distinct := List.nodup_nil
  account _ _ found := by cases found
  justified := .nil

/-- Quiet changes are not logged. -/
theorem quiet (binds : Binds sessions log) (same : sessions.Quiet after) : Binds after log where
  distinct := same.distinct binds.distinct
  account other conn found flag := by
    obtain ⟨old, there, flagged, account⟩ := same.account binds.distinct other conn found flag
    rw [binds.account other old there flagged, account]
  justified := binds.justified

/-- A login binds its connection. -/
theorem login (binds : Binds sessions log)
    (found : sessions.getConnection connId = some conn) (clientId accountId : UInt32) :
    Binds (sessions.modify connId fun conn =>
        { conn with clientId, accountId, authenticated := true, lastHeartbeatTs := 0 })
      (log ++ [.authenticated connId accountId]) where
  distinct := binds.distinct.modify fun _ => rfl
  account other last there flag := by
    by_cases same : other = connId
    · subst same
      rw [SessionManager.getConnection_modify (by exact fun _ => rfl), found] at there
      cases there
      simp [AccountEvent.lastAccount_snoc, AccountEvent.login]
    · rw [SessionManager.getConnection_modify_of_ne (by exact fun _ => rfl) same] at there
      rw [AccountEvent.lastAccount_snoc, AccountEvent.login, if_neg (Ne.symm same)]
      exact binds.account other last there flag
  justified := binds.justified.snoc trivial

/-- A command is pushed for a connection that is logged in. -/
theorem push (binds : Binds sessions log)
    (found : sessions.getConnection command.connId = some conn) (flag : conn.authenticated = true) :
    Binds sessions (log ++ [.pushed command sessions]) where
  distinct := binds.distinct
  account other last there flagged := by
    rw [AccountEvent.lastAccount_snoc]
    exact binds.account other last there flagged
  justified := by
    apply binds.justified.snoc
    unfold AccountEvent.Bound
    dsimp only
    rw [found, binds.account _ conn found flag]
    rfl

/-- An answer leaves the table. -/
theorem sessions_sendPacket {Body : Type} {image : Layout Body} {type : MessageType}
    {seq ts : UInt64} {body : Body} :
    (gateway.sendPacket image connId type seq ts body).sessions = gateway.sessions := by
  unfold Gateway.sendPacket
  dsimp only
  split <;> rfl

/-- So does a push. -/
theorem sessions_pushCommand :
    (gateway.advance.pushCommand command).sessions = gateway.sessions := by
  unfold Gateway.pushCommand
  split <;> rfl

/-- `handle_packet` logs its logins and pushes. -/
theorem handlePacket (binds : Binds gateway.sessions log) (connId : ConnId) (header : MessageHeader)
    (memory : List UInt8) (env : PacketEnv) :
    Binds (gateway.handlePacket connId header memory env).sessions
      (log ++ gateway.accountEvents connId header memory env) := by
  unfold Gateway.handlePacket Gateway.accountEvents Gateway.packetEvents
  cases found : gateway.sessions.getConnection connId with
  | none => simpa using binds
  | some conn =>
    dsimp only
    by_cases isLogin : header.type = loginRequest.code
    · simp only [if_pos isLogin, Gateway.handleLogin, sessions_sendPacket,
        SessionManager.authenticate, found]
      split
      · simpa using binds
      · exact binds.login found _ _
    by_cases clear : conn.authenticated = false
    · simp only [if_neg isLogin, if_pos clear, sessions_sendPacket]
      split
      · change Binds gateway.sessions (log ++ [])
        simpa using binds
      · simpa using binds
    have flag : conn.authenticated = true := Bool.eq_true_of_not_eq_false clear
    simp only [if_neg isLogin, if_neg clear]
    by_cases isHeartbeat : header.type = heartbeat.code
    · have silent : heartbeat.code ≠ logout.code ∧
          heartbeat.code ≠ newOrder.code ∧
          heartbeat.code ≠ cancelOrder.code ∧
          heartbeat.code ≠ replaceOrder.code := by decide
      simp only [isHeartbeat, if_true, silent, if_false, List.filterMap_nil, List.append_nil,
        sessions_sendPacket]
      exact binds.quiet (.modify (fun _ => rfl) fun _ set => ⟨set, rfl⟩)
    simp only [if_neg isHeartbeat]
    split
    · change Binds (gateway.sessions.modify connId fun conn =>
        { conn with authenticated := false }) (log ++ [])
      rw [List.append_nil]
      exact binds.quiet (.modify (fun _ => rfl) fun _ set => by cases set)
    split
    · rw [sessions_pushCommand]
      exact binds.push found flag
    split
    · rw [sessions_pushCommand]
      exact binds.push found flag
    split
    · rw [sessions_pushCommand]
      exact binds.push found flag
    · simpa using binds

/-- The parser loop logs the logins and pushes of its frames, also of the first ones only. -/
theorem loop {buffer : ReadBuffer} {env : Nat → PacketEnv} {loop : FrameLoop}
    (binds : Binds loop.gateway.sessions log) (frames : Nat) :
    ∃ last, Binds last (log ++
        (FrameLoop.handledPackets connId buffer env frames loop).flatMap HandledPacket.events) ∧
      ∀ after, FrameLoop.run connId buffer env frames loop = .ok after →
        after.gateway.sessions = last := by
  induction frames generalizing loop log with
  | zero =>
    refine ⟨loop.gateway.sessions, by simpa [FrameLoop.handledPackets] using binds, ?_⟩
    intro after ran
    cases found : loop.nextFrame buffer with
    | none =>
      simp only [FrameLoop.run, found] at ran
      cases ran
      rfl
    | some decoded =>
      simp only [FrameLoop.run, found] at ran
      cases ran
  | succ frames ih =>
    cases found : loop.nextFrame buffer with
    | none =>
      simp only [FrameLoop.handledPackets, FrameLoop.run, found, List.flatMap_nil,
        List.append_nil]
      refine ⟨loop.gateway.sessions, binds, ?_⟩
      intro after ran
      cases ran
      rfl
    | some decoded =>
      simp only [FrameLoop.handledPackets, FrameLoop.run, found, List.flatMap_cons,
        ← List.append_assoc]
      exact ih (binds.handlePacket connId _ _ _)

/-- Writes to a buffer log nobody in. -/
theorem fill (binds : Binds sessions log) (change : ClientConnection → ReadBuffer) :
    Binds (sessions.modify connId fun conn => { conn with buffer := change conn }) log :=
  binds.quiet (.modify (fun _ => rfl) fun _ set => ⟨set, rfl⟩)

/-- The first frames of a callback. -/
theorem during (binds : Binds run.gateway.sessions log) (frames : Nat)
    (callback : GatewayCallback) :
    ∃ last, Binds last
      (log ++ (run.handledPackets frames callback).flatMap HandledPacket.events) := by
  cases callback with
  | connect connId => exact ⟨_, by simpa [handledPackets] using binds⟩
  | disconnect connId => exact ⟨_, by simpa [handledPackets] using binds⟩
  | read connId data env =>
    unfold handledPackets
    dsimp only
    split
    · exact ⟨_, by simpa using binds⟩
    · split
      · obtain ⟨last, bound, _⟩ := @loop _ connId _ env
          (run.startLoop connId _) (binds.fill fun _ => _) frames
        exact ⟨last, bound⟩
      · exact ⟨_, by simpa using binds⟩

/-- One callback. -/
theorem step {next : GatewayRun} {callback : GatewayCallback}
    (binds : Binds run.gateway.sessions log) (ran : run.step callback = .ok next) :
    Binds next.gateway.sessions
      (log ++ (run.handledPackets bufferSize callback).flatMap HandledPacket.events) := by
  cases callback with
  | connect connId =>
    cases ran
    change Binds (run.gateway.sessions.createConnection connId) (log ++ [])
    rw [List.append_nil]
    exact binds.quiet (.createConnection _ connId)
  | disconnect connId =>
    cases ran
    change Binds (run.gateway.sessions.removeConnection connId) (log ++ [])
    rw [List.append_nil]
    exact binds.quiet (.removeConnection _ connId)
  | read connId data env =>
    change run.onRead connId data env = _ at ran
    unfold handledPackets
    dsimp only
    cases found : run.gateway.sessions.getConnection connId with
    | none =>
      simp only [onRead, found] at ran
      cases ran
      simpa using binds
    | some conn =>
      dsimp only
      by_cases room : conn.buffer.len + data.length ≤ bufferSize
      · rw [dif_pos room]
        rw [onRead_eq env found room] at ran
        obtain ⟨last, bound, ends⟩ := @loop _ connId (conn.buffer.append data room) env
          (run.startLoop connId (conn.buffer.append data room)) (binds.fill fun _ => _) bufferSize
        cases parsed : FrameLoop.run connId (conn.buffer.append data room) env bufferSize
            (run.startLoop connId (conn.buffer.append data room)) with
        | error fault =>
          rw [parsed] at ran
          cases ran
        | ok after =>
          rw [parsed] at ran
          cases ran
          rw [← ends after parsed] at bound
          exact bound.fill _
      · simp only [onRead, found, dif_neg room] at ran
        cases ran
        rw [dif_neg room, List.flatMap_nil, List.append_nil]
        exact binds.quiet (.removeConnection _ connId)

end Binds

namespace AccountedRun

/-- Every run is logged. -/
theorem run_binds {callbacks : List GatewayCallback} {logged : AccountedRun}
    (ran : runAll step .new callbacks = .ok logged) :
    Binds logged.run.gateway.sessions (logged.handled.flatMap HandledPacket.events) := by
  refine runAll_invariant (motive := fun logged => Binds logged.run.gateway.sessions
    (logged.handled.flatMap HandledPacket.events)) Binds.new ?_ ran
  intro before callback after binds taken
  unfold step at taken
  cases stepped : before.run.step callback with
  | error fault =>
    rw [stepped] at taken
    cases taken
  | ok next =>
    rw [stepped] at taken
    cases taken
    rw [List.flatMap_append]
    exact binds.step stepped

/-- Whatever callbacks have been made on whatever connections, and however far one more has come:
every pushed command carries the account with which its connection was most recently authenticated
exactly if every order, cancel and replace frame that was handled on a connection that was logged in
names the account that the session table had for it. -/
theorem ownAccount_iff_namesSession {callbacks : List GatewayCallback} {logged : AccountedRun}
    (ran : runAll step .new callbacks = .ok logged) (callback : GatewayCallback) (frames : Nat) :
    Trace.Justified AccountEvent.OwnAccount
        ((logged.during callback frames).flatMap HandledPacket.events) ↔
      ∀ packet ∈ logged.during callback frames, packet.NamesSession := by
  obtain ⟨last, binds⟩ := (run_binds ran).during frames callback
  rw [← List.flatMap_append] at binds
  change Binds last ((logged.during callback frames).flatMap HandledPacket.events) at binds
  simp only [HandledPacket.namesSession_iff]
  constructor
  · intro own packet handled event member
    obtain ⟨early, late, split⟩ :=
      List.append_of_mem (List.mem_flatMap.mpr ⟨packet, handled, member⟩)
    exact (binds.justified early event late split).ownAccount_iff.mp (own early event late split)
  · intro table early event late split
    have member : event ∈ (logged.during callback frames).flatMap HandledPacket.events := by
      rw [split]
      exact List.mem_append_right _ List.mem_cons_self
    obtain ⟨packet, handled, here⟩ := List.mem_flatMap.mp member
    exact (binds.justified early event late split).ownAccount_iff.mpr
      (table packet handled event here)

/-- A login with one account and an order that names another. -/
def loginThenOrder (account other : AccountId) : List UInt8 :=
  (Packet.image LoginRequestBody.image).encode
      ⟨⟨64, loginRequest.code, 0, 0, 0⟩,
        ⟨5, account, .replicate 16 97, .replicate 16 98⟩⟩ ++
    (Packet.image NewOrderBody.image).encode
      ⟨⟨64, newOrder.code, 0, 0, 0⟩, ⟨1, 2, other, 100, 3, 0, 0, 1, .replicate 5 0⟩⟩

/-- Connection 1 has been made. -/
def connected : AccountedRun := ⟨⟨Gateway.new.onConnect 1, []⟩, []⟩

/-- A client that logs in with account 6 and trades for it. -/
theorem ownAccount_iff_namesSession_honest :
    let packets := connected.during (.read 1 (loginThenOrder 6 6) fun _ => ⟨0, 0, [], 0⟩) 2
    packets.map (fun packet => packet.call.header.namedAccount packet.call.memory) =
        [none, some 6] ∧
      Trace.Justified AccountEvent.OwnAccount (packets.flatMap HandledPacket.events) :=
  ⟨by decide +kernel,
    (@ownAccount_iff_namesSession [.connect 1] connected rfl _ 2).mpr (by decide +kernel)⟩

/-- The events of a client that logs in with account 6 and trades for account 7. -/
def foreignLog : List AccountEvent :=
  (connected.during (.read 1 (loginThenOrder 6 7) fun _ => ⟨0, 0, [], 0⟩) 2).flatMap
    HandledPacket.events

/-- The command for account 7 is pushed for a session of account 6. -/
theorem not_ownAccount_foreign :
    runAll step .new [.connect 1] = .ok connected ∧
      Returns (fun run => run.gateway.inbound.map OrderCommand.accountId = [7])
        (connected.run.step (.read 1 (loginThenOrder 6 7) fun _ => ⟨0, 0, [], 0⟩)) ∧
      ¬Trace.Justified AccountEvent.OwnAccount foreignLog := by
  have second : ∃ inside : 1 < foreignLog.length,
      ¬AccountEvent.OwnAccount (foreignLog.take 1) (foreignLog.get ⟨1, inside⟩) := by
    decide +kernel
  exact ⟨rfl, by decide +kernel, Trace.Justified.not_of_get second⟩

end AccountedRun

end FluxTrade
