import FluxTrade.Gateway.Gateway

/-!
# Framing

The buffer of a connection holds what has arrived of the next frame, so it has
room for every chunk of at most 4096 bytes, and `handle_packet` is called once for
each frame, in order, however the stream is cut into chunks.
-/

namespace FluxTrade

open Execution MessageHeader Framing List

/-- A call hands over a frame: its own header, and memory that begins with its bytes. -/
structure PacketCall.Hands (connId : ConnId) (frame : List UInt8) (call : PacketCall) : Prop where
  connId_eq : call.connId = connId
  header_eq : call.header = image.decode frame
  frame_eq : call.frame = frame

namespace FrameLoop

variable {connId : ConnId} {buffer : ReadBuffer} {loop : FrameLoop}

/-- The loop stops. -/
theorem nextFrame_eq_none (stops : buffer.pending.drop loop.processed = [] ∨
    next frameSize (buffer.pending.drop loop.processed) = none) :
    loop.nextFrame buffer = none := by
  unfold nextFrame
  split
  · rename_i more
    rcases stops with empty | waits
    · have none := drop_eq_nil_iff.mp empty
      rw [buffer.pending_length] at none
      omega
    · rw [PacketDecoder.decode_eq, waits]
      rfl
  · rfl

/-- The loop goes on. -/
theorem nextFrame_eq_some {frame rest : List UInt8}
    (some : buffer.pending.drop loop.processed ≠ [])
    (first : next frameSize (buffer.pending.drop loop.processed) = .some (frame, rest)) :
    ∃ header payload, loop.nextFrame buffer = .some ⟨header, payload, frame.length⟩ ∧
      (image.width ≤ frame.length → header = image.decode frame) := by
  have joined := (next_eq_some first).1
  have more : loop.processed < buffer.len := by
    rw [← buffer.pending_length]
    exact Nat.lt_of_not_le fun all => some (drop_eq_nil_of_le all)
  rw [nextFrame, if_pos more, PacketDecoder.decode_eq, first, Option.map_some]
  refine ⟨_, _, rfl, fun long => ?_⟩
  rw [joined, image_local frame rest long]

/-- The memory that a call is given begins with the frame. -/
theorem frame_call {header : MessageHeader} {payload frame rest : List UInt8} (env : PacketEnv)
    (joined : buffer.pending.drop loop.processed = frame ++ rest) :
    (loop.call connId buffer ⟨header, payload, frame.length⟩ env).frame = frame := by
  have received : buffer.bytes.drop loop.processed =
      frame ++ (rest ++ (buffer.bytes.drop loop.processed).drop
        (buffer.len - loop.processed)) := by
    rw [ReadBuffer.pending, drop_take] at joined
    rw [← append_assoc, ← joined, take_append_drop]
  change (buffer.bytes.drop loop.processed ++ env.beyond).take frame.length = frame
  rw [received, append_assoc, take_left]

/-- The loop hands the frames of a cut stream to `handle_packet` and stops in front of the residue.
A frame as long as a header has its own. -/
theorem run_of_cut {env : Nat → PacketEnv} {frames : List (List UInt8)} {residue : List UInt8}
    {fuel : Nat} (cut : Cut frameSize (buffer.pending.drop loop.processed) frames residue)
    (enough : frames.length ≤ fuel) :
    ∃ after calls, run connId buffer env fuel loop = .ok after ∧
      after.calls = loop.calls ++ calls ∧ calls.map PacketCall.frame = frames ∧
      (∀ call ∈ calls, call.connId = connId ∧
        (image.width ≤ call.frame.length → call.Hands connId call.frame)) ∧
      after.processed = loop.processed + frames.flatten.length ∧
      buffer.pending.drop after.processed = residue ∧
      after.gateway = calls.foldl Gateway.handle loop.gateway := by
  generalize start : buffer.pending.drop loop.processed = bytes at cut
  induction cut generalizing loop fuel with
  | wait stops =>
    rw [← start] at stops
    have none := nextFrame_eq_none stops
    refine ⟨loop, [], ?_, by simp, rfl, by simp, rfl, start, rfl⟩
    cases fuel <;> simp only [run, none]
  | @take bytes frame rest frames residue nonempty first later ih =>
    rw [← start] at nonempty first
    obtain ⟨header, payload, found, own⟩ := nextFrame_eq_some nonempty first
    have joined := (next_eq_some first).1
    obtain ⟨fuel, rfl⟩ : ∃ less, fuel = less + 1 :=
      ⟨fuel - 1, by rw [length_cons] at enough; omega⟩
    have rest_eq : buffer.pending.drop (loop.processed + frame.length) = rest := by
      rw [← drop_drop, joined, drop_left]
    obtain ⟨after, calls, ran, called, framed, each, processed, left, folded⟩ :=
      @ih (loop.handle connId buffer ⟨header, payload, frame.length⟩ (env loop.calls.length)) fuel
        (by rw [length_cons] at enough; omega) rest_eq
    let call := loop.call connId buffer ⟨header, payload, frame.length⟩ (env loop.calls.length)
    have begins : call.frame = frame := frame_call _ joined
    refine ⟨after, call :: calls, ?_, ?_, ?_, ?_, ?_, left, folded⟩
    · simp only [run, found]
      exact ran
    · rw [called]
      exact append_assoc _ _ _
    · rw [map_cons, framed, begins]
    · refine forall_mem_cons.mpr ⟨⟨rfl, fun long => ⟨rfl, ?_, rfl⟩⟩, each⟩
      rw [begins] at long ⊢
      exact own long
    · rw [processed, flatten_cons, length_append, ← Nat.add_assoc]
      rfl

/-- The calls for frames that are as long as a header. -/
theorem hands_of_long {calls : List PacketCall}
    (long : ∀ frame ∈ calls.map PacketCall.frame, image.width ≤ frame.length)
    (each : ∀ call ∈ calls, call.connId = connId ∧
      (image.width ≤ call.frame.length → call.Hands connId call.frame)) :
    Forall₂ (PacketCall.Hands connId) (calls.map PacketCall.frame) calls := by
  rw [forall₂_map_left_iff, forall₂_same]
  exact fun call member => (each call member).2 (long call.frame (mem_map_of_mem member))

end FrameLoop

/-- A frame with a header is not empty. -/
theorem long_ne_nil {frame : List UInt8} (long : image.width ≤ frame.length) :
    frame ≠ [] := by
  rintro rfl
  exact absurd long (by decide)

namespace GatewayRun

/-- The parser loop of a read, in front of its first frame. -/
def startLoop (run : GatewayRun) (connId : ConnId) (buffer : ReadBuffer) : FrameLoop :=
  ⟨run.gateway.withBuffer connId buffer, 0, []⟩

variable {run : GatewayRun} {connId : ConnId} {conn : ClientConnection} {data : List UInt8}

/-- A read returns exactly if its loop does within as many frames as there are bytes. -/
theorem onRead_eq (env : Nat → PacketEnv)
    (connected : run.gateway.sessions.getConnection connId = some conn)
    (room : conn.buffer.len + data.length ≤ bufferSize) :
    run.onRead connId data env =
      (FrameLoop.run connId (conn.buffer.append data room) env bufferSize
        (run.startLoop connId (conn.buffer.append data room))).map fun loop =>
        { gateway := { loop.gateway with
            sessions := loop.gateway.sessions.modify connId fun conn =>
              { conn with buffer := conn.buffer.shift loop.processed } }
          handled := run.handled ++ loop.calls } := by
  simp only [onRead, connected, room, dif_pos]
  rfl

/-- A chunk for which there is room is read up to the residue, which stays in the buffer. -/
theorem onRead_of_cut {residue : List UInt8} {frames : List (List UInt8)} (env : Nat → PacketEnv)
    (connected : run.gateway.sessions.getConnection connId = some conn)
    (room : conn.buffer.len + data.length ≤ bufferSize)
    (cut : Cut frameSize (conn.buffer.pending ++ data) frames residue)
    (long : ∀ frame ∈ frames, image.width ≤ frame.length)
    (enough : frames.length ≤ bufferSize) :
    ∃ next calls conn', run.onRead connId data env = .ok next ∧
      next.handled = run.handled ++ calls ∧
      (∀ call ∈ calls, call.connId = connId) ∧
      Forall₂ (PacketCall.Hands connId) frames calls ∧
      next.gateway.sessions.getConnection connId = some conn' ∧
      conn'.buffer.pending = residue ∧
      next.gateway = (calls.foldl Gateway.handle run.gateway).withBuffer connId conn'.buffer ∧
      next.gateway.disconnected = run.gateway.disconnected := by
  let buffer := conn.buffer.append data room
  have filled : ((run.gateway.withBuffer connId buffer).sessions.getConnection connId).map
      ClientConnection.buffer = some buffer := by
    rw [Gateway.getConnection_withBuffer, connected]
    rfl
  rw [← conn.buffer.pending_append room] at cut
  obtain ⟨after, calls, ran, called, framed, each, _, left, folded⟩ :=
    @FrameLoop.run_of_cut connId buffer (run.startLoop connId buffer) env _ _ _ cut enough
  have same := Gateway.SameBuffers.foldl_handle (run.gateway.withBuffer connId buffer) calls
  change after.gateway = calls.foldl _ (run.gateway.withBuffer connId buffer) at folded
  rw [← folded] at same
  rw [Gateway.foldl_handle_withBuffer _ _ _ fun call member => (each call member).1] at folded
  rw [← same.buffers] at filled
  obtain ⟨last, found, isBuffer⟩ := Option.map_eq_some_iff.mp filled
  have read : run.onRead connId data env = .ok
      { gateway := { after.gateway with
          sessions := after.gateway.sessions.modify connId fun conn =>
            { conn with buffer := conn.buffer.shift after.processed } }
        handled := run.handled ++ after.calls } := by
    rw [onRead_eq env connected room, ran]
    rfl
  refine ⟨_, calls, { last with buffer := last.buffer.shift after.processed }, read, ?_,
    fun call member => (each call member).1, ?_, ?_, ?_, ?_, same.disconnected⟩
  · change run.handled ++ after.calls = _
    rw [called]
    rfl
  · rw [← framed]
    exact FrameLoop.hands_of_long (framed ▸ long) each
  · rw [SessionManager.getConnection_modify (by exact fun _ => rfl), found]
    rfl
  · change (last.buffer.shift after.processed).pending = residue
    rw [ReadBuffer.pending_shift, isBuffer, left]
  · have shifted := @SessionManager.modify_modify (calls.foldl Gateway.handle run.gateway).sessions
      connId (fun conn => { conn with buffer })
      (fun conn => { conn with buffer := conn.buffer.shift after.processed }) fun _ => rfl
    rw [folded, isBuffer]
    exact congrArg
      (fun sessions => { calls.foldl Gateway.handle run.gateway with sessions }) shifted

end GatewayRun

/-- What has been received is handled up to a part of the next frame, which waits in the buffer of
its connection: one call for each frame, in order, and the gateway is what these calls make of it.
Nobody was disconnected. -/
structure Following (before : Gateway) (connId : ConnId) (frames : List (List UInt8))
    (received : List UInt8) (run : GatewayRun) (taken later : List (List UInt8))
    (conn : ClientConnection) : Prop where
  frames_eq : frames = taken ++ later
  handled : Forall₂ (PacketCall.Hands connId) taken run.handled
  gateway : run.gateway =
    (run.handled.foldl Gateway.handle before).withBuffer connId conn.buffer
  connected : run.gateway.sessions.getConnection connId = some conn
  received_eq : received = taken.flatten ++ conn.buffer.pending
  incomplete : Incomplete conn.buffer.pending later
  disconnected : run.gateway.disconnected = before.disconnected

namespace Following

variable {before : Gateway} {connId : ConnId} {frames taken later : List (List UInt8)}
  {received : List UInt8} {run : GatewayRun} {conn : ClientConnection}

variable (following : Following before connId frames received run taken later conn)
  (framed : ∀ frame ∈ frames, WellFramed frame)
include following framed

/-- Less than a frame waits, so there is room for a chunk. -/
theorem room {data : List UInt8} (small : data.length ≤ 4096) :
    conn.buffer.len + data.length ≤ bufferSize := by
  have short : conn.buffer.pending.length < 4096 := by
    apply following.incomplete.length_lt _ (by decide)
    intro frame member
    apply (framed frame _).small
    rw [following.frames_eq]
    exact mem_append_right _ member
  rw [conn.buffer.pending_length] at short
  unfold bufferSize
  omega

/-- `on_read` of the next chunk handles the frames that it completes. -/
theorem read {data unread : List UInt8} (small : data.length ≤ 4096)
    (stream : frames.flatten = received ++ data ++ unread) (env : Nat → PacketEnv) :
    ∃ next taken' later' conn', run.onRead connId data env = .ok next ∧
      Following before connId frames (received ++ data) next taken' later' conn' := by
  have room := following.room framed small
  -- The chunk follows the waiting part in the stream, and completes some of the later frames.
  have rest : later.flatten = (conn.buffer.pending ++ data) ++ unread := by
    have joined := stream
    rw [following.frames_eq, following.received_eq, flatten_append] at joined
    simp only [append_assoc] at joined ⊢
    exact append_cancel_left joined
  obtain ⟨completed, later', residue, split, arrived, incomplete⟩ := exists_cut rest
  have whole : ∀ frame ∈ completed ++ later', WellFramed frame := by
    intro frame member
    apply framed
    rw [following.frames_eq, split]
    exact mem_append_right _ member
  have cut : Cut frameSize (conn.buffer.pending ++ data) completed residue := by
    rw [arrived]
    exact cut_flatten frameSize_stable (fun frame member => (whole frame member).whole)
      incomplete
  have long : ∀ frame ∈ completed, image.width ≤ frame.length :=
    fun frame member => (whole frame (mem_append_left _ member)).header
  have enough : completed.length ≤ bufferSize := by
    have few := cut.length_le fun frame member => long_ne_nil (long frame member)
    rw [length_append, conn.buffer.pending_length] at few
    omega
  obtain ⟨next, calls, conn', ran, handled, own, hands, connected, waits, folded, disconnected⟩ :=
    GatewayRun.onRead_of_cut env following.connected room cut long enough
  refine ⟨next, taken ++ completed, later', conn', ran, ?_, ?_, ?_, connected, ?_, ?_, ?_⟩
  · rw [following.frames_eq, split, append_assoc]
  · rw [handled]
    exact rel_append following.handled hands
  · rw [folded, following.gateway, Gateway.foldl_handle_withBuffer _ _ _ own,
      Gateway.withBuffer_withBuffer, handled, foldl_append]
  · rw [following.received_eq, append_assoc, arrived, waits, flatten_append,
      append_assoc]
  · rw [waits]
    exact incomplete
  · exact disconnected.trans following.disconnected

end Following

/-- A chunk that the transport delivers, with what its frames are handled with. -/
structure Chunk where
  data : List UInt8
  env : Nat → PacketEnv

/-- The bytes of some chunks, in order. -/
def stream (chunks : List Chunk) : List UInt8 := chunks.flatMap Chunk.data

/-- The calls of `on_read` for some chunks, on a gateway that has handled nothing yet. -/
def Gateway.deliver (gateway : Gateway) (connId : ConnId) (chunks : List Chunk) :
    Except Fault GatewayRun :=
  runAll GatewayRun.step ⟨gateway, []⟩
    (chunks.map fun chunk => .read connId chunk.data chunk.env)

/-- However the frames are cut into chunks, each is handled once and in order, and after each chunk
the part of the next frame that has arrived waits. -/
def Gateway.ChunkingFree (gateway : Gateway) (connId : ConnId) (frames : List (List UInt8)) :
    Prop :=
  ∀ chunks : List Chunk, (∀ chunk ∈ chunks, chunk.data.length ≤ 4096) →
    stream chunks = frames.flatten →
    (∀ front back, chunks = front ++ back →
      ∃ run taken later conn, gateway.deliver connId front = .ok run ∧
        Following gateway connId frames (stream front) run taken later conn) ∧
    ∃ run conn, gateway.deliver connId chunks = .ok run ∧
      Following gateway connId frames (stream chunks) run frames [] conn

section

variable {gateway : Gateway} {connId : ConnId} {conn : ClientConnection}
  {frames : List (List UInt8)}

/-- The chunks delivered so far. -/
theorem Gateway.deliver_following
    (connected : gateway.sessions.getConnection connId = some conn)
    (empty : conn.buffer.pending = []) (framed : ∀ frame ∈ frames, WellFramed frame)
    {chunks : List Chunk} (small : ∀ chunk ∈ chunks, chunk.data.length ≤ 4096)
    {unread : List UInt8} (cut : frames.flatten = stream chunks ++ unread) :
    ∃ run taken later conn, gateway.deliver connId chunks = .ok run ∧
      Following gateway connId frames (stream chunks) run taken later conn := by
  induction chunks using reverseRecOn generalizing unread with
  | nil =>
    refine ⟨⟨gateway, []⟩, [], frames, conn, rfl, rfl, .nil, ?_, connected, ?_, ?_, rfl⟩
    · exact (gateway.withBuffer_self connId connected).symm
    · rw [empty]
      rfl
    · rw [empty]
      cases frames with
      | nil => rfl
      | cons frame rest =>
        have header := (framed frame mem_cons_self).header
        exact ⟨List.nil_prefix, Nat.lt_of_lt_of_le (by decide) header⟩
  | append_singleton chunks chunk ih =>
    have joined : stream (chunks ++ [chunk]) = stream chunks ++ chunk.data := by
      simp [stream]
    rw [joined] at cut ⊢
    obtain ⟨run, taken, later, conn, ran, following⟩ :=
      ih (fun other member => small other (mem_append_left _ member))
        (by rw [cut, append_assoc])
    obtain ⟨next, taken', later', conn', read, following'⟩ :=
      following.read framed (small chunk (mem_append_right _ mem_cons_self)) cut chunk.env
    refine ⟨next, taken', later', conn', ?_, following'⟩
    unfold deliver at ran ⊢
    rw [map_append, runAll_append, ran]
    simp only [map_cons, map_nil, runAll, GatewayRun.step, read]

/-- Chunks do not matter. -/
theorem Gateway.chunkingFree (connected : gateway.sessions.getConnection connId = some conn)
    (empty : conn.buffer.pending = []) (framed : ∀ frame ∈ frames, WellFramed frame) :
    gateway.ChunkingFree connId frames := by
  intro chunks small cut
  constructor
  · rintro front back rfl
    apply deliver_following connected empty framed
    · exact fun chunk member => small chunk (mem_append_left _ member)
    · rw [← cut, stream, flatMap_append]
      rfl
  · obtain ⟨run, taken, later, last, ran, following⟩ :=
      deliver_following connected empty framed small (by rw [cut, append_nil])
    have all : later.flatten = last.buffer.pending := by
      have joined := following.received_eq
      rw [cut, following.frames_eq, flatten_append] at joined
      exact append_cancel_left joined
    obtain rfl := following.incomplete.eq_nil all
    have whole := following.frames_eq
    rw [append_nil] at whole
    exact ⟨run, last, ran, whole ▸ following⟩

/-- On a connection with an empty buffer, framing does not depend on how the stream is cut into
chunks of at most 4096 bytes. Encoded packets are such frames, and `handle_packet` is given the
header and reads the packet that were encoded. -/
theorem framing_chunkingFree (connected : gateway.sessions.getConnection connId = some conn)
    (empty : conn.buffer.pending = []) :
    (∀ frames, (∀ frame ∈ frames, WellFramed frame) → gateway.ChunkingFree connId frames) ∧
    ∀ packets : List Outgoing,
      gateway.ChunkingFree connId (packets.map Outgoing.frame) ∧
      ∀ packet ∈ packets,
        PacketDecoder.decode packet.frame = some ⟨packet.header, packet.payload, packet.size⟩ ∧
        ∀ call : PacketCall, call.Hands connId packet.frame → call.header = packet.header ∧
          (Packet.image packet.packetType.body).decode call.memory =
            { packet.packet with header := packet.header } := by
  refine ⟨fun frames framed => Gateway.chunkingFree connected empty framed, fun packets => ⟨?_, ?_⟩⟩
  · apply Gateway.chunkingFree connected empty
    intro frame member
    obtain ⟨packet, _, rfl⟩ := mem_map.mp member
    exact packet.frame_wellFramed
  · intro packet _
    refine ⟨packet.decode_frame, fun call hands => ⟨?_, ?_⟩⟩
    · rw [hands.header_eq, packet.frame_eq, image.decode_encode]
    · rw [← take_append_drop call.size call.memory]
      change (Packet.image _).decode (call.frame ++ _) = _
      rw [hands.frame_eq, packet.image_decode_frame]

end

/-- A `HeartbeatPacket` and a `LogoutPacket`. -/
def twoPackets : List Outgoing :=
  [⟨.heartbeat, ⟨⟨0, 0, 0, 0, 0⟩, ()⟩, .heartbeat, 1, 10, 8192, by decide⟩,
    ⟨.logout, ⟨⟨0, 0, 0, 0, 0⟩, ⟨42, 0⟩⟩, .logout, 2, 20, 8192, by decide⟩]

/-- The first chunk ends inside the first header, the second inside the second. -/
def threeChunks : List Chunk :=
  let bytes := (twoPackets.map Outgoing.frame).flatten
  [bytes.take 10, (bytes.drop 10).take 20, bytes.drop 30].map
    fun data => ⟨data, fun _ => ⟨0, 0, [], 0⟩⟩

/-- The heartbeat is answered and the logout ends the session. -/
theorem framing_chunkingFree_threeChunks :
    ∃ run conn, Gateway.loggedIn.deliver 1 threeChunks = .ok run ∧
      Following Gateway.loggedIn 1 (twoPackets.map Outgoing.frame) (stream threeChunks) run
        (twoPackets.map Outgoing.frame) [] conn ∧
      run.handled.map PacketCall.header = twoPackets.map Outgoing.header ∧
      run.gateway.sent.length = 1 ∧ conn.authenticated = false := by
  have framing := (@framing_chunkingFree Gateway.loggedIn 1
    { connId := 1, authenticated := true } rfl rfl).2 twoPackets
  obtain ⟨run, conn, ran, following⟩ := (framing.1 threeChunks (by decide) (by decide)).2
  have seen : Returns (fun run => run.handled.map PacketCall.header =
      twoPackets.map Outgoing.header ∧ run.gateway.sent.length = 1 ∧
      (run.gateway.sessions.getConnection 1).map ClientConnection.authenticated = some false)
      (Gateway.loggedIn.deliver 1 threeChunks) := by decide +kernel
  rw [ran] at seen
  obtain ⟨headers, answered, ended⟩ := seen
  rw [following.connected] at ended
  exact ⟨run, conn, ran, following, headers, answered, Option.some.inj ended⟩

end FluxTrade
