import FluxTrade.Gateway.Framing

/-!
# Progress of the parser loop

The parser loop moves on by the length that a header names. It ends where no
header that it comes to names the length zero: then every frame takes a byte and
the loop stops within the received bytes. A header with the length zero is
handled for ever.
-/

namespace FluxTrade

open Framing ReadBuffer

namespace FrameLoop

variable {connId : ConnId} {buffer : ReadBuffer} {env : Nat → PacketEnv} {loop : FrameLoop}

/-- The loop returns, within the received bytes, and every frame that it handled took at least one
of them. -/
def Ends (connId : ConnId) (buffer : ReadBuffer) (env : Nat → PacketEnv) (loop : FrameLoop) :
    Prop :=
  ∃ fuel after, run connId buffer env fuel loop = .ok after ∧ after.processed ≤ buffer.len ∧
    after.processed = (after.calls.map fun call => call.frame.length).sum ∧
    ∀ call ∈ after.calls, 0 < call.frame.length

/-- What the loop handles next is the first frame of what it has not processed. -/
theorem next_of_nextFrame {decoded : Decoded} (found : loop.nextFrame buffer = some decoded) :
    buffer.pending.drop loop.processed ≠ [] ∧
      next frameSize (buffer.pending.drop loop.processed) =
        some ((buffer.pending.drop loop.processed).take decoded.bytesRead,
          buffer.pending.drop (loop.processed + decoded.bytesRead)) := by
  cases taken : next frameSize (buffer.pending.drop loop.processed) with
  | none =>
    rw [nextFrame_eq_none (.inr taken)] at found
    cases found
  | some parts =>
    obtain ⟨frame, rest⟩ := parts
    have nonempty : buffer.pending.drop loop.processed ≠ [] := by
      intro empty
      rw [nextFrame_eq_none (.inl empty)] at found
      cases found
    obtain ⟨header, payload, same, _⟩ := nextFrame_eq_some nonempty taken
    rw [same] at found
    cases found
    have joined := (next_eq_some taken).1
    refine ⟨nonempty, ?_⟩
    rw [← List.drop_drop, joined, List.take_left, List.drop_left]

/-- A loop that returns comes to no empty frame. -/
theorem frames_of_run {fuel : Nat} {after : FrameLoop}
    (ran : run connId buffer env fuel loop = .ok after) :
    Frames frameSize (· ≠ []) (buffer.pending.drop loop.processed) := by
  have stopped (loop : FrameLoop) (none : loop.nextFrame buffer = none) :
      Frames frameSize (· ≠ []) (buffer.pending.drop loop.processed) := by
    have stops : buffer.pending.drop loop.processed = [] ∨
        next frameSize (buffer.pending.drop loop.processed) = .none := by
      by_contra goes
      obtain ⟨nonempty, takes⟩ := not_or.mp goes
      obtain ⟨⟨frame, rest⟩, taken⟩ := Option.ne_none_iff_exists'.mp takes
      obtain ⟨_, _, found, _⟩ := nextFrame_eq_some nonempty taken
      rw [found] at none
      cases none
    exact (Cut.wait stops).frames (by simp)
  induction fuel generalizing loop with
  | zero =>
    cases found : loop.nextFrame buffer with
    | none => exact stopped loop found
    | some decoded =>
      simp only [run, found] at ran
      cases ran
  | succ fuel ih =>
    cases found : loop.nextFrame buffer with
    | none => exact stopped loop found
    | some decoded =>
      simp only [run, found] at ran
      obtain ⟨nonempty, taken⟩ := next_of_nextFrame found
      have later := ih ran
      change Frames frameSize (· ≠ [])
        (buffer.pending.drop (loop.processed + decoded.bytesRead)) at later
      intro rest frame behind reached
      cases reached with
      | here =>
        intro some first
        rw [taken] at first
        cases first
        -- An empty frame would be the first one again.
        intro empty
        have none : decoded.bytesRead = 0 := by
          by_contra positive
          rcases List.take_eq_nil_iff.mp empty with zero | nil
          · exact positive zero
          · exact nonempty nil
        rw [none, Nat.add_zero] at taken later
        exact later _ _ _ .here nonempty taken List.take_zero
      | after _ first onward =>
        rw [taken] at first
        cases first
        exact later rest frame behind onward

/-- The loop ends exactly if no frame that it comes to is empty. -/
theorem ends_iff_nonempty (connId : ConnId) (buffer : ReadBuffer) (env : Nat → PacketEnv)
    (gateway : Gateway) :
    Ends connId buffer env ⟨gateway, 0, []⟩ ↔
      Frames frameSize (· ≠ []) buffer.pending := by
  constructor
  · rintro ⟨fuel, after, ran, _⟩
    exact frames_of_run ran
  · intro each
    obtain ⟨frames, residue, cut, nonempty⟩ := each.exists_cut fun _ => id
    obtain ⟨after, calls, ran, called, framed, _, processed, left, _⟩ :=
      @run_of_cut connId buffer ⟨gateway, 0, []⟩ env _ _ _ cut (Nat.le_refl _)
    rw [List.nil_append] at called
    rw [Nat.zero_add] at processed
    have whole := cut.flatten_append
    refine ⟨_, after, ran, ?_, ?_, ?_⟩
    · rw [processed, ← buffer.pending_length, ← whole, List.length_append]
      exact Nat.le_add_right _ _
    · rw [processed, called, ← framed, List.length_flatten, List.map_map]
      rfl
    · intro call member
      rw [called] at member
      exact List.length_pos_iff.mpr (nonempty _ (framed ▸ List.mem_map_of_mem member))

/-- A loop that comes to an empty frame handles it for ever. -/
theorem run_of_empty {rest : List UInt8} (nonempty : buffer.pending.drop loop.processed ≠ [])
    (first : next frameSize (buffer.pending.drop loop.processed) = some ([], rest))
    (fuel : Nat) : run connId buffer env fuel loop = .error .outOfFuel := by
  induction fuel generalizing loop with
  | zero =>
    obtain ⟨_, _, found, _⟩ := nextFrame_eq_some nonempty first
    simp only [run, found]
  | succ fuel ih =>
    obtain ⟨_, _, found, _⟩ := nextFrame_eq_some nonempty first
    simp only [run, found]
    exact ih nonempty first

end FrameLoop

namespace GatewayRun

variable {run : GatewayRun} {connId : ConnId} {conn : ClientConnection} {data : List UInt8}

/-- Whatever a connection has in its buffer and whatever bytes are received, the parser loop ends
and `on_read` returns exactly if no header that the loop comes to names the length zero. -/
theorem onRead_ends_iff (env : Nat → PacketEnv)
    (connected : run.gateway.sessions.getConnection connId = some conn)
    (room : conn.buffer.len + data.length ≤ bufferSize) :
    (FrameLoop.Ends connId (conn.buffer.append data room) env
        (run.startLoop connId (conn.buffer.append data room)) ↔
      Frames frameSize (· ≠ []) (conn.buffer.pending ++ data)) ∧
    ((∃ next, run.onRead connId data env = .ok next) ↔
      Frames frameSize (· ≠ []) (conn.buffer.pending ++ data)) := by
  rw [← conn.buffer.pending_append room]
  refine ⟨FrameLoop.ends_iff_nonempty _ _ _ _, ?_, ?_⟩
  · rintro ⟨next, returned⟩
    rw [onRead_eq env connected room] at returned
    cases ran : FrameLoop.run connId (conn.buffer.append data room) env bufferSize
        (run.startLoop connId (conn.buffer.append data room)) with
    | error fault =>
      rw [ran] at returned
      cases returned
    | ok after => exact FrameLoop.frames_of_run ran
  · intro each
    obtain ⟨frames, residue, cut, nonempty⟩ := each.exists_cut fun _ => id
    have few := cut.length_le nonempty
    rw [pending_length] at few
    obtain ⟨after, _, ran, _⟩ :=
      @FrameLoop.run_of_cut connId (conn.buffer.append data room)
        (run.startLoop connId (conn.buffer.append data room)) env _ _ bufferSize cut
        (Nat.le_trans few room)
    rw [onRead_eq env connected room, ran]
    exact ⟨_, rfl⟩

/-- A gateway with connection 1. -/
def oneConnection : GatewayRun := ⟨Gateway.new.onConnect 1, []⟩

/-- The header of a frame without a body. -/
def bareHeader (length type : UInt16) : List UInt8 :=
  MessageHeader.image.encode ⟨length, type, 0, 0, 0⟩

/-- Nothing behind the buffer, at time zero. -/
def quiet : Nat → PacketEnv := fun _ => ⟨0, 0, [], 0⟩

/-- A heartbeat is read. -/
theorem onRead_ends_iff_heartbeat :
    ∃ next, oneConnection.onRead 1 (bareHeader 24 1) quiet = .ok next := by
  have cut : Cut frameSize (bareHeader 24 1) [bareHeader 24 1] [] :=
    .take (by decide) (by decide) (.wait (.inl rfl))
  exact (@onRead_ends_iff oneConnection 1 { connId := 1 } (bareHeader 24 1) quiet rfl
    (by decide)).2.mpr (cut.frames (by decide))

/-- A header that names the length zero is handled again and again: no number of frames is enough
for the loop. -/
theorem zeroLength_handled_forever :
    (∀ fuel, FrameLoop.run 1 (new.append (bareHeader 0 0) (by decide)) quiet fuel
        (oneConnection.startLoop 1 (new.append (bareHeader 0 0) (by decide))) =
      .error .outOfFuel) ∧
    oneConnection.onRead 1 (bareHeader 0 0) quiet = .error .outOfFuel := by
  have stuck (fuel : Nat) :
      FrameLoop.run 1 (new.append (bareHeader 0 0) (by decide)) quiet fuel
        (oneConnection.startLoop 1 (new.append (bareHeader 0 0) (by decide))) =
      .error .outOfFuel := by
    have received : (new.append (bareHeader 0 0) (by decide)).pending =
        bareHeader 0 0 := pending_append _ _
    apply @FrameLoop.run_of_empty _ _ _ _ (bareHeader 0 0)
    · change List.drop 0 _ ≠ _
      rw [received]
      decide
    · change next frameSize (List.drop 0 _) = _
      rw [received]
      decide
  refine ⟨stuck, ?_⟩
  rw [@onRead_eq oneConnection 1 { connId := 1 } _ quiet rfl (by decide)]
  exact congrArg _ (stuck bufferSize)

end GatewayRun

end FluxTrade
