import FluxTrade.Gateway.Gateway

/-!
# The bytes of a frame

`handle_packet` reads a packet from the first byte of its frame on, as many bytes
as the fields it uses take, and does not compare that with the length of the
frame. A frame is interpreted from its own bytes where it has them all; a shorter
one is completed by what lies behind it.
-/

namespace FluxTrade

open Layout MessageType MessageHeader List

/-- What is sent and pushed for a frame on a connection that is logged in does not depend on what
lies behind the frame. -/
def OwnBytes (frame : List UInt8) : Prop :=
  ∀ (gateway : Gateway) (connId : ConnId) (conn : ClientConnection),
    gateway.sessions.getConnection connId = some conn → conn.authenticated = true →
    ∀ (env : PacketEnv) (rest other : List UInt8),
      let header := image.decode frame
      let after := gateway.handlePacket connId header (frame ++ rest) env
      let after' := gateway.handlePacket connId header (frame ++ other) env
      after.sent = after'.sent ∧ after.inbound = after'.inbound

/-- The bytes that a frame needs for the fields that are used. The password of a login is not
looked at where the user name is empty. -/
def bytesUsed (frame : List UInt8) : Nat :=
  let type := (image.decode frame).type
  if type = loginRequest.code then if frame[32]? = some 0 then 33 else 49
  else if type = newOrder.code then 59
  else if type = cancelOrder.code then 48
  else if type = replaceOrder.code then 64
  else 24

/-! ## Where the fields lie -/

section

variable (memory : List UInt8)

/-- The fields of a login. -/
theorem LoginRequestBody.decode_drop :
    LoginRequestBody.image.decode (memory.drop 24) =
      ⟨uint32.decode (memory.drop 24), uint32.decode (memory.drop 28),
        (bytes 16).decode (memory.drop 32), (bytes 16).decode (memory.drop 48)⟩ := by
  simp only [LoginRequestBody.image, map_decode, pair_decode, uint32_width, bytes_width,
    drop_drop]

/-- The fields of a new order. -/
theorem NewOrderBody.decode_drop :
    NewOrderBody.image.decode (memory.drop 24) =
      ⟨uint64.decode (memory.drop 24), uint32.decode (memory.drop 32),
        uint32.decode (memory.drop 36), uint64.decode (memory.drop 40),
        uint64.decode (memory.drop 48), uint8.decode (memory.drop 56),
        uint8.decode (memory.drop 57), uint8.decode (memory.drop 58),
        (bytes 5).decode (memory.drop 59)⟩ := by
  simp only [NewOrderBody.image, map_decode, pair_decode, uint8_width, uint32_width, uint64_width,
    drop_drop]

/-- The fields of a cancel. -/
theorem CancelOrderBody.decode_drop :
    CancelOrderBody.image.decode (memory.drop 24) =
      ⟨uint64.decode (memory.drop 24), uint64.decode (memory.drop 32),
        uint32.decode (memory.drop 40), uint32.decode (memory.drop 44)⟩ := by
  simp only [CancelOrderBody.image, map_decode, pair_decode, uint32_width, uint64_width,
    drop_drop]

/-- The fields of a replace. -/
theorem ReplaceOrderBody.decode_drop :
    ReplaceOrderBody.image.decode (memory.drop 24) =
      ⟨uint64.decode (memory.drop 24), uint64.decode (memory.drop 32),
        uint32.decode (memory.drop 40), uint32.decode (memory.drop 44),
        uint64.decode (memory.drop 48), uint64.decode (memory.drop 56)⟩ := by
  simp only [ReplaceOrderBody.image, map_decode, pair_decode, uint32_width, uint64_width,
    drop_drop]

/-- The first byte of an array. -/
theorem bytes_first (count : Nat) :
    ((bytes (count + 1)).decode memory)[0] = memory[0]?.getD 0 := by
  change (Vector.ofFn _)[0] = _
  rw [Vector.getElem_ofFn]
  rfl

variable {frame : List UInt8} {offset : Nat}

/-- A byte inside the frame. -/
theorem uint8_drop (inside : offset + 1 ≤ frame.length) (rest : List UInt8) :
    uint8.decode ((frame ++ rest).drop offset) = uint8.decode (frame.drop offset) :=
  word_local.decode_drop inside rest

/-- Four bytes inside the frame. -/
theorem uint32_drop (inside : offset + 4 ≤ frame.length) (rest : List UInt8) :
    uint32.decode ((frame ++ rest).drop offset) = uint32.decode (frame.drop offset) :=
  word_local.decode_drop inside rest

/-- Eight bytes inside the frame. -/
theorem uint64_drop (inside : offset + 8 ≤ frame.length) (rest : List UInt8) :
    uint64.decode ((frame ++ rest).drop offset) = uint64.decode (frame.drop offset) :=
  word_local.decode_drop inside rest

end

/-! ## Handling on a connection that is logged in -/

namespace Gateway

variable {gateway : Gateway} {connId : ConnId} {conn : ClientConnection} {header : MessageHeader}
  {memory : List UInt8} {env : PacketEnv}
variable {frame : List UInt8}

section

variable (found : gateway.sessions.getConnection connId = some conn)
include found

/-- A login frame. -/
theorem handlePacket_login (isLogin : header.type = loginRequest.code) :
    gateway.handlePacket connId header memory env =
      gateway.handleLogin connId (LoginRequestBody.image.decode (memory.drop 24)) env := by
  simp only [handlePacket, found, isLogin, if_true]
  rfl

/-- A new order's frame. -/
theorem handlePacket_newOrder (flag : conn.authenticated = true)
    (isNew : header.type = newOrder.code) :
    gateway.handlePacket connId header memory env = gateway.advance.pushCommand
      (gateway.newOrderCommand connId (NewOrderBody.image.decode (memory.drop 24)) env.now) := by
  simp only [handlePacket, found, flag, isNew, Bool.true_eq_false, if_false, if_true]
  rfl

/-- A cancel's frame. -/
theorem handlePacket_cancelOrder (flag : conn.authenticated = true)
    (isCancel : header.type = cancelOrder.code) :
    gateway.handlePacket connId header memory env = gateway.advance.pushCommand
      (gateway.cancelOrderCommand connId (CancelOrderBody.image.decode (memory.drop 24))
        env.now) := by
  simp only [handlePacket, found, flag, isCancel, Bool.true_eq_false, if_false, if_true]
  rfl

/-- A replace's frame. -/
theorem handlePacket_replaceOrder (flag : conn.authenticated = true)
    (isReplace : header.type = replaceOrder.code) :
    gateway.handlePacket connId header memory env = gateway.advance.pushCommand
      (gateway.replaceOrderCommand connId (ReplaceOrderBody.image.decode (memory.drop 24))
        env.now) := by
  simp only [handlePacket, found, flag, isReplace, Bool.true_eq_false, if_false, if_true]
  rfl

end

/-- Packets of other types are not read at all. -/
theorem handlePacket_other (notLogin : header.type ≠ loginRequest.code)
    (notNew : header.type ≠ newOrder.code)
    (notCancel : header.type ≠ cancelOrder.code)
    (notReplace : header.type ≠ replaceOrder.code) (unread : List UInt8) :
    gateway.handlePacket connId header memory env =
      gateway.handlePacket connId header unread env := by
  simp only [handlePacket, notLogin, notNew, notCancel, notReplace, if_false]

/-- A new order from 59 bytes. -/
theorem newOrderCommand_local (long : 59 ≤ frame.length) (rest : List UInt8) (now : UInt64) :
    gateway.newOrderCommand connId (NewOrderBody.image.decode ((frame ++ rest).drop 24)) now =
      gateway.newOrderCommand connId (NewOrderBody.image.decode (frame.drop 24)) now := by
  simp (disch := omega) only [newOrderCommand, NewOrderBody.decode_drop, uint8_drop, uint32_drop,
    uint64_drop]

/-- A cancel from 48 bytes. -/
theorem cancelOrderCommand_local (long : 48 ≤ frame.length) (rest : List UInt8) (now : UInt64) :
    gateway.cancelOrderCommand connId (CancelOrderBody.image.decode ((frame ++ rest).drop 24))
        now =
      gateway.cancelOrderCommand connId (CancelOrderBody.image.decode (frame.drop 24)) now := by
  simp (disch := omega) only [cancelOrderCommand, CancelOrderBody.decode_drop, uint32_drop,
    uint64_drop]

/-- A replace from 64 bytes. -/
theorem replaceOrderCommand_local (long : 64 ≤ frame.length) (rest : List UInt8) (now : UInt64) :
    gateway.replaceOrderCommand connId (ReplaceOrderBody.image.decode ((frame ++ rest).drop 24))
        now =
      gateway.replaceOrderCommand connId (ReplaceOrderBody.image.decode (frame.drop 24)) now := by
  simp (disch := omega) only [replaceOrderCommand, ReplaceOrderBody.decode_drop, uint32_drop,
    uint64_drop]

/-- The response to a login. -/
def loginResponse (packet : LoginRequestBody) (ok : Bool) : LoginResponseBody where
  clientId := packet.clientId
  accountId := packet.accountId
  success := if ok then 1 else 0
  rejectReason := strncpy 23 (if ok then "" else "Auth Failure")

/-- A login is answered, and pushes nothing. -/
theorem handleLogin_answers (packet : LoginRequestBody) :
    (gateway.handleLogin connId packet env).sent = gateway.sent ++
        [(connId, PacketEncoder.encode LoginResponseBody.image 8192 .loginResponse 0 env.now
          ⟨⟨0, 0, 0, 0, 0⟩, loginResponse packet (gateway.sessions.authenticate connId
            packet.clientId packet.accountId packet.username packet.password).1⟩)] ∧
      (gateway.handleLogin connId packet env).inbound = gateway.inbound := by
  have written (body : LoginResponseBody) :
      (PacketEncoder.encode LoginResponseBody.image 8192 .loginResponse 0 env.now
        ⟨⟨0, 0, 0, 0, 0⟩, body⟩).length ≠ 0 := by
    unfold PacketEncoder.encode
    rw [if_neg (by decide), encode_length]
    decide
  unfold handleLogin sendPacket
  dsimp only
  rw [if_neg (written _)]
  exact ⟨rfl, rfl⟩

/-- A login succeeds where neither of two bytes is zero. -/
theorem authenticate_decode (found : gateway.sessions.getConnection connId = some conn) :
    let packet := LoginRequestBody.image.decode (memory.drop 24)
    (gateway.sessions.authenticate connId packet.clientId packet.accountId packet.username
        packet.password).1 =
      decide ¬(memory[32]?.getD 0 = 0 ∨ memory[48]?.getD 0 = 0) := by
  have name := bytes_first (memory.drop 32) 15
  have word := bytes_first (memory.drop 48) 15
  rw [List.getElem?_drop] at name word
  dsimp only
  rw [LoginRequestBody.decode_drop, ← name, ← word]
  unfold SessionManager.authenticate
  rw [found]
  by_cases empty : ((bytes 16).decode (memory.drop 32))[0] = 0 ∨
      ((bytes 16).decode (memory.drop 48))[0] = 0
  · simp only [empty, if_true, not_true_eq_false, decide_false]
  · simp only [empty, if_false, not_false_eq_true, decide_true]

/-- A login with the fields that are used inside the frame is answered from there. -/
theorem loginResponse_local (long : (if frame[32]? = some 0 then 33 else 49) ≤ frame.length)
    (rest : List UInt8) :
    let packet (memory : List UInt8) := LoginRequestBody.image.decode (memory.drop 24)
    let ok (memory : List UInt8) :=
      decide ¬(memory[32]?.getD 0 = 0 ∨ memory[48]?.getD 0 = 0)
    loginResponse (packet (frame ++ rest)) (ok (frame ++ rest)) =
      loginResponse (packet frame) (ok frame) := by
  have enough : 33 ≤ frame.length := by
    split at long <;> omega
  have name : (frame ++ rest)[32]? = frame[32]? := List.getElem?_append_left (by omega)
  dsimp only
  simp (disch := omega) only [loginResponse, LoginRequestBody.decode_drop, uint32_drop, name]
  by_cases empty : frame[32]? = some 0
  · simp only [empty, Option.getD_some, true_or]
  · rw [if_neg empty] at long
    have word : (frame ++ rest)[48]? = frame[48]? := List.getElem?_append_left (by omega)
    simp only [word]

end Gateway

/-! ## Frames that are too short -/

section

variable {frame : List UInt8} {size offset : Nat}

/-- Bytes that complete a frame to a size, with a given last one. -/
def completion (frame : List UInt8) (size : Nat) (last : UInt8) : List UInt8 :=
  replicate (size - 1 - frame.length) 1 ++ [last]

/-- The last byte of a completed frame is behind the frame. -/
theorem drop_completion (short : frame.length < size) (inside : offset < size) :
    ∃ front : List UInt8, front.length + 1 = size - offset ∧
      ∀ last, (frame ++ completion frame size last).drop offset = front ++ [last] := by
  refine ⟨(frame ++ replicate (size - 1 - frame.length) 1).drop offset, ?_, ?_⟩
  · rw [length_drop, length_append, length_replicate]
    omega
  · intro last
    unfold completion
    rw [← append_assoc, drop_append_of_le_length]
    rw [length_append, length_replicate]
    omega

end

namespace OwnBytes

variable {frame : List UInt8}

/-- A frame that has the bytes that are used is interpreted from them. -/
theorem of_bytesUsed_le (long : bytesUsed frame ≤ frame.length) : OwnBytes frame := by
  intro gateway connId conn found flag env rest other
  dsimp only
  unfold bytesUsed at long
  dsimp only at long
  by_cases isLogin : (image.decode frame).type = loginRequest.code
  · rw [if_pos isLogin] at long
    simp only [Gateway.handlePacket_login found isLogin, Gateway.handleLogin_answers,
      Gateway.authenticate_decode found, Gateway.loginResponse_local long, and_self]
  rw [if_neg isLogin] at long
  by_cases isNew : (image.decode frame).type = newOrder.code
  · rw [if_pos isNew] at long
    simp only [Gateway.handlePacket_newOrder found flag isNew, Gateway.newOrderCommand_local long,
      and_self]
  rw [if_neg isNew] at long
  by_cases isCancel : (image.decode frame).type = cancelOrder.code
  · rw [if_pos isCancel] at long
    simp only [Gateway.handlePacket_cancelOrder found flag isCancel,
      Gateway.cancelOrderCommand_local long, and_self]
  rw [if_neg isCancel] at long
  by_cases isReplace : (image.decode frame).type = replaceOrder.code
  · rw [if_pos isReplace] at long
    simp only [Gateway.handlePacket_replaceOrder found flag isReplace,
      Gateway.replaceOrderCommand_local long, and_self]
  · rw [Gateway.handlePacket_other isLogin isNew isCancel isReplace (frame ++ other)]
    exact ⟨rfl, rfl⟩

/-- What happens on a connection that is logged in does not depend on the last byte of a completed
frame. -/
theorem handled_eq (own : OwnBytes frame) (size : Nat) (last other : UInt8) :
    let header := image.decode frame
    let after (byte : UInt8) := Gateway.loggedIn.handlePacket 1 header
      (frame ++ completion frame size byte) ⟨0, 0, [], 0⟩
    (after last).sent = (after other).sent ∧ (after last).inbound = (after other).inbound :=
  own Gateway.loggedIn 1 { connId := 1, authenticated := true } rfl rfl ⟨0, 0, [], 0⟩ _ _

/-- The table of the sample. -/
theorem loggedIn_found : Gateway.loggedIn.sessions.getConnection 1 =
    some { connId := 1, authenticated := true } := rfl

variable (own : OwnBytes frame)
include own

/-- A pushed command does not depend on the last byte of a completed frame. -/
theorem command_eq (size : Nat) {command : List UInt8 → OrderCommand}
    (pushes : ∀ memory, Gateway.loggedIn.handlePacket 1 (image.decode frame) memory
      ⟨0, 0, [], 0⟩ = Gateway.loggedIn.advance.pushCommand (command memory)) :
    command (frame ++ completion frame size 1) = command (frame ++ completion frame size 2) := by
  have pushed := (own.handled_eq size 1 2).2
  simp only [pushes] at pushed
  exact (cons.inj pushed).1

/-- A frame that is too short for the time in force of an order takes it from behind. -/
theorem newOrder_long (isNew : (image.decode frame).type = newOrder.code) :
    59 ≤ frame.length := by
  by_contra short
  obtain ⟨front, length, read⟩ :=
    @drop_completion frame 59 58 (Nat.lt_of_not_le short) (by decide)
  have empty : front = [] := length_eq_zero_iff.mp (by omega)
  have same := own.command_eq 59 fun _ =>
    Gateway.handlePacket_newOrder loggedIn_found rfl isNew
  have tif := congrArg OrderCommand.tif same
  simp only [Gateway.newOrderCommand, NewOrderBody.decode_drop, read, empty] at tif
  exact absurd tif (by decide)

/-- A frame that is too short for the account of a cancel takes the last byte from behind. -/
theorem cancelOrder_long (isCancel : (image.decode frame).type = cancelOrder.code) :
    48 ≤ frame.length := by
  by_contra short
  obtain ⟨front, length, read⟩ :=
    @drop_completion frame 48 44 (Nat.lt_of_not_le short) (by decide)
  have same := own.command_eq 48 fun _ =>
    Gateway.handlePacket_cancelOrder loggedIn_found rfl isCancel
  have account := congrArg OrderCommand.accountId same
  simp only [Gateway.cancelOrderCommand, CancelOrderBody.decode_drop, read] at account
  exact word_decode_ne (fun _ => Nat.mod_eq_of_lt) length (by decide) account

/-- A frame that is too short for the quantity of a replacement takes the last byte from behind. -/
theorem replaceOrder_long (isReplace : (image.decode frame).type = replaceOrder.code) :
    64 ≤ frame.length := by
  by_contra short
  obtain ⟨front, length, read⟩ :=
    @drop_completion frame 64 56 (Nat.lt_of_not_le short) (by decide)
  have same := own.command_eq 64 fun _ =>
    Gateway.handlePacket_replaceOrder loggedIn_found rfl isReplace
  have qty := congrArg OrderCommand.qty same
  simp only [Gateway.replaceOrderCommand, ReplaceOrderBody.decode_drop, read] at qty
  exact word_decode_ne (fun _ => Nat.mod_eq_of_lt) length (by decide) qty

/-- A login that is too short for a password is answered by the byte in its place. -/
theorem login_long (isLogin : (image.decode frame).type = loginRequest.code) :
    (if frame[32]? = some 0 then 33 else 49) ≤ frame.length := by
  by_cases empty : frame[32]? = some 0
  · rw [if_pos empty]
    exact (List.getElem?_eq_some_iff.mp empty).1
  rw [if_neg empty]
  by_contra short
  obtain ⟨front, length, read⟩ :=
    @drop_completion frame 49 48 (Nat.lt_of_not_le short) (by decide)
  have nothing : front = [] := length_eq_zero_iff.mp (by omega)
  -- The user name of the completed frame is not empty.
  have named (last : UInt8) : (frame ++ completion frame 49 last)[32]?.getD 0 ≠ 0 := by
    by_cases inside : 32 < frame.length
    · rw [List.getElem?_append_left inside]
      rw [List.getElem?_eq_getElem inside] at empty ⊢
      exact fun zero => empty (congrArg some zero)
    · rw [List.getElem?_append_right (Nat.le_of_not_lt inside), completion,
        List.getElem?_append_left (by rw [length_replicate]; omega),
        List.getElem?_replicate_of_lt (by omega)]
      decide
  have word (last : UInt8) : (frame ++ completion frame 49 last)[48]?.getD 0 = last := by
    have first := congrArg (fun bytes => bytes[0]?.getD 0) (read last)
    simp only [List.getElem?_drop, nothing] at first
    exact first
  have sent := (own.handled_eq 49 0 1).1
  simp only [Gateway.handlePacket_login loggedIn_found isLogin, Gateway.handleLogin_answers,
    Gateway.authenticate_decode loggedIn_found] at sent
  have bytes := congrArg Prod.snd (cons.inj sent).1
  have room : (Packet.image LoginResponseBody.image).width ≤ 8192 := by decide
  have response := PacketEncoder.body_inj room bytes
  have success := congrArg LoginResponseBody.success response
  simp only [Gateway.loginResponse, named, word, false_or] at success
  exact absurd success (by decide)

end OwnBytes

/-- Of every type and length, a frame with a header is interpreted from its own bytes exactly if it
has the bytes of the fields that are used. -/
theorem ownBytes_iff {frame : List UInt8} (header : image.width ≤ frame.length) :
    OwnBytes frame ↔ bytesUsed frame ≤ frame.length := by
  refine ⟨fun own => ?_, OwnBytes.of_bytesUsed_le⟩
  unfold bytesUsed
  dsimp only
  split
  · exact own.login_long ‹_›
  split
  · exact own.newOrder_long ‹_›
  split
  · exact own.cancelOrder_long ‹_›
  split
  · exact own.replaceOrder_long ‹_›
  · exact header

/-- A frame of a given type with a body of zeros. -/
def zeroFrame (type : MessageType) (size : Nat) : List UInt8 :=
  image.encode ⟨UInt16.ofNat (24 + size), type.code, 0, 0, 0⟩ ++
    replicate size 0

/-- A new order without the padding of its packet. -/
theorem ownBytes_iff_newOrder : OwnBytes (zeroFrame .newOrder 35) :=
  (ownBytes_iff (by decide)).mpr (by decide)

/-- The fields of a cancel of the order with a given identifier. -/
def cancelFields (origClientOrderId : UInt64) : List UInt8 :=
  CancelOrderBody.image.encode ⟨0, origClientOrderId, 0, 0⟩

/-- A bare header with the type of a cancel: which order is to be cancelled depends on what lies
behind the frame. -/
theorem not_ownBytes_bareCancel :
    let frame := zeroFrame .cancelOrder 0
    let header := image.decode frame
    let cancelled (behind : List UInt8) :=
      (Gateway.loggedIn.handlePacket 1 header (frame ++ behind) ⟨0, 0, [], 0⟩).inbound.map
        OrderCommand.origClientOrderId
    header.length = 24 ∧ frame.length = 24 ∧ cancelled (cancelFields 5) = [5] ∧
      cancelled (cancelFields 6) = [6] ∧ ¬OwnBytes frame := by
  refine ⟨by decide, by decide, by decide, by decide, fun own => ?_⟩
  exact absurd (own.cancelOrder_long (by decide)) (by decide)

end FluxTrade
