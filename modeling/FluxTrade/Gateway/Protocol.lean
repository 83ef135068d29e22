import FluxTrade.Library.Framing
import FluxTrade.Library.Layout

/-!
# The wire protocol

Packets are a header and a body, sent as the bytes they occupy in memory.
`PacketEncoder` copies a packet and fills in its header; `PacketDecoder` reads the
header at the front of what has arrived and waits until the length it names is
there.
-/

namespace FluxTrade

open Layout

/-- `MessageType`. -/
inductive MessageType where
  | heartbeat
  | loginRequest
  | loginResponse
  | logout
  | newOrder
  | cancelOrder
  | replaceOrder
  | executionReport
  | reject
  | trade
  | bookUpdate
  deriving DecidableEq

/-- The number of a message type on the wire. -/
def MessageType.code : MessageType → UInt16
  | heartbeat => 1
  | loginRequest => 2
  | loginResponse => 3
  | logout => 4
  | newOrder => 5
  | cancelOrder => 6
  | replaceOrder => 7
  | executionReport => 8
  | reject => 9
  | trade => 10
  | bookUpdate => 11

/-- `MessageHeader`. -/
structure MessageHeader where
  length : UInt16
  type : UInt16
  padding : UInt32
  sequence : UInt64
  timestamp : UInt64
  deriving DecidableEq

namespace MessageHeader

open Layout in
/-- The bytes of a header. -/
def image : Layout MessageHeader :=
  (uint16.pair <| uint16.pair <| uint32.pair <| uint64.pair uint64).map
    (fun header => (header.length, header.type, header.padding, header.sequence, header.timestamp))
    (fun (length, type, padding, sequence, timestamp) =>
      ⟨length, type, padding, sequence, timestamp⟩)
    fun _ => rfl

/-- The size of a header. -/
theorem image_width : image.width = 24 := rfl

/-- A header is read from its bytes. -/
theorem image_local : image.Local :=
  .map <| .pair word_local <| .pair word_local <| .pair word_local <|
    .pair word_local word_local

end MessageHeader

/-! ## Packets -/

/-- A packet: every packet type of the protocol starts with its header. -/
structure Packet (Body : Type) where
  header : MessageHeader
  body : Body

/-- The bytes of a packet: header and body. -/
def Packet.image {Body : Type} (body : Layout Body) : Layout (Packet Body) :=
  (MessageHeader.image.pair body).map (fun packet => (packet.header, packet.body))
    (fun (header, body) => ⟨header, body⟩) fun _ => rfl

/-- `LoginRequestPacket` after its header. -/
structure LoginRequestBody where
  clientId : UInt32
  accountId : UInt32
  username : Vector UInt8 16
  password : Vector UInt8 16

/-- `LoginResponsePacket` after its header. -/
structure LoginResponseBody where
  clientId : UInt32
  accountId : UInt32
  success : UInt8
  rejectReason : Vector UInt8 23

/-- `LogoutPacket` after its header. -/
structure LogoutBody where
  clientId : UInt32
  padding : UInt32

/-- `NewOrderPacket` after its header. -/
structure NewOrderBody where
  clientOrderId : UInt64
  symbolId : UInt32
  accountId : UInt32
  priceTicks : UInt64
  qtyUnits : UInt64
  side : UInt8
  type : UInt8
  tif : UInt8
  padding : Vector UInt8 5

/-- `CancelOrderPacket` after its header. -/
structure CancelOrderBody where
  clientOrderId : UInt64
  origClientOrderId : UInt64
  symbolId : UInt32
  accountId : UInt32

/-- `ReplaceOrderPacket` after its header. -/
structure ReplaceOrderBody where
  clientOrderId : UInt64
  origClientOrderId : UInt64
  symbolId : UInt32
  accountId : UInt32
  priceTicks : UInt64
  qtyUnits : UInt64

/-- `ExecutionReportPacket` after its header. -/
structure ExecutionReportBody where
  orderId : UInt64
  clientOrderId : UInt64
  symbolId : UInt32
  accountId : UInt32
  priceTicks : UInt64
  qtyUnits : UInt64
  filledQty : UInt64
  remainingQty : UInt64
  side : UInt8
  status : UInt8
  padding : Vector UInt8 6

/-- `RejectPacket` after its header. The alignment adds four bytes that have no name. -/
structure RejectBody where
  clientOrderId : UInt64
  accountId : UInt32
  reason : UInt16
  padding : Vector UInt8 6
  unnamed : UInt32

section

open Layout

/-- The bytes of a login. -/
def LoginRequestBody.image : Layout LoginRequestBody :=
  (uint32.pair <| uint32.pair <| (bytes 16).pair (bytes 16)).map
    (fun body => (body.clientId, body.accountId, body.username, body.password))
    (fun (clientId, accountId, username, password) => ⟨clientId, accountId, username, password⟩)
    fun _ => rfl

/-- The bytes of the answer to a login. -/
def LoginResponseBody.image : Layout LoginResponseBody :=
  (uint32.pair <| uint32.pair <| uint8.pair (bytes 23)).map
    (fun body => (body.clientId, body.accountId, body.success, body.rejectReason))
    (fun (clientId, accountId, success, rejectReason) =>
      ⟨clientId, accountId, success, rejectReason⟩)
    fun _ => rfl

/-- The bytes of a logout. -/
def LogoutBody.image : Layout LogoutBody :=
  (uint32.pair uint32).map (fun body => (body.clientId, body.padding))
    (fun (clientId, padding) => ⟨clientId, padding⟩) fun _ => rfl

/-- The bytes of an order. -/
def NewOrderBody.image : Layout NewOrderBody :=
  (uint64.pair <| uint32.pair <| uint32.pair <| uint64.pair <| uint64.pair <| uint8.pair <|
    uint8.pair <| uint8.pair (bytes 5)).map
    (fun body => (body.clientOrderId, body.symbolId, body.accountId, body.priceTicks,
      body.qtyUnits, body.side, body.type, body.tif, body.padding))
    (fun (clientOrderId, symbolId, accountId, priceTicks, qtyUnits, side, type, tif, padding) =>
      ⟨clientOrderId, symbolId, accountId, priceTicks, qtyUnits, side, type, tif, padding⟩)
    fun _ => rfl

/-- The bytes of a cancel. -/
def CancelOrderBody.image : Layout CancelOrderBody :=
  (uint64.pair <| uint64.pair <| uint32.pair uint32).map
    (fun body => (body.clientOrderId, body.origClientOrderId, body.symbolId, body.accountId))
    (fun (clientOrderId, origClientOrderId, symbolId, accountId) =>
      ⟨clientOrderId, origClientOrderId, symbolId, accountId⟩)
    fun _ => rfl

/-- The bytes of a replace. -/
def ReplaceOrderBody.image : Layout ReplaceOrderBody :=
  (uint64.pair <| uint64.pair <| uint32.pair <| uint32.pair <| uint64.pair uint64).map
    (fun body => (body.clientOrderId, body.origClientOrderId, body.symbolId, body.accountId,
      body.priceTicks, body.qtyUnits))
    (fun (clientOrderId, origClientOrderId, symbolId, accountId, priceTicks, qtyUnits) =>
      ⟨clientOrderId, origClientOrderId, symbolId, accountId, priceTicks, qtyUnits⟩)
    fun _ => rfl

/-- The bytes of an execution report. -/
def ExecutionReportBody.image : Layout ExecutionReportBody :=
  (uint64.pair <| uint64.pair <| uint32.pair <| uint32.pair <| uint64.pair <| uint64.pair <|
    uint64.pair <| uint64.pair <| uint8.pair <| uint8.pair (bytes 6)).map
    (fun body => (body.orderId, body.clientOrderId, body.symbolId, body.accountId,
      body.priceTicks, body.qtyUnits, body.filledQty, body.remainingQty, body.side, body.status,
      body.padding))
    (fun (orderId, clientOrderId, symbolId, accountId, priceTicks, qtyUnits, filledQty,
        remainingQty, side, status, padding) =>
      ⟨orderId, clientOrderId, symbolId, accountId, priceTicks, qtyUnits, filledQty, remainingQty,
        side, status, padding⟩)
    fun _ => rfl

/-- The bytes of a reject. -/
def RejectBody.image : Layout RejectBody :=
  (uint64.pair <| uint32.pair <| uint16.pair <| (bytes 6).pair uint32).map
    (fun body => (body.clientOrderId, body.accountId, body.reason, body.padding, body.unnamed))
    (fun (clientOrderId, accountId, reason, padding, unnamed) =>
      ⟨clientOrderId, accountId, reason, padding, unnamed⟩)
    fun _ => rfl

end

/-- The packet types of the protocol. -/
inductive PacketType where
  | heartbeat
  | loginRequest
  | loginResponse
  | logout
  | newOrder
  | cancelOrder
  | replaceOrder
  | executionReport
  | reject

namespace PacketType

/-- What a packet of each type carries. -/
def Body : PacketType → Type
  | heartbeat => Unit
  | loginRequest => LoginRequestBody
  | loginResponse => LoginResponseBody
  | logout => LogoutBody
  | newOrder => NewOrderBody
  | cancelOrder => CancelOrderBody
  | replaceOrder => ReplaceOrderBody
  | executionReport => ExecutionReportBody
  | reject => RejectBody

/-- The bytes of a body of each type. -/
def body : (type : PacketType) → Layout type.Body
  | heartbeat => unit
  | loginRequest => LoginRequestBody.image
  | loginResponse => LoginResponseBody.image
  | logout => LogoutBody.image
  | newOrder => NewOrderBody.image
  | cancelOrder => CancelOrderBody.image
  | replaceOrder => ReplaceOrderBody.image
  | executionReport => ExecutionReportBody.image
  | reject => RejectBody.image

/-- Packets have at most the 88 bytes of an execution report. -/
theorem width_le (type : PacketType) : (Packet.image type.body).width ≤ 88 := by
  cases type <;> decide

end PacketType

/-! ## Encoding and decoding -/

/-- The header that `PacketEncoder::encode` writes over the packet's own. -/
def MessageHeader.filled (header : MessageHeader) (size : Nat) (type : MessageType)
    (seq ts : UInt64) : MessageHeader :=
  { header with length := UInt16.ofNat size, type := type.code, sequence := seq, timestamp := ts }

/-- `PacketEncoder::encode`: the bytes written, none when the destination is too short. -/
def PacketEncoder.encode {Body : Type} (body : Layout Body) (destLen : Nat) (type : MessageType)
    (seq ts : UInt64) (packet : Packet Body) : List UInt8 :=
  let image := Packet.image body
  if destLen < image.width then []
  else
    image.encode { packet with header := packet.header.filled image.width type seq ts }

/-- Packets that are written alike, with room for them, have the same body. -/
theorem PacketEncoder.body_inj {Body : Type} {body : Layout Body} {destLen : Nat}
    {type : MessageType} {seq ts : UInt64} {packet other : Packet Body}
    (room : (Packet.image body).width ≤ destLen)
    (same : encode body destLen type seq ts packet = encode body destLen type seq ts other) :
    packet.body = other.body := by
  unfold encode at same
  dsimp only at same
  rw [if_neg (Nat.not_lt.mpr room), if_neg (Nat.not_lt.mpr room)] at same
  have decoded := congrArg (Packet.image body).decode same
  rw [decode_encode_self, decode_encode_self] at decoded
  exact (Packet.mk.inj decoded).2

/-- What `PacketDecoder::decode` hands out: the header, the bytes from the payload pointer on, and
the number of bytes of the frame. -/
structure Decoded where
  header : MessageHeader
  payload : List UInt8
  bytesRead : Nat

/-- `PacketDecoder::decode`. -/
def PacketDecoder.decode (data : List UInt8) : Option Decoded :=
  if data.length < MessageHeader.image.width then none
  else
    let header := MessageHeader.image.decode data
    if data.length < header.length.toNat then none
    else some ⟨header, data.drop MessageHeader.image.width, header.length.toNat⟩

/-- The length that the header at the front names. -/
def frameSize (data : List UInt8) : Option Nat :=
  if data.length < MessageHeader.image.width then none
  else some (MessageHeader.image.decode data).length.toNat

/-- More bytes keep the frame size. -/
theorem frameSize_stable : Framing.Stable frameSize := by
  intro bytes rest length known
  unfold frameSize at known ⊢
  by_cases short : bytes.length < MessageHeader.image.width
  · rw [if_pos short] at known
    cases known
  · have long : ¬(bytes ++ rest).length < MessageHeader.image.width := by
      rw [List.length_append]
      omega
    rw [if_neg short] at known
    rw [if_neg long, MessageHeader.image_local bytes rest (by omega)]
    exact known

/-- The decoder takes the frames that the reader of lengths takes. -/
theorem PacketDecoder.decode_eq (data : List UInt8) :
    decode data = (Framing.next frameSize data).map fun (frame, _) =>
      ⟨MessageHeader.image.decode data, data.drop MessageHeader.image.width, frame.length⟩ := by
  unfold decode Framing.next frameSize
  by_cases short : data.length < MessageHeader.image.width
  · rw [if_pos short, if_pos short]
    rfl
  · rw [if_neg short, if_neg short]
    by_cases waiting : data.length < (MessageHeader.image.decode data).length.toNat
    · simp only [waiting, if_true, Option.map_none]
    · have full : min (MessageHeader.image.decode data).length.toNat data.length =
          (MessageHeader.image.decode data).length.toNat := by omega
      simp only [waiting, if_false, Option.map_some, List.length_take, full]

/-- A frame whose header names its true length. -/
structure WellFramed (frame : List UInt8) : Prop where
  header : MessageHeader.image.width ≤ frame.length
  small : frame.length ≤ 4096
  length_eq : (MessageHeader.image.decode frame).length.toNat = frame.length

/-- A well-formed frame is whole. -/
theorem WellFramed.whole {frame : List UInt8} (framed : WellFramed frame) :
    Framing.Whole frameSize frame := by
  have long := framed.header
  constructor
  · intro empty
    rw [empty, MessageHeader.image_width] at long
    exact absurd long (by decide)
  · rw [frameSize, if_neg (by omega), framed.length_eq]

/-- A call of `PacketEncoder::encode` with room for the packet. -/
structure Outgoing where
  packetType : PacketType
  packet : Packet packetType.Body
  type : MessageType
  seq : UInt64
  ts : UInt64
  destLen : Nat
  room : (Packet.image packetType.body).width ≤ destLen

namespace Outgoing

variable (outgoing : Outgoing)

/-- The size of the packet. -/
def size : Nat := (Packet.image outgoing.packetType.body).width

/-- The header on the wire. -/
def header : MessageHeader :=
  outgoing.packet.header.filled outgoing.size outgoing.type outgoing.seq outgoing.ts

/-- The bytes of the packet after its header. -/
def payload : List UInt8 := outgoing.packetType.body.encode outgoing.packet.body

/-- The bytes written. -/
def frame : List UInt8 :=
  PacketEncoder.encode outgoing.packetType.body outgoing.destLen outgoing.type outgoing.seq
    outgoing.ts outgoing.packet

/-- A frame is header and payload. -/
theorem frame_eq :
    outgoing.frame = MessageHeader.image.encode outgoing.header ++ outgoing.payload := by
  unfold frame PacketEncoder.encode
  rw [if_neg (Nat.not_lt.mpr outgoing.room)]
  rfl

/-- The size of a frame. -/
theorem frame_length : outgoing.frame.length = outgoing.size := by
  rw [frame_eq, List.length_append, encode_length, payload, encode_length]
  rfl

/-- The header states it. -/
theorem header_length : outgoing.header.length.toNat = outgoing.size := by
  have small : outgoing.size ≤ 88 := outgoing.packetType.width_le
  change (UInt16.ofNat outgoing.size).toNat = outgoing.size
  rw [UInt16.toNat_ofNat', Nat.mod_eq_of_lt]
  omega

/-- Encoded packets are well framed. -/
theorem frame_wellFramed : WellFramed outgoing.frame := by
  have small : outgoing.size ≤ 88 := outgoing.packetType.width_le
  have length := outgoing.frame_length
  refine ⟨?_, by omega, ?_⟩
  · rw [frame_eq]
    exact MessageHeader.image.le_length _ _
  · rw [length, frame_eq, MessageHeader.image.decode_encode]
    exact outgoing.header_length

/-- The decoder hands out the encoded header and payload. -/
theorem decode_frame :
    PacketDecoder.decode outgoing.frame =
      some ⟨outgoing.header, outgoing.payload, outgoing.size⟩ := by
  have framed := outgoing.frame_wellFramed
  have length := outgoing.frame_length
  have long := framed.header
  have named := framed.length_eq
  unfold PacketDecoder.decode
  rw [if_neg (by omega), if_neg (by omega), named, length, frame_eq,
    MessageHeader.image.decode_encode, MessageHeader.image.drop_encode]

/-- The packet is read back with the header on the wire, whatever lies behind it. -/
theorem image_decode_frame (rest : List UInt8) :
    (Packet.image outgoing.packetType.body).decode (outgoing.frame ++ rest) =
      { outgoing.packet with header := outgoing.header } := by
  have written : outgoing.frame = (Packet.image outgoing.packetType.body).encode
      { outgoing.packet with header := outgoing.header } := outgoing.frame_eq
  rw [written, decode_encode]

end Outgoing

end FluxTrade
