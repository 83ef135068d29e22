import FluxTrade.Library.Layout
import FluxTrade.Domain

/-!
# Commands and outbound packets

`OrderCommand` is what the gateway hands to the engines. `OutboundReport` is what
an engine hands back: the packet of an execution report or of a reject, with the
connection it goes to. Padding and packet lengths of outbound packets carry no
information and are left out. A command is also read as the 72 bytes it occupies
in memory, which the journal stores.
-/

namespace FluxTrade

/-- Connections are named by their file descriptors. -/
abbrev ConnId := Int32

/-- `CommandType`. -/
inductive CommandType where
  | newOrder
  | cancelOrder
  | replaceOrder
  deriving DecidableEq, Inhabited

/-- `OrderCommand`. -/
structure OrderCommand where
  type : CommandType
  sequence : UInt64
  timestamp : UInt64
  clientOrderId : UInt64
  origClientOrderId : UInt64
  symbolId : SymbolId
  accountId : AccountId
  price : Price
  qty : Quantity
  side : Side
  orderType : OrderType
  tif : TimeInForce
  connId : ConnId
  deriving DecidableEq, Inhabited

/-- The order of a `NewOrder` command, as the engine and the replay build it. -/
def OrderCommand.toOrder (command : OrderCommand) (exchangeTimestamp : UInt64) : Order where
  orderId := command.clientOrderId
  price := command.price
  qty := command.qty
  seqNum := command.sequence
  clientTimestamp := command.timestamp
  exchangeTimestamp := exchangeTimestamp
  clientId := 1
  accountId := command.accountId
  symbolId := command.symbolId
  side := command.side
  type := command.orderType
  tif := command.tif

/-! ## The memory image of a command -/

/-- Stored codes; a byte without a name reads as the last value, which is how comparisons with the
named ones take it. -/
def CommandType.code : CommandType → UInt8
  | newOrder => 0
  | cancelOrder => 1
  | replaceOrder => 2

/-- The command type that a byte names. -/
def CommandType.ofCode (code : UInt8) : CommandType :=
  if code = 0 then newOrder else if code = 1 then cancelOrder else replaceOrder

/-- The byte of a side. -/
def Side.code : Side → UInt8
  | buy => 1
  | sell => 2

/-- The side that a byte names. -/
def Side.ofCode (code : UInt8) : Side := if code = 1 then buy else sell

/-- The byte of an order type. -/
def OrderType.code : OrderType → UInt8
  | limit => 1
  | market => 2
  | stop => 3

/-- The order type that a byte names. -/
def OrderType.ofCode (code : UInt8) : OrderType :=
  if code = 1 then limit else if code = 2 then market else stop

/-- The byte of a time in force. -/
def TimeInForce.code : TimeInForce → UInt8
  | gtc => 1
  | ioc => 2
  | fok => 3
  | unnamed raw _ => raw

/-- The time in force that a byte names. -/
def TimeInForce.ofCode (code : UInt8) : TimeInForce :=
  if isGtc : code = 1 then gtc
  else if isIoc : code = 2 then ioc
  else if isFok : code = 3 then fok
  else unnamed code ⟨isGtc, isIoc, isFok⟩

/-- Codes are read back. -/
theorem CommandType.ofCode_code (type : CommandType) : ofCode type.code = type := by
  cases type <;> rfl

/-- Codes are read back. -/
theorem Side.ofCode_code (side : Side) : ofCode side.code = side := by
  cases side <;> rfl

/-- Codes are read back. -/
theorem OrderType.ofCode_code (type : OrderType) : ofCode type.code = type := by
  cases type <;> rfl

/-- Codes are read back. -/
theorem TimeInForce.ofCode_code (tif : TimeInForce) : ofCode tif.code = tif := by
  cases tif with
  | unnamed raw nameless =>
    obtain ⟨notGtc, notIoc, notFok⟩ := nameless
    rw [code, ofCode, dif_neg notGtc, dif_neg notIoc, dif_neg notFok]
  | _ => rfl

open Layout in
/-- `OrderCommand` in memory. The byte between `tif` and `conn_id` has no name and any contents. -/
def OrderCommand.image (unnamed : UInt8) : Layout OrderCommand :=
  let type := (uint8.map CommandType.code CommandType.ofCode CommandType.ofCode_code).padded
    [0, 0, 0, 0, 0, 0, 0]
  let price := uint64.map Int64.toUInt64 UInt64.toInt64 fun _ => rfl
  let side := uint8.map Side.code Side.ofCode Side.ofCode_code
  let orderType := uint8.map OrderType.code OrderType.ofCode OrderType.ofCode_code
  let tif :=
    (uint8.map TimeInForce.code TimeInForce.ofCode TimeInForce.ofCode_code).padded [unnamed]
  let connId := uint32.map Int32.toUInt32 UInt32.toInt32 fun _ => rfl
  let fields := type.pair <| uint64.pair <| uint64.pair <| uint64.pair <| uint64.pair <|
    uint32.pair <| uint32.pair <| price.pair <| uint64.pair <| side.pair <| orderType.pair <|
    tif.pair connId
  fields.map
    (fun command => (command.type, command.sequence, command.timestamp, command.clientOrderId,
      command.origClientOrderId, command.symbolId, command.accountId, command.price, command.qty,
      command.side, command.orderType, command.tif, command.connId))
    (fun (type, sequence, timestamp, clientOrderId, origClientOrderId, symbolId, accountId, price,
        qty, side, orderType, tif, connId) =>
      ⟨type, sequence, timestamp, clientOrderId, origClientOrderId, symbolId, accountId, price, qty,
        side, orderType, tif, connId⟩)
    fun _ => rfl

namespace OrderCommand

/-- The size of a command. -/
theorem image_width (unnamed : UInt8) : (image unnamed).width = 72 := rfl

/-- A command is read back from its image, whatever the byte without a name was. -/
theorem decode_image (unnamed : UInt8) (command : OrderCommand) :
    (image 0).decode ((image unnamed).encode command) = command :=
  (image unnamed).decode_encode_self command

end OrderCommand

/-! ## Outbound packets -/

/-- `MessageHeader` of an outbound packet. -/
structure PacketHeader where
  sequence : UInt64
  timestamp : UInt64
  deriving DecidableEq

/-- `ExecutionReportPacket`. -/
structure ExecutionReportPacket where
  header : PacketHeader
  orderId : UInt64
  clientOrderId : UInt64
  symbolId : UInt32
  accountId : UInt32
  priceTicks : UInt64
  qtyUnits : UInt64
  filledQty : UInt64
  remainingQty : UInt64
  side : UInt8
  status : UInt8
  deriving DecidableEq

/-- `RejectPacket`. -/
structure RejectPacket where
  header : PacketHeader
  clientOrderId : UInt64
  accountId : UInt32
  reason : UInt16
  deriving DecidableEq

/-- The packet of an `OutboundReport`. -/
inductive OutboundPacket where
  | execution (packet : ExecutionReportPacket)
  | reject (packet : RejectPacket)
  deriving DecidableEq

/-- `OutboundReport`. -/
structure OutboundReport where
  connId : ConnId
  packet : OutboundPacket
  deriving DecidableEq

/-- A default constructed report: a zeroed reject for no connection. -/
def OutboundReport.blank : OutboundReport := ⟨-1, .reject ⟨⟨0, 0⟩, 0, 0, 0⟩⟩

end FluxTrade
