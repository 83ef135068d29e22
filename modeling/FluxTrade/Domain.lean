import Mathlib.Algebra.Order.Ring.Int
import Mathlib.Data.Finmap

/-!
# Domain values

The fixed-width words, closed enumerations and records that every subsystem
exchanges. Strong identifiers, `Price` and `Quantity` wrap exactly one machine
word in the source and are read here as that word: signed 64-bit ticks for a
price, unsigned 64-bit units for a quantity. Arithmetic on them wraps as the
machine's does. A fault is a way in which a call does not return to its caller.
-/

namespace FluxTrade

/-- The word of an `OrderId`. -/
abbrev OrderId := UInt64
/-- The word of a `TradeId`. -/
abbrev TradeId := UInt64
/-- The word of an `ExecutionId`. -/
abbrev ExecutionId := UInt64
/-- The word of a `ClientId`. -/
abbrev ClientId := UInt32
/-- The word of an `AccountId`. -/
abbrev AccountId := UInt32
/-- The word of a `SymbolId`. -/
abbrev SymbolId := UInt32
/-- `Price`: signed ticks, eight implied decimal places. -/
abbrev Price := Int64
/-- `Quantity`: unsigned units, six implied decimal places. -/
abbrev Quantity := UInt64

/-- `Side`. -/
inductive Side where
  | buy
  | sell
  deriving DecidableEq, Inhabited

namespace Side

/-- The side an aggressive order of this side trades against. -/
def opposite : Side → Side
  | buy => sell
  | sell => buy

/-- Strict price priority of a side: bids descend, asks ascend. -/
def Better : Side → Price → Price → Prop
  | buy => fun left right => right < left
  | sell => fun left right => left < right

instance (side : Side) (left right : Price) : Decidable (side.Better left right) := by
  cases side <;> dsimp only [Better] <;> infer_instance

instance {property : Side → Prop} [∀ side, Decidable (property side)] :
    Decidable (∀ side, property side) :=
  decidable_of_iff (property buy ∧ property sell)
    ⟨fun both side => side.rec both.1 both.2, fun all => ⟨all buy, all sell⟩⟩

end Side

/-- `OrderType`. -/
inductive OrderType where
  | limit
  | market
  | stop
  deriving DecidableEq, Inhabited

/-- `TimeInForce`. The gateway casts a raw byte into this enumeration, so a byte without a name
is a value as well. -/
inductive TimeInForce where
  | gtc
  | ioc
  | fok
  | unnamed (raw : UInt8) (nameless : raw ≠ 1 ∧ raw ≠ 2 ∧ raw ≠ 3)
  deriving DecidableEq, Inhabited

/-- `ExecutionType`. -/
inductive ExecutionType where
  | new
  | trade
  | cancel
  | reject
  deriving DecidableEq, Inhabited

/-- The stored code of an execution type. -/
def ExecutionType.code : ExecutionType → UInt8
  | new => 1
  | trade => 2
  | cancel => 3
  | reject => 4

/-- `RejectReason`. -/
inductive RejectReason where
  | none
  | invalidPrice
  | invalidQuantity
  | invalidSymbol
  | duplicateOrder
  | orderNotFound
  | riskLimitExceeded
  deriving DecidableEq, Inhabited

/-- The stored code of a reject reason. -/
def RejectReason.code : RejectReason → UInt16
  | none => 0
  | invalidPrice => 1
  | invalidQuantity => 2
  | invalidSymbol => 3
  | duplicateOrder => 4
  | orderNotFound => 5
  | riskLimitExceeded => 6

/-- `OrderKey`. -/
structure OrderKey where
  symbolId : SymbolId
  orderId : OrderId
  deriving DecidableEq, Inhabited

/-- `Order`: the immutable client order. -/
structure Order where
  orderId : OrderId
  /-- Limit price; not read for other types. -/
  price : Price
  qty : Quantity
  /-- Sequence number, the queue priority of the resting remainder. -/
  seqNum : UInt64
  clientTimestamp : UInt64
  exchangeTimestamp : UInt64
  clientId : ClientId
  accountId : AccountId
  symbolId : SymbolId
  side : Side
  type : OrderType
  /-- Time in force; no modelled function reads it. -/
  tif : TimeInForce
  deriving DecidableEq, Inhabited

/-- `LiveOrder`: the mutable list node of a resting order. Pointers are pool slots. -/
structure LiveOrder where
  key : OrderKey
  /-- Price of the level holding the order. -/
  price : Price
  /-- Quantity still open. -/
  remainingQty : Quantity
  prioritySeq : UInt64
  /-- Next order of the level, towards the tail. -/
  next : Option Nat
  /-- Previous order of the level, towards the head. -/
  prev : Option Nat
  deriving DecidableEq, Inhabited

/-- `Trade`. -/
structure Trade where
  tradeId : TradeId
  buyOrderId : OrderId
  sellOrderId : OrderId
  price : Price
  qty : Quantity
  timestamp : UInt64
  /-- Symbol of the aggressive order. -/
  symbolId : SymbolId
  deriving DecidableEq, Inhabited

/-- `ExecutionReport`: the client-facing record of one event of an order. -/
structure ExecutionReport where
  execId : ExecutionId
  orderId : OrderId
  price : Price
  /-- Quantity executed by the event. -/
  lastQty : Quantity
  /-- Quantity open after the event. -/
  remainingQty : Quantity
  timestamp : UInt64
  clientId : ClientId
  accountId : AccountId
  symbolId : SymbolId
  rejectReason : RejectReason
  execType : ExecutionType
  deriving DecidableEq, Inhabited

/-- Ways in which a modelled call does not return. -/
inductive Fault where
  /-- `std::bad_alloc` leaves a `noexcept` function and ends the process. -/
  | badAlloc
  /-- An `assert` fails; with assertions compiled out a null pointer is dereferenced instead. -/
  | assertion
  /-- A loop is still running after the given number of iterations. -/
  | outOfFuel
  deriving DecidableEq, Inhabited

end FluxTrade
