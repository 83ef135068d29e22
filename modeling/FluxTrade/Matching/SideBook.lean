import FluxTrade.Matching.IntrusiveList

/-!
# Price levels of one side

`BidBook` and `AskBook` differ only in the direction in which prices improve,
so both are `SideBook`, and the side is an argument of the operations that
compare prices. A side keeps its levels in a doubly linked list from the best
price on and, independently, in an index from prices to levels. An abstract
level list is ordered strictly by price.
-/

namespace FluxTrade

open LinkedList

/-- `PriceLevelNode`. -/
structure PriceLevelNode where
  price : Price
  totalQty : Quantity
  orderCount : UInt32
  orders : IntrusiveOrderList
  /-- Next level: down for bids, up for asks. -/
  next : Option Nat
  prev : Option Nat
  deriving DecidableEq, Inhabited

/-- The level that `create_level` builds before linking it. -/
def blankLevel (price : Price) : PriceLevelNode := ⟨price, 0, 0, ⟨none, none⟩, none, none⟩

/-- Slots of the level pool. -/
def levelCapacity : Nat := 1024

/-- `ObjectPool<PriceLevelNode, 1024>`. -/
abbrev LevelPool := ObjectPool PriceLevelNode levelCapacity

/-- `PriceLevelIndex`: the source orders its map by price, and reads it only by exact key. -/
abbrev PriceLevelIndex := Finmap fun _ : Price => Nat

/-- `BidBook` and `AskBook`. -/
structure SideBook where
  /-- `best_level_`. -/
  bestLevel : Option Nat
  /-- `index_`. -/
  index : PriceLevelIndex
  deriving Inhabited

/-- Redirect the forward link of an optional level. -/
def setNext (levels : Nat → PriceLevelNode) (slot target : Option Nat) : Nat → PriceLevelNode :=
  match slot with
  | some slot => modifyAt levels slot fun level => { level with next := target }
  | none => levels

/-- Redirect the backward link of an optional level. -/
def setPrev (levels : Nat → PriceLevelNode) (slot target : Option Nat) : Nat → PriceLevelNode :=
  match slot with
  | some slot => modifyAt levels slot fun level => { level with prev := target }
  | none => levels

/-- Link a level between two optional neighbours. -/
def linkBetween (levels : Nat → PriceLevelNode) (node : Nat) (before after : Option Nat) :
    Nat → PriceLevelNode :=
  let levels := modifyAt levels node fun level => { level with next := after, prev := before }
  setNext (setPrev levels after (some node)) before (some node)

/-- Join the two optional neighbours of a level that leaves the list. -/
def joinAround (levels : Nat → PriceLevelNode) (before after : Option Nat) :
    Nat → PriceLevelNode :=
  setPrev (setNext levels before after) after before

namespace SideBook

/-- `find_level`. -/
def findLevel (book : SideBook) (price : Price) : Option Nat := book.index.lookup price

/-- The traversal of `create_level`: the last level whose successor is not better than `price`. -/
def insertionPoint (side : Side) (levels : Nat → PriceLevelNode) (price : Price) :
    Nat → Nat → Except Fault Nat
  | 0, _ => .error .outOfFuel
  | fuel + 1, current =>
    match (levels current).next with
    | none => .ok current
    | some next =>
      if side.Better (levels next).price price then insertionPoint side levels price fuel next
      else .ok current

/-- `create_level`: the new level, the side and the level pool. -/
def createLevel (side : Side) (book : SideBook) (price : Price) (pool : LevelPool) :
    Except Fault (Nat × SideBook × LevelPool) := do
  let (node, pool) ← pool.allocate (blankLevel price)
  let index := book.index.insert price node
  match book.bestLevel with
  | none => .ok (node, ⟨some node, index⟩,
      { pool with storage := linkBetween pool.storage node none none })
  | some best =>
    if side.Better price (pool.storage best).price then
      .ok (node, ⟨some node, index⟩,
        { pool with storage := linkBetween pool.storage node none (some best) })
    else do
      let current ← insertionPoint side pool.storage price levelCapacity best
      .ok (node, ⟨some best, index⟩,
        { pool with
          storage := linkBetween pool.storage node (some current) (pool.storage current).next })

/-- `remove_level`: the best level is replaced by its successor, any other is unlinked. -/
def removeLevel (book : SideBook) (pool : LevelPool) (node : Nat) : SideBook × LevelPool :=
  let level := pool.storage node
  let index := book.index.erase level.price
  if book.bestLevel = some node then
    (⟨level.next, index⟩,
      { pool with storage := joinAround pool.storage none level.next }.deallocate node)
  else
    (⟨book.bestLevel, index⟩,
      { pool with storage := joinAround pool.storage level.prev level.next }.deallocate node)

end SideBook

/-! ## Abstract level lists -/

/-- A price level with its queue. -/
structure LevelView where
  /-- Pool slot of the level. -/
  slot : Nat
  price : Price
  /-- Queue, from head to tail. -/
  orders : List OrderView
  deriving DecidableEq, Inhabited

/-- Slots of a level list. -/
abbrev levelSlots (levels : List LevelView) : List Nat := levels.map LevelView.slot

/-- Strict price priority along a level list. -/
def Sorted (side : Side) (levels : List LevelView) : Prop :=
  levels.Pairwise fun left right => side.Better left.price right.price

namespace Side

variable {side : Side} {left middle right : Price}

/-- Better is transitive. -/
theorem Better.trans (first : side.Better left middle) (second : side.Better middle right) :
    side.Better left right := by
  cases side <;> simp only [Better] at * <;> grind

/-- It is irreflexive. -/
theorem Better.irrefl : ¬side.Better left left := by
  cases side <;> simp only [Better] <;> grind

/-- It is asymmetric. -/
theorem Better.asymm (first : side.Better left right) : ¬side.Better right left :=
  fun second => Better.irrefl (first.trans second)

/-- It is total. -/
theorem better_total (distinct : left ≠ right) :
    side.Better left right ∨ side.Better right left := by
  cases side <;> simp only [Better] <;> grind

end Side

/-- Levels before the place of a new price. -/
def levelsAhead (side : Side) (price : Price) (levels : List LevelView) : List LevelView :=
  levels.takeWhile fun other => side.Better other.price price

/-- Levels after the place of a new price. -/
def levelsBehind (side : Side) (price : Price) (levels : List LevelView) : List LevelView :=
  levels.dropWhile fun other => side.Better other.price price

/-- The list is cut at a price. -/
theorem levelsAhead_append_levelsBehind (side : Side) (price : Price) (levels : List LevelView) :
    levelsAhead side price levels ++ levelsBehind side price levels = levels :=
  List.takeWhile_append_dropWhile

/-- Insert a level before the first one that is not better. -/
def insertLevel (side : Side) (level : LevelView) (levels : List LevelView) : List LevelView :=
  levelsAhead side level.price levels ++ level :: levelsBehind side level.price levels

/-- One level more. -/
theorem mem_insertLevel {side : Side} {level other : LevelView} {levels : List LevelView} :
    other ∈ insertLevel side level levels ↔ other = level ∨ other ∈ levels := by
  conv_rhs => rw [← levelsAhead_append_levelsBehind side level.price levels]
  simp only [insertLevel, List.mem_append, List.mem_cons]
  tauto

/-- Insertion keeps the strict order when no level has the new price. -/
theorem Sorted.insertLevel {side : Side} {level : LevelView} {levels : List LevelView}
    (sorted : Sorted side levels) (absent : ∀ other ∈ levels, other.price ≠ level.price) :
    Sorted side (insertLevel side level levels) := by
  induction levels with
  | nil => simp [FluxTrade.insertLevel, levelsAhead, levelsBehind, Sorted]
  | cons first rest ih =>
    obtain ⟨ahead, tail⟩ := List.pairwise_cons.mp sorted
    have inner := ih tail fun other member => absent other (List.mem_cons_of_mem _ member)
    simp only [FluxTrade.insertLevel, levelsAhead, levelsBehind, List.takeWhile_cons,
      List.dropWhile_cons] at inner ⊢
    by_cases better : side.Better first.price level.price
    · simp only [better, decide_true, if_true, List.cons_append]
      refine List.pairwise_cons.mpr ⟨?_, inner⟩
      intro other member
      rcases mem_insertLevel.mp member with rfl | old
      · exact better
      · exact ahead other old
    · simp only [better, decide_false, Bool.false_eq_true, if_false, List.nil_append]
      have front : side.Better level.price first.price :=
        (Side.better_total (absent first List.mem_cons_self)).resolve_left better
      refine List.pairwise_cons.mpr ⟨?_, sorted⟩
      intro other member
      rcases List.mem_cons.mp member with rfl | old
      · exact front
      · exact front.trans (ahead other old)

/-- No other level of a sorted list has the price of a listed one. -/
theorem Sorted.price_ne {side : Side} {front back : List LevelView} {level other : LevelView}
    (sorted : Sorted side (front ++ level :: back)) (member : other ∈ front ++ back) :
    other.price ≠ level.price := by
  obtain ⟨_, tail, across⟩ := List.pairwise_append.mp sorted
  intro same
  rcases List.mem_append.mp member with ahead | behind
  · exact Side.Better.irrefl (same ▸ across other ahead level List.mem_cons_self)
  · exact Side.Better.irrefl (same ▸ (List.pairwise_cons.mp tail).1 other behind)

/-! ## Links of the level list -/

/-- A level without its links. -/
def PriceLevelNode.unlinked (level : PriceLevelNode) : PriceLevelNode :=
  { level with next := none, prev := none }

section Links

variable (levels : Nat → PriceLevelNode) (at' target : Option Nat) (slot : Nat)

/-- A forward link is set. -/
theorem setNext_next :
    (fun slot => (setNext levels at' target slot).next) =
      relink (fun slot => (levels slot).next) at' target := by
  cases at' with
  | none => rfl
  | some address => exact read_modifyAt PriceLevelNode.next _ _ _

/-- A backward link is set. -/
theorem setPrev_prev :
    (fun slot => (setPrev levels at' target slot).prev) =
      relink (fun slot => (levels slot).prev) at' target := by
  cases at' with
  | none => rfl
  | some address => exact read_modifyAt PriceLevelNode.prev _ _ _

/-- Backward links stay. -/
theorem setNext_prev : (setNext levels at' target slot).prev = (levels slot).prev := by
  cases at' with
  | none => rfl
  | some address => exact read_modifyAt_of_eq PriceLevelNode.prev _ _ _ rfl slot

/-- Forward links stay. -/
theorem setPrev_next : (setPrev levels at' target slot).next = (levels slot).next := by
  cases at' with
  | none => rfl
  | some address => exact read_modifyAt_of_eq PriceLevelNode.next _ _ _ rfl slot

/-- All else stays. -/
theorem setNext_unlinked :
    (setNext levels at' target slot).unlinked = (levels slot).unlinked := by
  cases at' with
  | none => rfl
  | some address => exact read_modifyAt_of_eq PriceLevelNode.unlinked _ _ _ rfl slot

/-- All else stays. -/
theorem setPrev_unlinked :
    (setPrev levels at' target slot).unlinked = (levels slot).unlinked := by
  cases at' with
  | none => rfl
  | some address => exact read_modifyAt_of_eq PriceLevelNode.unlinked _ _ _ rfl slot

variable {at' slot}

/-- Other nodes stay. -/
theorem setNext_frame (apart : at' ≠ some slot) : setNext levels at' target slot = levels slot := by
  cases at' with
  | none => rfl
  | some address =>
    have distinct : slot ≠ address := fun same => apart (by rw [same])
    simp [setNext, distinct]

/-- Other nodes stay. -/
theorem setPrev_frame (apart : at' ≠ some slot) : setPrev levels at' target slot = levels slot := by
  cases at' with
  | none => rfl
  | some address =>
    have distinct : slot ≠ address := fun same => apart (by rw [same])
    simp [setPrev, distinct]

variable (node : Nat) (before after : Option Nat)

/-- The forward links. -/
theorem linkBetween_next :
    (fun slot => (linkBetween levels node before after slot).next) =
      relink (Function.update (fun slot => (levels slot).next) node after) before
        (some node) := by
  simp only [linkBetween]
  rw [setNext_next]
  simp only [setPrev_next]
  rw [read_modifyAt PriceLevelNode.next]

/-- The backward links. -/
theorem linkBetween_prev :
    (fun slot => (linkBetween levels node before after slot).prev) =
      relink (Function.update (fun slot => (levels slot).prev) node before) after
        (some node) := by
  simp only [linkBetween, setNext_prev]
  rw [setPrev_prev, read_modifyAt PriceLevelNode.prev]

/-- All else stays. -/
theorem linkBetween_unlinked :
    (linkBetween levels node before after slot).unlinked = (levels slot).unlinked := by
  simp only [linkBetween, setNext_unlinked, setPrev_unlinked]
  exact read_modifyAt_of_eq PriceLevelNode.unlinked _ _ _ rfl slot

/-- The forward links. -/
theorem joinAround_next :
    (fun slot => (joinAround levels before after slot).next) =
      relink (fun slot => (levels slot).next) before after := by
  simp only [joinAround, setPrev_next]
  exact setNext_next _ _ _

/-- The backward links. -/
theorem joinAround_prev :
    (fun slot => (joinAround levels before after slot).prev) =
      relink (fun slot => (levels slot).prev) after before := by
  simp only [joinAround]
  rw [setPrev_prev]
  simp only [setNext_prev]

variable {node before after}

/-- Linking writes only to the new level and its two neighbours. -/
theorem linkBetween_frame (apart : slot ≠ node) (notBefore : before ≠ some slot)
    (notAfter : after ≠ some slot) : linkBetween levels node before after slot = levels slot := by
  simp only [linkBetween]
  rw [setNext_frame _ _ notBefore, setPrev_frame _ _ notAfter, modifyAt_of_ne _ _ apart]

/-- Joining writes only to the two neighbours. -/
theorem joinAround_frame (notBefore : before ≠ some slot) (notAfter : after ≠ some slot) :
    joinAround levels before after slot = levels slot := by
  simp only [joinAround]
  rw [setPrev_frame _ _ notAfter, setNext_frame _ _ notBefore]

end Links

end FluxTrade
