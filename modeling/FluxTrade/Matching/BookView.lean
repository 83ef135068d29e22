import FluxTrade.Matching.SideBook

/-!
# What one side represents

`SideRep` relates a `SideBook`, in a store of levels and a store of orders, to
an abstract level list: the linked list visits exactly the levels of the list,
the price index holds exactly those levels, prices are strictly ordered, and
each level's totals agree with its queue. Creating and removing a level are
insertion into and deletion from the abstract list, and touch no level outside.
-/

namespace FluxTrade

open LinkedList Function SideBook List

/-- Total open quantity of a queue, wrapping as the level's counter does. -/
def openQty : List OrderView → Quantity
  | [] => 0
  | entry :: rest => entry.remainingQty + openQty rest

/-- Totals add up. -/
theorem openQty_append (front back : List OrderView) :
    openQty (front ++ back) = openQty front + openQty back := by
  induction front with
  | nil => simp [openQty]
  | cons entry rest ih => simp only [cons_append, openQty, ih, UInt64.add_assoc]

/-- A level node represents a level: its price, its totals and its queue. -/
structure LevelRep (orders : Nat → LiveOrder) (node : PriceLevelNode) (level : LevelView) :
    Prop where
  priced : node.price = level.price
  total : node.totalQty = openQty level.orders
  count : node.orderCount = UInt32.ofNat level.orders.length
  queue : QueueRep orders node.orders level.price level.orders

/-- A level is represented by its node's contents, whatever its links. -/
theorem LevelRep.congr {orders orders' : Nat → LiveOrder} {node node' : PriceLevelNode}
    {level : LevelView} (rep : LevelRep orders node level)
    (sameNode : node'.unlinked = node.unlinked)
    (sameOrders : ∀ slot ∈ queueSlots level.orders, orders' slot = orders slot) :
    LevelRep orders' node' level := by
  have price : node'.price = node.price :=
    (congrArg PriceLevelNode.price sameNode :)
  have total : node'.totalQty = node.totalQty :=
    (congrArg PriceLevelNode.totalQty sameNode :)
  have count : node'.orderCount = node.orderCount :=
    (congrArg PriceLevelNode.orderCount sameNode :)
  have list : node'.orders = node.orders :=
    (congrArg PriceLevelNode.orders sameNode :)
  constructor
  · rw [price, rep.priced]
  · rw [total, rep.total]
  · rw [count, rep.count]
  · rw [list]
    exact rep.queue.congr sameOrders

/-- Order slots of a level list. -/
def orderSlots (levels : List LevelView) : List Nat :=
  levels.flatMap fun level => queueSlots level.orders

/-- No level has no slot. -/
@[simp]
theorem orderSlots_nil : orderSlots [] = [] := rfl

/-- More levels. -/
@[simp]
theorem orderSlots_append (front back : List LevelView) :
    orderSlots (front ++ back) = orderSlots front ++ orderSlots back := by
  simp [orderSlots]

/-- One level more. -/
@[simp]
theorem orderSlots_cons (level : LevelView) (rest : List LevelView) :
    orderSlots (level :: rest) = queueSlots level.orders ++ orderSlots rest := by
  simp [orderSlots]

/-- A queued order has a slot. -/
theorem mem_orderSlots {levels : List LevelView} {level : LevelView} {entry : OrderView}
    (member : level ∈ levels) (queued : entry ∈ level.orders) : entry.slot ∈ orderSlots levels :=
  mem_flatMap.mpr ⟨level, member, mem_map_of_mem queued⟩

/-- The resting orders of a side, best price first and head to tail within a level. -/
def restingOrders (levels : List LevelView) : List OrderView := levels.flatMap LevelView.orders

/-- No level has no order. -/
@[simp]
theorem restingOrders_nil : restingOrders [] = [] := rfl

/-- One level more. -/
@[simp]
theorem restingOrders_cons (level : LevelView) (rest : List LevelView) :
    restingOrders (level :: rest) = level.orders ++ restingOrders rest := by
  simp [restingOrders]

/-- More levels. -/
@[simp]
theorem restingOrders_append (front back : List LevelView) :
    restingOrders (front ++ back) = restingOrders front ++ restingOrders back := by
  simp [restingOrders]

/-- A slot for each order. -/
theorem orderSlots_length (levels : List LevelView) :
    (orderSlots levels).length = (restingOrders levels).length := by
  induction levels with
  | nil => rfl
  | cons level rest ih => simp [ih]

/-- A side represents a level list. -/
structure SideRep (side : Side) (levels : Nat → PriceLevelNode) (orders : Nat → LiveOrder)
    (book : SideBook) (view : List LevelView) : Prop where
  chain : DList (fun slot => (levels slot).next) (fun slot => (levels slot).prev) book.bestLevel
    (levelSlots view).getLast? (levelSlots view)
  index : ∀ price slot, book.findLevel price = some slot ↔
    ∃ level ∈ view, level.price = price ∧ level.slot = slot
  sorted : Sorted side view
  nodes : ∀ level ∈ view, LevelRep orders (levels level.slot) level

namespace SideRep

variable {side : Side} {levels : Nat → PriceLevelNode} {orders : Nat → LiveOrder}
  {book : SideBook} {view front back : List LevelView} {level : LevelView}
variable {levels' : Nat → PriceLevelNode} {orders' : Nat → LiveOrder} {node : Nat} {price : Price}
  {pool : LevelPool}

/-- A side depends only on its own levels and orders. -/
theorem congr (rep : SideRep side levels orders book view)
    (sameLevels : ∀ slot ∈ levelSlots view, levels' slot = levels slot)
    (sameOrders : ∀ slot ∈ orderSlots view, orders' slot = orders slot) :
    SideRep side levels' orders' book view where
  chain := rep.chain.congr (fun slot member => by simp only [sameLevels slot member])
    (fun slot member => by simp only [sameLevels slot member])
  index := rep.index
  sorted := rep.sorted
  nodes := fun level member => by
    apply (rep.nodes level member).congr
    · rw [sameLevels _ (mem_map_of_mem member)]
    · intro slot queued
      exact sameOrders slot (mem_flatMap.mpr ⟨level, member, queued⟩)

/-- The empty side. -/
theorem empty : SideRep side levels orders ⟨none, ∅⟩ [] where
  chain := DList.nil _ _
  index := by simp [findLevel]
  sorted := Pairwise.nil
  nodes := by simp

section

variable (rep : SideRep side levels orders book view)
include rep

/-- The best level is the first one. -/
theorem bestLevel_eq :
    book.bestLevel = (levelSlots view).head? :=
  rep.chain.head_eq

/-- A price has no level exactly when the list has none. -/
theorem findLevel_eq_none (price : Price) :
    book.findLevel price = none ↔ ∀ level ∈ view, level.price ≠ price := by
  rw [Option.eq_none_iff_forall_not_mem]
  constructor
  · intro absent level member same
    exact absent level.slot ((rep.index price level.slot).mpr ⟨level, member, same, rfl⟩)
  · intro absent slot found
    obtain ⟨level, member, same, _⟩ := (rep.index price slot).mp found
    exact absent level member same

/-- The index finds a listed level by its price. -/
theorem findLevel_eq_some (member : level ∈ view) :
    book.findLevel level.price = some level.slot :=
  (rep.index level.price level.slot).mpr ⟨level, member, rfl, rfl⟩

end

/-- Rewriting one level and its orders in place. -/
theorem replace (rep : SideRep side levels orders book (front ++ level :: back))
    {queue : List OrderView} (sameNext : (levels' level.slot).next = (levels level.slot).next)
    (samePrev : (levels' level.slot).prev = (levels level.slot).prev)
    (sameLevels : ∀ slot, slot ≠ level.slot → levels' slot = levels slot)
    (sameOrders : ∀ slot ∈ orderSlots (front ++ back), orders' slot = orders slot)
    (node : LevelRep orders' (levels' level.slot) { level with orders := queue }) :
    SideRep side levels' orders' book (front ++ { level with orders := queue } :: back) := by
  have slots : levelSlots (front ++ { level with orders := queue } :: back) =
      levelSlots (front ++ level :: back) := by simp
  have outside : level.slot ∉ levelSlots front ++ levelSlots back := by
    have nodup := rep.chain.nodup
    rw [levelSlots, map_append, map_cons] at nodup
    exact (nodup_cons.mp (nodup_middle.mp nodup)).1
  have links (slot : Nat) : (levels' slot).next = (levels slot).next ∧
      (levels' slot).prev = (levels slot).prev := by
    by_cases same : slot = level.slot
    · subst same
      exact ⟨sameNext, samePrev⟩
    · rw [sameLevels slot same]
      exact ⟨rfl, rfl⟩
  constructor
  · rw [slots]
    exact rep.chain.congr (fun slot _ => (links slot).1) (fun slot _ => (links slot).2)
  · intro price slot
    rw [rep.index]
    simp only [mem_append, mem_cons, or_and_right, exists_or, exists_eq_left]
  · have sorted := rep.sorted
    simp only [Sorted, pairwise_append, pairwise_cons, mem_cons,
      forall_eq_or_imp] at sorted ⊢
    exact sorted
  · intro other member
    rcases mem_append.mp member with ahead | behind
    · apply (rep.nodes other (mem_append_left _ ahead)).congr
      · rw [sameLevels]
        intro same
        exact outside (mem_append_left _ (same ▸ mem_map_of_mem ahead))
      · intro slot queued
        exact sameOrders slot
          (mem_flatMap.mpr ⟨other, mem_append_left _ ahead, queued⟩)
    · rcases mem_cons.mp behind with rfl | behind
      · exact node
      · apply (rep.nodes other (mem_append_right _ (mem_cons_of_mem _ behind))).congr
        · rw [sameLevels]
          intro same
          exact outside (mem_append_right _ (same ▸ mem_map_of_mem behind))
        · intro slot queued
          exact sameOrders slot
            (mem_flatMap.mpr ⟨other, mem_append_right _ behind, queued⟩)

/-- A new level linked between the better and the worse levels. -/
theorem link (rep : SideRep side levels orders book view) (fresh : node ∉ levelSlots view)
    (absent : ∀ level ∈ view, level.price ≠ price) :
    SideRep side
      (linkBetween (update levels node (blankLevel price)) node
        (levelSlots (levelsAhead side price view)).getLast?
        (levelSlots (levelsBehind side price view)).head?)
      orders
      ⟨restart book.bestLevel (levelSlots (levelsAhead side price view)).getLast? (some node),
        book.index.insert price node⟩
      (insertLevel side ⟨node, price, []⟩ view) := by
  have whole := levelsAhead_append_levelsBehind side price view
  have split : levelSlots (levelsAhead side price view) ++
      levelSlots (levelsBehind side price view) = levelSlots view := by
    rw [← map_append, whole]
  have apart (slot : Nat) (member : slot ∈ levelSlots view) : slot ≠ node :=
    fun same => fresh (same ▸ member)
  have slots : levelSlots (insertLevel side ⟨node, price, []⟩ view) =
      levelSlots (levelsAhead side price view) ++
        node :: levelSlots (levelsBehind side price view) := by
    simp [insertLevel]
  -- The links written at allocation are overwritten when the level is linked.
  have overwritten (field : PriceLevelNode → Option Nat) (value : Option Nat)
      (new : PriceLevelNode) :
      update (fun slot => field (update levels node new slot)) node value =
        update (fun slot => field (levels slot)) node value := by
    funext slot
    by_cases same : slot = node
    · subst same
      simp
    · simp [same]
  constructor
  · have spliced := (split ▸ rep.chain).insert (split ▸ fresh)
    rw [linkBetween_next, linkBetween_prev, slots, overwritten PriceLevelNode.next,
      overwritten PriceLevelNode.prev, ← spliced.tail_eq]
    exact spliced
  · intro key slot
    simp only [findLevel, mem_insertLevel, exists_eq_or_imp]
    by_cases same : key = price
    · subst same
      rw [Finmap.lookup_insert]
      constructor
      · intro found
        exact Or.inl ⟨rfl, Option.some.inj found⟩
      · rintro (⟨_, rfl⟩ | ⟨level, member, clash, _⟩)
        · rfl
        · exact absurd clash (absent level member)
    · rw [Finmap.lookup_insert_of_ne _ same]
      have old := rep.index key slot
      rw [findLevel] at old
      rw [old]
      constructor
      · exact Or.inr
      · rintro (⟨clash, _⟩ | found)
        · exact absurd clash.symm same
        · exact found
  · exact rep.sorted.insertLevel absent
  · intro level member
    rcases mem_insertLevel.mp member with rfl | old
    · have blank : LevelRep orders (blankLevel price) ⟨node, price, []⟩ :=
        ⟨rfl, rfl, rfl, QueueRep.nil orders price⟩
      apply blank.congr _ fun _ _ => rfl
      rw [linkBetween_unlinked, update_self]
    · apply (rep.nodes level old).congr _ fun _ _ => rfl
      rw [linkBetween_unlinked, update_of_ne (apart _ (mem_map_of_mem old))]

/-- A level unlinked from the list and erased from the index. -/
theorem unlink (rep : SideRep side levels orders book (front ++ level :: back)) :
    SideRep side
      (joinAround levels (levelSlots front).getLast? (levelSlots back).head?) orders
      ⟨restart book.bestLevel (levelSlots front).getLast? (levelSlots back).head?,
        book.index.erase level.price⟩
      (front ++ back) := by
  have chain := rep.chain
  rw [levelSlots, map_append, map_cons] at chain
  constructor
  · have skipped := chain.remove
    rw [chain.next_eq, chain.prev_eq] at skipped
    rw [joinAround_next, joinAround_prev,
      show levelSlots (front ++ back) = _ from map_append, ← skipped.tail_eq]
    exact skipped
  · intro key slot
    by_cases same : key = level.price
    · subst same
      simp only [findLevel, Finmap.lookup_erase, reduceCtorEq, false_iff]
      rintro ⟨other, member, clash, _⟩
      exact rep.sorted.price_ne member clash
    · have old := rep.index key slot
      rw [findLevel] at old
      rw [findLevel, Finmap.lookup_erase_ne same, old]
      constructor
      · rintro ⟨other, member, priced, slotted⟩
        rcases mem_append.mp member with ahead | behind
        · exact ⟨other, mem_append_left _ ahead, priced, slotted⟩
        · rcases mem_cons.mp behind with rfl | behind
          · exact absurd priced.symm same
          · exact ⟨other, mem_append_right _ behind, priced, slotted⟩
      · rintro ⟨other, member, priced, slotted⟩
        exact ⟨other, perm_middle.mem_iff.mpr (mem_cons_of_mem _ member), priced, slotted⟩
  · exact rep.sorted.sublist (by simp)
  · intro other member
    have listed : other ∈ front ++ level :: back :=
      perm_middle.mem_iff.mpr (mem_cons_of_mem _ member)
    apply (rep.nodes other listed).congr _ fun _ _ => rfl
    rw [joinAround, setPrev_unlinked, setNext_unlinked]

/-- The traversal stops at the last level that is better than the price. -/
theorem insertionPoint_eq {side : Side} {levels : Nat → PriceLevelNode} {current fuel : Nat}
    {rest : List LevelView}
    (path : Path (fun slot => (levels slot).next) ((levels current).next) (levelSlots rest))
    (priced : ∀ level ∈ rest, (levels level.slot).price = level.price) (fits : rest.length < fuel) :
    ∃ last, insertionPoint side levels price fuel current = .ok last ∧
      (current :: levelSlots (levelsAhead side price rest)).getLast? = some last ∧
      (levels last).next = (levelSlots (levelsBehind side price rest)).head? := by
  induction rest generalizing current fuel with
  | nil =>
    obtain ⟨fuel, rfl⟩ : ∃ n, fuel = n + 1 := ⟨fuel - 1, by omega⟩
    have ended : (levels current).next = none := path
    refine ⟨current, ?_, rfl, ended⟩
    simp [insertionPoint, ended]
  | cons first rest ih =>
    obtain ⟨fuel, rfl⟩ : ∃ n, fuel = n + 1 := ⟨fuel - 1, by omega⟩
    have next : (levels current).next = some first.slot := path.1
    have firstPrice := priced first mem_cons_self
    simp only [insertionPoint, next, firstPrice, levelsAhead, levelsBehind,
      takeWhile_cons, dropWhile_cons]
    by_cases better : side.Better first.price price
    · obtain ⟨last, found, isLast, after⟩ := ih path.2
        (fun level member => priced level (mem_cons_of_mem _ member))
        (by simp only [length_cons] at fits; omega : rest.length < fuel)
      refine ⟨last, ?_, ?_, ?_⟩
      · simpa [better] using found
      · simpa [better, levelsAhead] using isLast
      · simpa [better, levelsBehind] using after
    · refine ⟨current, ?_, ?_, ?_⟩
      · simp [better]
      · simp [better]
      · simpa [better] using next

/-- `create_level` with a free slot links the level at its place. -/
theorem createLevel_eq {others rest : List Nat} (rep : SideRep side pool.storage orders book view)
    (accounts : pool.Accounts (levelSlots view ++ others))
    (absent : ∀ level ∈ view, level.price ≠ price) (free : pool.freeList = node :: rest) :
    createLevel side book price pool = .ok (node,
      ⟨restart book.bestLevel (levelSlots (levelsAhead side price view)).getLast? (some node),
        book.index.insert price node⟩,
      ⟨linkBetween (update pool.storage node (blankLevel price)) node
        (levelSlots (levelsAhead side price view)).getLast?
        (levelSlots (levelsBehind side price view)).head?, rest⟩) := by
  have fresh : node ∉ levelSlots view := fun member =>
    accounts.fresh (by simp [free]) (mem_append_left _ member)
  have kept (level : LevelView) (member : level ∈ view) :
      update pool.storage node (blankLevel price) level.slot =
        pool.storage level.slot := by
    apply update_of_ne
    rintro rfl
    exact fresh (mem_map_of_mem member)
  have best := rep.bestLevel_eq
  have bound : view.length ≤ levelCapacity := by
    have all := accounts.length_le
    rw [length_append, length_map] at all
    omega
  cases view with
  | nil =>
    have none' : book.bestLevel = none := best
    simp [createLevel, ObjectPool.allocate, free, none', levelsAhead, levelsBehind,
      restart, bind, Except.bind]
  | cons first tail =>
    have some' : book.bestLevel = some first.slot := best
    have firstPrice := (rep.nodes first mem_cons_self).priced
    simp only [createLevel, ObjectPool.allocate, free, some', bind, Except.bind,
      kept first mem_cons_self, firstPrice]
    by_cases better : side.Better price first.price
    · have worse : ¬side.Better first.price price := better.asymm
      simp [better, worse, levelsAhead, levelsBehind, restart]
    · have ahead : side.Better first.price price :=
        (Side.better_total (absent first mem_cons_self)).resolve_right better
      have path : Path
          (fun slot => (update pool.storage node (blankLevel price) slot).next)
          (update pool.storage node (blankLevel price) first.slot).next
          (levelSlots tail) := by
        rw [kept first mem_cons_self]
        refine rep.chain.forward.2.congr fun slot member => ?_
        obtain ⟨level, listed, rfl⟩ := mem_map.mp member
        rw [kept level (mem_cons_of_mem _ listed)]
      have fits : tail.length < levelCapacity := bound
      have priced (level : LevelView) (member : level ∈ tail) :
          (update pool.storage node (blankLevel price) level.slot).price =
            level.price := by
        rw [kept level (mem_cons_of_mem _ member)]
        exact (rep.nodes level (mem_cons_of_mem _ member)).priced
      obtain ⟨last, found, isLast, after⟩ := insertionPoint_eq path priced fits
      have front : levelSlots (levelsAhead side price (first :: tail)) =
          first.slot :: levelSlots (levelsAhead side price tail) := by
        simp [levelsAhead, ahead]
      have rear : levelsBehind side price (first :: tail) = levelsBehind side price tail := by
        simp [levelsBehind, ahead]
      rw [front, rear, isLast]
      simp only [better, if_false, found, after]
      rfl

/-- Both branches of `remove_level` join the neighbours and move the best level past the node. -/
theorem removeLevel_eq (rep : SideRep side pool.storage orders book (front ++ level :: back)) :
    book.removeLevel pool level.slot =
      (⟨restart book.bestLevel (levelSlots front).getLast? (levelSlots back).head?,
        book.index.erase level.price⟩,
        ObjectPool.deallocate
          { pool with
            storage :=
              joinAround pool.storage (levelSlots front).getLast? (levelSlots back).head? }
          level.slot) := by
  have chain := rep.chain
  rw [levelSlots, map_append, map_cons] at chain
  have priced := (rep.nodes level (by simp)).priced
  have best := chain.head_eq
  have next := chain.next_eq
  have prev := chain.prev_eq
  simp only [removeLevel, priced, next, prev]
  cases front with
  | nil =>
    have isBest : book.bestLevel = some level.slot := by simpa using best
    simp [isBest, restart]
  | cons first rest =>
    have isFirst : book.bestLevel = some first.slot := by simpa using best
    have apart : first.slot ≠ level.slot := by
      have nodup := chain.nodup
      simp only [map_cons, cons_append, nodup_cons, mem_append] at nodup
      exact fun same => nodup.1 (by simp [same])
    have linked : (levelSlots (first :: rest)).getLast?.isSome := by simp
    obtain ⟨last, isLast⟩ := Option.isSome_iff_exists.mp linked
    simp only [levelSlots] at isLast ⊢
    simp only [isFirst, Option.some.injEq, apart, if_false, isLast, restart]

end SideRep

end FluxTrade
