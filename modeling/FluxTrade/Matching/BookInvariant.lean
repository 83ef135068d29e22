import FluxTrade.Matching.BookOps

/-!
# Completeness of the lookup

`BookRep` says that every looked-up pointer leads to a linked order. `Complete`
is the converse: every linked order is found under its identifier, so that
identifiers are unique. Operations keep it when an inserted identifier is not
resting. `Proper` excludes empty levels and `Uncrossed` orders the two sides.
-/

namespace FluxTrade

open Function List

/-- Every linked order is found under its identifier. -/
def Complete (book : LimitOrderBook) (view : BookView) : Prop :=
  ∀ side, ∀ level ∈ view side, ∀ entry ∈ level.orders,
    book.findOrder entry.key.orderId = some entry.slot

/-- No level is empty. -/
def Proper (view : BookView) : Prop := ∀ side, ∀ level ∈ view side, level.orders ≠ []

/-- Every bid price is strictly below every ask price. -/
def Uncrossed (view : BookView) : Prop :=
  ∀ bid ∈ view .buy, ∀ ask ∈ view .sell, bid.price < ask.price

/-- Uncrossed sides share no price. -/
theorem Uncrossed.noOverlap {view : BookView} (uncrossed : Uncrossed view) : NoOverlap view := by
  intro bid bidMember ask askMember same
  have strict := uncrossed bid bidMember ask askMember
  rw [same] at strict
  grind

/-- Uncrossed books, one side first: every opposite level is worse than a level of this side. -/
theorem uncrossed_iff (side : Side) (view : BookView) :
    Uncrossed view ↔ ∀ near ∈ view side, ∀ far ∈ view side.opposite,
      side.opposite.Better near.price far.price := by
  cases side with
  | buy => exact Iff.rfl
  | sell =>
    constructor
    · intro uncrossed ask askMember bid bidMember
      exact uncrossed bid bidMember ask askMember
    · intro worse bid bidMember ask askMember
      exact worse ask askMember bid bidMember

/-- A view whose prices all stand in another one. -/
def PricesWithin (small large : BookView) : Prop :=
  ∀ side, ∀ level ∈ small side, ∃ other ∈ large side, other.price = level.price

/-- The same prices. -/
theorem PricesWithin.refl (view : BookView) : PricesWithin view view :=
  fun _ level member => ⟨level, member, rfl⟩

/-- Fewer prices stay uncrossed. -/
theorem Uncrossed.mono {small large : BookView} (uncrossed : Uncrossed large)
    (within : PricesWithin small large) : Uncrossed small := by
  intro bid bidMember ask askMember
  obtain ⟨bid', bidMember', bidPrice⟩ := within .buy bid bidMember
  obtain ⟨ask', askMember', askPrice⟩ := within .sell ask askMember
  rw [← bidPrice, ← askPrice]
  exact uncrossed bid' bidMember' ask' askMember'

/-- Fewer prices stay apart. -/
theorem NoOverlap.mono {small large : BookView} (apart : NoOverlap large)
    (within : PricesWithin small large) : NoOverlap small := by
  intro bid bidMember ask askMember
  obtain ⟨bid', bidMember', bidPrice⟩ := within .buy bid bidMember
  obtain ⟨ask', askMember', askPrice⟩ := within .sell ask askMember
  rw [← bidPrice, ← askPrice]
  exact apart bid' bidMember' ask' askMember'

/-- Rewriting one side keeps the prices within. -/
theorem PricesWithin.update {view : BookView} {side : Side} {levels : List LevelView}
    (within : ∀ level ∈ levels, ∃ other ∈ view side, other.price = level.price) :
    PricesWithin (update view side levels) view := by
  intro other level member
  by_cases same : other = side
  · subst same
    rw [update_self] at member
    exact within level member
  · rw [update_of_ne same] at member
    exact ⟨level, member, rfl⟩

section Operations

variable {book book' : LimitOrderBook} {view : BookView} {side : Side}
  {front back : List LevelView} {level : LevelView} {ahead behind queue : List OrderView}
  {entry : OrderView}

/-- A pruned level has the level's price and orders. -/
theorem mem_pruned {level other : LevelView} (member : other ∈ pruned level) : other = level := by
  unfold pruned at member
  split at member
  · cases member
  · exact mem_singleton.mp member

/-- A side whose first level was emptied goes on with the next one. -/
theorem update_emptied (view : BookView) (side : Side) (level : LevelView)
    (rest : List LevelView) :
    update view side (pruned { level with orders := [] } ++ rest) side = rest := by
  simp [pruned]

/-- A side whose first level has orders left starts with it. -/
theorem update_shortened (view : BookView) (side : Side) (level : LevelView)
    {queue : List OrderView} (nonempty : queue ≠ []) (rest : List LevelView) :
    update view side (pruned { level with orders := queue } ++ rest) side =
      { level with orders := queue } :: rest := by
  simp [pruned, nonempty]

/-- Pruning leaves no empty level. -/
theorem pruned_nonempty {level other : LevelView} (member : other ∈ pruned level) :
    other.orders ≠ [] := by
  unfold pruned at member
  split at member
  · cases member
  · rename_i proper
    rw [mem_singleton.mp member]
    exact proper

/-- Levels of a list with one level rewritten and pruned. -/
theorem mem_replaced {other : LevelView}
    (member : other ∈ front ++ pruned { level with orders := queue } ++ back) :
    other = { level with orders := queue } ∨ other ∈ front ++ back := by
  rw [append_assoc, mem_append, mem_append] at member
  rcases member with ahead | here | behind
  · exact Or.inr (mem_append_left _ ahead)
  · exact Or.inl (mem_pruned here)
  · exact Or.inr (mem_append_right _ behind)

/-- A shorter queue adds no price. -/
theorem pricesWithin_replaced (split : view side = front ++ level :: back) :
    PricesWithin (update view side
      (front ++ pruned { level with orders := queue } ++ back)) view := by
  apply PricesWithin.update
  intro other member
  rcases mem_replaced member with rfl | old
  · exact ⟨level, by simp [split], rfl⟩
  · refine ⟨other, ?_, rfl⟩
    rw [split]
    exact perm_middle.mem_iff.mpr (mem_cons_of_mem _ old)

/-- A property of all levels survives replacing a level by levels that have it. -/
theorem forall_mem_replaced {property : LevelView → Prop} {levels : List LevelView}
    (split : view side = front ++ level :: back)
    (before : ∀ other, ∀ home ∈ view other, property home)
    (here : ∀ home ∈ levels, property home) (other : Side) :
    ∀ home ∈ update view side (front ++ (levels ++ back)) other, property home := by
  intro home member
  by_cases same : other = side
  · subst same
    rw [update_self] at member
    rcases mem_append.mp member with early | late
    · exact before other home (split ▸ mem_append_left _ early)
    · rcases mem_append.mp late with new | later
      · exact here home new
      · exact before other home
          (split ▸ mem_append_right _ (mem_cons_of_mem _ later))
  · rw [update_of_ne same] at member
    exact before other home member

/-- Replacing a queue, and pruning its level if it is empty, adds no price. -/
theorem NoOverlap.replaced (apart : NoOverlap view) (split : view side = front ++ level :: back) :
    NoOverlap (update view side
      (front ++ pruned { level with orders := queue } ++ back)) :=
  apart.mono (pricesWithin_replaced split)

/-- Nor an empty level. -/
theorem Proper.replaced (proper : Proper view) (split : view side = front ++ level :: back) :
    Proper (update view side
      (front ++ pruned { level with orders := queue } ++ back)) := by
  rw [append_assoc]
  exact forall_mem_replaced split proper fun home => pruned_nonempty

/-- Completeness survives while the lookup and the linked identifiers stay. -/
theorem Complete.keep {view' : BookView} (complete : Complete book view)
    (lookup : book'.lookup = book.lookup)
    (same : ∀ side, ∀ level ∈ view' side, ∀ entry ∈ level.orders, ∃ side', ∃ level' ∈ view side',
      ∃ entry' ∈ level'.orders, entry'.slot = entry.slot ∧ entry'.key = entry.key) :
    Complete book' view' := by
  intro side level member entry queued
  obtain ⟨side', level', member', entry', queued', slot, key⟩ :=
    same side level member entry queued
  rw [LimitOrderBook.findOrder, lookup, ← slot, ← key]
  exact complete side' level' member' entry' queued'

/-- Entries of a rewritten list whose orders come from the old one. -/
theorem entries_replaced (split : view side = front ++ level :: back)
    (from' : ∀ entry ∈ queue, ∃ entry' ∈ level.orders,
      entry'.slot = entry.slot ∧ entry'.key = entry.key) :
    ∀ other, ∀ found ∈ update view side
        (front ++ pruned { level with orders := queue } ++ back) other,
      ∀ entry ∈ found.orders, ∃ side', ∃ level' ∈ view side', ∃ entry' ∈ level'.orders,
        entry'.slot = entry.slot ∧ entry'.key = entry.key := by
  intro other found member entry queued
  by_cases same : other = side
  · subst same
    rw [update_self] at member
    rcases mem_replaced member with rfl | old
    · obtain ⟨entry', queued', slot, key⟩ := from' entry queued
      exact ⟨other, level, by simp [split], entry', queued', slot, key⟩
    · refine ⟨other, found, ?_, entry, queued, rfl, rfl⟩
      rw [split]
      exact perm_middle.mem_iff.mpr (mem_cons_of_mem _ old)
  · rw [update_of_ne same] at member
    exact ⟨other, found, member, entry, queued, rfl, rfl⟩

variable (complete : Complete book view) (rep : BookRep book view)
  (split : view side = front ++ level :: back) (queued : level.orders = ahead ++ entry :: behind)
include complete rep split queued

/-- Completeness survives taking an order out together with its identifier. -/
theorem Complete.takeOut (lookup : book'.lookup = book.lookup.erase entry.key.orderId) :
    Complete book' (update view side
      (front ++ pruned { level with orders := ahead ++ behind } ++ back)) := by
  have listed : level ∈ view side := by simp [split]
  have here : entry ∈ level.orders := by simp [queued]
  have nodup := (rep.orderAccounts_split split).nodup
  have inQueue := (nodup_append.mp nodup).1
  rw [queued, queueSlots, map_append, map_cons] at inQueue
  have outside := (nodup_cons.mp (nodup_middle.mp inQueue)).1
  -- Another linked order with the identifier would share the slot of the one taken out.
  have apart (other : Side) (home : LevelView) (member : home ∈ view other) (found : OrderView)
      (linked : found ∈ home.orders) (distinct : found.slot ≠ entry.slot) :
      book'.findOrder found.key.orderId = some found.slot := by
    have old := complete other home member found linked
    have different : found.key.orderId ≠ entry.key.orderId := by
      intro same
      rw [same, complete side level listed entry here] at old
      exact distinct (Option.some.inj old).symm
    rw [LimitOrderBook.findOrder, lookup, Finmap.lookup_erase_ne different]
    exact old
  have elsewhere := rep.orders_apart split (mem_map_of_mem here)
  rw [mem_append, not_or] at elsewhere
  intro other home member found linked
  by_cases same : other = side
  · subst same
    rw [update_self] at member
    rcases mem_replaced member with rfl | old
    · apply apart other level listed found
      · rw [queued]
        exact perm_middle.mem_iff.mpr (mem_cons_of_mem _ linked)
      · intro slot
        apply outside
        rw [← map_append, ← slot]
        exact mem_map_of_mem linked
    · refine apart other home ?_ found linked ?_
      · rw [split]
        exact perm_middle.mem_iff.mpr (mem_cons_of_mem _ old)
      · intro slot
        exact elsewhere.1 (slot ▸ mem_orderSlots old linked)
  · rw [update_of_ne same] at member
    obtain rfl : other = side.opposite := (Side.eq_or_opposite side other).resolve_left same
    refine apart _ home member found linked ?_
    intro slot
    exact elsewhere.2 (slot ▸ mem_orderSlots member linked)

/-- Completeness survives a fill. -/
theorem Complete.fill {filledQty : Quantity}
    (lookup : book'.lookup = if entry.remainingQty = filledQty then
      book.lookup.erase entry.key.orderId else book.lookup) :
    Complete book' (update view side
      (front ++ pruned { level with orders := ahead ++ (reduced entry filledQty ++ behind) } ++
        back)) := by
  by_cases filled : entry.remainingQty = filledQty
  · rw [if_pos filled] at lookup
    have taken := complete.takeOut rep split queued lookup
    simpa [reduced, filled] using taken
  · rw [if_neg filled] at lookup
    apply complete.keep lookup
    apply entries_replaced split
    intro found member
    simp only [reduced, filled, if_false, mem_append, cons_append,
      nil_append, mem_cons] at member
    rw [queued]
    rcases member with old | rfl | old
    · exact ⟨found, by simp [old], rfl, rfl⟩
    · exact ⟨entry, by simp, rfl, rfl⟩
    · exact ⟨found, by simp [old], rfl, rfl⟩

end Operations

/-! ## Insertion -/

section Insertion

variable {side : Side} {price : Price} {node : Nat} {entry : OrderView}
  {levels : List LevelView}

/-- A new level holds nothing. -/
theorem restingOrders_ensureLevel (side : Side) (price : Price) (node : Nat)
    (levels : List LevelView) :
    restingOrders (ensureLevel side price node levels) = restingOrders levels := by
  unfold ensureLevel
  split
  · rfl
  · conv_rhs => rw [← levelsAhead_append_levelsBehind side price levels]
    simp [insertLevel]

/-- It stands in its place. -/
theorem Sorted.ensureLevel (sorted : Sorted side levels) :
    Sorted side (ensureLevel side price node levels) := by
  unfold FluxTrade.ensureLevel
  split
  · exact sorted
  · rename_i absent
    apply sorted.insertLevel
    simpa using absent

/-- The level of a price exists once it is ensured. -/
theorem exists_mem_ensureLevel (side : Side) (price : Price) (node : Nat)
    (levels : List LevelView) :
    ∃ home ∈ ensureLevel side price node levels, home.price = price := by
  unfold ensureLevel
  split
  · rename_i present
    obtain ⟨home, member, same⟩ := any_eq_true.mp present
    exact ⟨home, member, of_decide_eq_true same⟩
  · exact ⟨_, mem_insertLevel.mpr (Or.inl rfl), rfl⟩

/-- Placing an order adds it to the resting orders. -/
theorem placeOrder_perm (sorted : Sorted side levels) :
    (restingOrders (placeOrder side price node entry levels)).Perm
      (entry :: restingOrders levels) := by
  obtain ⟨home, member, priced⟩ := exists_mem_ensureLevel side price node levels
  obtain ⟨front, back, split⟩ := append_of_mem member
  have flat := restingOrders_ensureLevel side price node levels
  rw [split] at flat
  rw [BookRep.placeOrder_eq split sorted.ensureLevel priced, ← flat]
  simp only [restingOrders_append, restingOrders_cons, append_assoc, singleton_append]
  simpa only [append_assoc] using
    (perm_middle : (restingOrders front ++ home.orders ++ entry :: _).Perm _)

/-- A level of the list with an order placed ends with the order or is an old one. -/
theorem mem_placeOrder {other : LevelView}
    (member : other ∈ placeOrder side price node entry levels) :
    (∃ queue, other.orders = queue ++ [entry] ∧ other.price = price ∧
      (queue = [] ∨ ∃ home ∈ levels, home.price = price ∧ home.orders = queue)) ∨
      other ∈ levels := by
  obtain ⟨level, ensured, rfl⟩ := mem_map.mp member
  have known : level ∈ levels ∨ level.price = price ∧ level.orders = [] := by
    unfold ensureLevel at ensured
    split at ensured
    · exact .inl ensured
    · rcases mem_insertLevel.mp ensured with rfl | old
      · exact .inr ⟨rfl, rfl⟩
      · exact .inl old
  by_cases priced : level.price = price
  · rw [if_pos priced]
    refine .inl ⟨level.orders, rfl, priced, ?_⟩
    exact known.symm.imp And.right fun old => ⟨level, old, priced, rfl⟩
  · rw [if_neg priced]
    exact .inr (known.resolve_right fun new => priced new.1)

variable {book book' : LimitOrderBook} {view : BookView}

/-- Placing leaves no empty level. -/
theorem Proper.place (proper : Proper view) :
    Proper (update view side (placeOrder side price node entry (view side))) := by
  intro other level member
  by_cases same : other = side
  · subst same
    rw [update_self] at member
    rcases mem_placeOrder member with ⟨queue, placed, _⟩ | old
    · rw [placed]
      exact concat_ne_nil _ queue
    · exact proper other level old
  · rw [update_of_ne same] at member
    exact proper other level member

/-- Placing an order that no opposite level crosses keeps the book uncrossed. -/
theorem Uncrossed.place (uncrossed : Uncrossed view)
    (worse : ∀ far ∈ view side.opposite, side.opposite.Better price far.price) :
    Uncrossed (update view side (placeOrder side price node entry (view side))) := by
  rw [uncrossed_iff side] at uncrossed ⊢
  intro near nearMember far farMember
  rw [update_self] at nearMember
  rw [update_of_ne side.opposite_ne] at farMember
  rcases mem_placeOrder nearMember with ⟨_, _, rfl, _⟩ | old
  · exact worse far farMember
  · exact uncrossed near old far farMember

/-- An order rests in some level. -/
theorem mem_restingOrders {levels : List LevelView} {entry : OrderView} :
    entry ∈ restingOrders levels ↔ ∃ level ∈ levels, entry ∈ level.orders :=
  mem_flatMap

/-- Completeness survives placing an order whose identifier is not resting. -/
theorem Complete.place (complete : Complete book view) (sorted : Sorted side (view side))
    (fresh : book.findOrder entry.key.orderId = none)
    (lookup : book'.lookup = book.lookup.insert entry.key.orderId entry.slot) :
    Complete book'
      (update view side (placeOrder side price node entry (view side))) := by
  have old (other : Side) (found : OrderView) (resting : found ∈ restingOrders (view other)) :
      book'.findOrder found.key.orderId = some found.slot := by
    obtain ⟨level, member, queued⟩ := mem_restingOrders.mp resting
    have before := complete other level member found queued
    have different : found.key.orderId ≠ entry.key.orderId := by
      intro same
      rw [same, fresh] at before
      cases before
    rw [LimitOrderBook.findOrder, lookup, Finmap.lookup_insert_of_ne _ different]
    exact before
  intro other level member found queued
  by_cases same : other = side
  · subst same
    rw [update_self] at member
    have resting := (placeOrder_perm sorted).mem_iff.mp
      (mem_restingOrders.mpr ⟨level, member, queued⟩)
    rcases mem_cons.mp resting with rfl | before
    · rw [LimitOrderBook.findOrder, lookup, Finmap.lookup_insert]
    · exact old other found before
  · rw [update_of_ne same] at member
    exact old other found (mem_restingOrders.mpr ⟨level, member, queued⟩)

end Insertion

/-! ## Both sides -/

section Both

variable {book : LimitOrderBook} {view : BookView}

/-- All resting orders, bids first. -/
def restingBoth (view : BookView) : List OrderView :=
  restingOrders (view .buy) ++ restingOrders (view .sell)

/-- Rewriting one side changes the resting orders of that side. -/
theorem restingBoth_update (view : BookView) (side : Side) (levels : List LevelView) :
    (restingBoth (update view side levels)).Perm
      (restingOrders levels ++ restingOrders (view side.opposite)) := by
  cases side with
  | buy => exact Perm.refl _
  | sell => exact perm_append_comm

/-- Both sides, either one first. -/
theorem restingBoth_perm (view : BookView) (side : Side) :
    (restingBoth view).Perm (restingOrders (view side) ++ restingOrders (view side.opposite)) := by
  cases side with
  | buy => exact Perm.refl _
  | sell => exact perm_append_comm

/-- The resting orders, one side first. -/
theorem mem_restingBoth_sides {entry : OrderView} (side : Side) :
    entry ∈ restingBoth view ↔ entry ∈ restingOrders (view side) ∨
      entry ∈ restingOrders (view side.opposite) := by
  rw [(restingBoth_perm view side).mem_iff, mem_append]

/-- A resting order rests on one of the sides. -/
theorem mem_restingBoth_side {entry : OrderView} :
    entry ∈ restingBoth view ↔ ∃ side, entry ∈ restingOrders (view side) := by
  rw [restingBoth, mem_append, Side.exists]

/-- A resting order is linked in a level. -/
theorem mem_restingBoth {entry : OrderView} :
    entry ∈ restingBoth view ↔ ∃ side, ∃ level ∈ view side, entry ∈ level.orders := by
  simp only [mem_restingBoth_side, mem_restingOrders]

/-- A complete lookup finds every resting order. -/
theorem Complete.findOrder_eq (complete : Complete book view) {entry : OrderView}
    (resting : entry ∈ restingBoth view) :
    book.findOrder entry.key.orderId = some entry.slot := by
  obtain ⟨side, level, listed, queued⟩ := mem_restingBoth.mp resting
  exact complete side level listed entry queued

/-- Under a complete lookup no identifier rests twice, for both orders would have one slot. -/
theorem Complete.ids_nodup (complete : Complete book view) (rep : BookRep book view) :
    ((restingBoth view).map fun entry => entry.key.orderId).Nodup := by
  have slots : ((restingBoth view).map OrderView.slot).Nodup := by
    have accounts := rep.orderAccounts.nodup
    simpa [orderSlots, restingBoth, restingOrders, map_flatMap] using accounts
  apply Nodup.map_on _ (Nodup.of_map _ slots)
  intro left leftMember right rightMember same
  have found := complete.findOrder_eq leftMember
  rw [same, complete.findOrder_eq rightMember] at found
  exact inj_on_of_nodup_map slots leftMember rightMember (Option.some.inj found).symm

/-- Free and linked orders fill the order pool. -/
theorem BookRep.orders_length (rep : BookRep book view) (side : Side) :
    book.orderPool.freeList.length + ((restingOrders (view side)).length +
      (restingOrders (view side.opposite)).length) = orderCapacity := by
  have total := (rep.orderAccounts_side side).length_eq
  simpa only [length_append, length_range, orderSlots_length] using total

/-- Free and linked levels fill the level pool. -/
theorem BookRep.levels_length (rep : BookRep book view) (side : Side) :
    book.levelPool.freeList.length + ((view side).length + (view side.opposite).length) =
      levelCapacity := by
  have total := (rep.levelAccounts_side side).length_eq
  simpa only [length_append, length_range, length_map] using total

/-- A looked-up order stands somewhere in the level lists. -/
theorem BookRep.exists_split (rep : BookRep book view) {orderId : OrderId} {slot : Nat}
    (found : book.findOrder orderId = some slot) :
    ∃ side front level back ahead entry behind, view side = front ++ level :: back ∧
      level.orders = ahead ++ entry :: behind ∧ entry.slot = slot ∧
      entry.key.orderId = orderId := by
  obtain ⟨side, level, member, entry, queued, isSlot, isId⟩ := rep.lookup orderId slot found
  obtain ⟨front, back, split⟩ := append_of_mem member
  obtain ⟨ahead, behind, shape⟩ := append_of_mem queued
  exact ⟨side, front, level, back, ahead, entry, behind, split, shape, isSlot, isId⟩

end Both

end FluxTrade
