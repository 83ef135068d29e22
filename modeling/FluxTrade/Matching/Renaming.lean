import FluxTrade.Matching.SameContents

/-!
# Books that differ in the slots of their pools

Which slot an insertion takes depends on every allocation and release before it,
so two books can hold the same levels and queues in different slots. A
`Renaming` says which slot of one book stands for which slot of the other, and
`Mirrored` that under it both hold the same levels, queues and lookups, whether
or not every resting order is looked up. Each call of the book does the same to
mirrored books, failures included, and readers cannot tell them apart.
-/

namespace FluxTrade

open Function LevelView List

/-- The slots of one book's pools that stand for the slots of another's. -/
structure Renaming where
  orders : Nat → Nat
  levels : Nat → Nat

/-- An order in the slot that stands for its own. -/
def OrderView.rename (names : Renaming) (entry : OrderView) : OrderView :=
  { entry with slot := names.orders entry.slot }

/-- A level in the slot that stands for its own, its orders likewise. -/
def LevelView.rename (names : Renaming) (level : LevelView) : LevelView :=
  ⟨names.levels level.slot, level.price, level.orders.map (OrderView.rename names)⟩

/-- Level lists in the slots that stand for their own. -/
def renameView (names : Renaming) (view : BookView) : BookView :=
  fun side => (view side).map (rename names)

section Views

variable (names : Renaming) {view : BookView} {side : Side} {front back : List LevelView}
  {level : LevelView} {ahead behind : List OrderView} {entry : OrderView}

/-- One side changes. -/
theorem renameView_update (view : BookView) (side : Side) (levels : List LevelView) :
    renameView names (update view side levels) =
      update (renameView names view) side (levels.map (rename names)) := by
  funext other
  by_cases same : other = side
  · subst same
    simp [renameView]
  · simp [renameView, update_of_ne same]

/-- A level is renamed in place. -/
theorem renameView_split (split : view side = front ++ level :: back) :
    renameView names view side = front.map (rename names) ++
      level.rename names :: back.map (rename names) := by
  rw [renameView, split, map_append, map_cons]

/-- So is an order. -/
theorem rename_queued (queued : level.orders = ahead ++ entry :: behind) :
    (level.rename names).orders = ahead.map (OrderView.rename names) ++
      entry.rename names :: behind.map (OrderView.rename names) := by
  rw [rename, queued, map_append, map_cons]

/-- So is the first order. -/
theorem head?_rename (queue : List OrderView) :
    (queueSlots (queue.map (OrderView.rename names))).head? =
      (queueSlots queue).head?.map names.orders := by
  rw [queueSlots, queueSlots, map_map, head?_map, head?_map, Option.map_map]
  rfl

/-- Prices stay apart. -/
theorem renameView_noOverlap (apart : NoOverlap view) : NoOverlap (renameView names view) := by
  intro bid bidListed ask askListed
  obtain ⟨bid, listed, rfl⟩ := mem_map.mp bidListed
  obtain ⟨ask, listed', rfl⟩ := mem_map.mp askListed
  exact apart bid listed ask listed'

/-- Pruned and renamed. -/
theorem map_rename_pruned (level : LevelView) :
    (pruned level).map (rename names) = pruned (level.rename names) := by
  unfold pruned
  by_cases gone : level.orders = []
  · simp [rename, gone]
  · simp [rename, gone]

/-- Replaced and renamed. -/
theorem map_rename_replaced (front back : List LevelView) (level : LevelView)
    (queue : List OrderView) :
    (front ++ pruned { level with orders := queue } ++ back).map (rename names) =
      front.map (rename names) ++
        pruned { level.rename names with orders := queue.map (OrderView.rename names) } ++
        back.map (rename names) := by
  rw [map_append, map_append, map_rename_pruned]
  rfl

/-- Reduced and renamed. -/
theorem map_rename_reduced (entry : OrderView) (filledQty : Quantity) :
    (reduced entry filledQty).map (OrderView.rename names) =
      reduced (entry.rename names) filledQty := by
  have open' : (entry.rename names).remainingQty = entry.remainingQty := rfl
  unfold reduced
  rw [open']
  split <;> rfl

/-- Amended and renamed. -/
theorem map_rename_amended (ahead behind : List OrderView) (entry : OrderView)
    (newQty : Quantity) (prioritySeq : UInt64) :
    (amended ahead behind entry newQty prioritySeq).map (OrderView.rename names) =
      amended (ahead.map (OrderView.rename names)) (behind.map (OrderView.rename names))
        (entry.rename names) newQty prioritySeq := by
  have open' : (entry.rename names).remainingQty = entry.remainingQty := rfl
  unfold amended
  rw [open']
  split
  · simp [OrderView.rename]
  · split <;> simp [OrderView.rename]

/-- Renaming keeps prices, so it commutes with placing an order. -/
theorem map_rename_placeOrder (side : Side) (price : Price) (node : Nat) (entry : OrderView)
    (levels : List LevelView) :
    (placeOrder side price node entry levels).map (rename names) =
      placeOrder side price (names.levels node) (entry.rename names)
        (levels.map (rename names)) := by
  have ensured : (ensureLevel side price node levels).map (rename names) =
      ensureLevel side price (names.levels node) (levels.map (rename names)) := by
    have present : (levels.map (rename names)).any (fun level => level.price = price) =
        levels.any fun level => level.price = price := by
      rw [any_map]
      rfl
    unfold ensureLevel
    rw [present]
    split
    · rfl
    · simp only [insertLevel, levelsAhead, levelsBehind, map_append, map_cons,
        takeWhile_map, dropWhile_map]
      rfl
  rw [placeOrder, placeOrder, ← ensured, map_map, map_map]
  apply map_congr_left
  intro level _
  simp only [comp_apply]
  by_cases here : level.price = price
  · simp [rename, here]
  · simp [rename, here]

/-- Only the names of slots in use matter. -/
theorem map_rename_congr {names names' : Renaming} {levels : List LevelView}
    (sameOrders : ∀ slot ∈ orderSlots levels, names'.orders slot = names.orders slot)
    (sameLevels : ∀ slot ∈ levelSlots levels, names'.levels slot = names.levels slot) :
    levels.map (rename names') = levels.map (rename names) := by
  apply map_congr_left
  intro level listed
  have queue : level.orders.map (OrderView.rename names') =
      level.orders.map (OrderView.rename names) := by
    apply map_congr_left
    intro entry queued
    rw [OrderView.rename, sameOrders entry.slot (mem_orderSlots listed queued)]
    rfl
  rw [rename, queue, sameLevels level.slot (mem_map_of_mem listed)]
  rfl

/-- Contents have no slots. -/
@[simp]
theorem rename_contents (level : LevelView) : (level.rename names).contents = level.contents := by
  simp only [contents, rename, map_map]
  rfl

/-- Contents do not show where they are stored. -/
@[simp]
theorem contentsOf_renameView (view : BookView) :
    contentsOf (renameView names view) = contentsOf view := by
  funext side
  simp [contentsOf, renameView]

end Views

/-! ## Mirrored books -/

/-- Both books represent the same level lists and look the same orders up, each in its slots. -/
structure Mirrored (names : Renaming) (view : BookView) (left right : LimitOrderBook) : Prop where
  ofLeft : BookRep left view
  ofRight : BookRep right (renameView names view)
  lookup : ∀ orderId, right.findOrder orderId = (left.findOrder orderId).map names.orders

namespace Mirrored

variable {names : Renaming} {view : BookView} {left right left' right' : LimitOrderBook}
  {side : Side} {front back : List LevelView} {level : LevelView} {ahead behind : List OrderView}
  {entry : OrderView}

/-- Empty books mirror each other under every renaming. -/
theorem empty (names : Renaming) (ofLeft : BookRep left fun _ => [])
    (ofRight : BookRep right fun _ => []) (noLeft : left.lookup = ∅) (noRight : right.lookup = ∅) :
    Mirrored names (fun _ => []) left right where
  ofLeft := ofLeft
  ofRight := ofRight
  lookup orderId := by
    rw [LimitOrderBook.findOrder, LimitOrderBook.findOrder, noLeft, noRight, Finmap.lookup_empty]
    rfl

variable (same : Mirrored names view left right)
include same

/-- Erasing an identifier in both lookups. -/
theorem lookup_erase {erased : OrderId} (inLeft : left'.lookup = left.lookup.erase erased)
    (inRight : right'.lookup = right.lookup.erase erased) (orderId : OrderId) :
    right'.findOrder orderId = (left'.findOrder orderId).map names.orders := by
  rw [LimitOrderBook.findOrder, LimitOrderBook.findOrder, inLeft, inRight]
  by_cases here : orderId = erased
  · subst here
    rw [Finmap.lookup_erase, Finmap.lookup_erase]
    rfl
  · rw [Finmap.lookup_erase_ne here, Finmap.lookup_erase_ne here]
    exact same.lookup orderId

/-- Keeping both lookups. -/
theorem lookup_keep (inLeft : left'.lookup = left.lookup) (inRight : right'.lookup = right.lookup)
    (orderId : OrderId) :
    right'.findOrder orderId = (left'.findOrder orderId).map names.orders := by
  rw [LimitOrderBook.findOrder, LimitOrderBook.findOrder, inLeft, inRight]
  exact same.lookup orderId

/-- Both books find the level of an order. -/
theorem locate_split (apart : NoOverlap view) (split : view side = front ++ level :: back) :
    left.locate level.price = some (side, level.slot) ∧
      right.locate level.price = some (side, names.levels level.slot) :=
  ⟨same.ofLeft.locate_split apart split,
    same.ofRight.locate_split (renameView_noOverlap names apart) (renameView_split names split)⟩

/-- A fill does the same to both books. -/
theorem fillOrder (apart : NoOverlap view) (split : view side = front ++ level :: back)
    (queued : level.orders = ahead ++ entry :: behind) {filledQty : Quantity}
    (fits : filledQty ≤ entry.remainingQty) :
    ∃ left' right', left.fillOrder entry.slot filledQty = .ok left' ∧
      right.fillOrder (names.orders entry.slot) filledQty = .ok right' ∧
      Mirrored names (update view side
        (front ++ pruned { level with orders := ahead ++ (reduced entry filledQty ++ behind) } ++
          back)) left' right' := by
  have fits' : filledQty ≤ (entry.rename names).remainingQty := fits
  obtain ⟨located, located'⟩ := same.locate_split apart split
  obtain ⟨left', filled, rep, lookup⟩ := same.ofLeft.fillOrder located split queued fits
  obtain ⟨right', filled', rep', lookup'⟩ := same.ofRight.fillOrder located'
    (renameView_split names split) (rename_queued names queued) fits'
  refine ⟨left', right', filled, filled', rep, ?_, ?_⟩
  · rw [renameView_update, map_rename_replaced, map_append, map_append,
      map_rename_reduced]
    exact rep'
  · have open' : (entry.rename names).remainingQty = entry.remainingQty := rfl
    rw [open'] at lookup'
    by_cases whole : entry.remainingQty = filledQty
    · rw [if_pos whole] at lookup lookup'
      exact same.lookup_erase lookup lookup'
    · rw [if_neg whole] at lookup lookup'
      exact same.lookup_keep lookup lookup'

/-- A cancellation does the same to both books. -/
theorem cancel (apart : NoOverlap view) (orderId : OrderId) :
    ∃ found view' left' right', left.cancel orderId = .ok (found, left') ∧
      right.cancel orderId = .ok (found, right') ∧ Mirrored names view' left' right' := by
  have counterpart := same.lookup orderId
  cases found : left.findOrder orderId with
  | none =>
    rw [found] at counterpart
    exact ⟨false, view, left, right, BookRep.cancel_unknown found,
      BookRep.cancel_unknown counterpart, same⟩
  | some slot =>
    rw [found] at counterpart
    obtain ⟨side, front, level, back, ahead, entry, behind, split, queued, rfl, rfl⟩ :=
      same.ofLeft.exists_split found
    obtain ⟨located, located'⟩ := same.locate_split apart split
    obtain ⟨left', cancelled, rep, lookup⟩ := same.ofLeft.cancel located split queued found
    obtain ⟨right', cancelled', rep', lookup'⟩ := same.ofRight.cancel located'
      (renameView_split names split) (rename_queued names queued) counterpart
    refine ⟨true, _, left', right', cancelled, cancelled', rep, ?_,
      same.lookup_erase lookup lookup'⟩
    rw [renameView_update, map_rename_replaced, map_append]
    exact rep'

/-- A modification does the same to both books. -/
theorem modifyQty (apart : NoOverlap view) (orderId : OrderId) (newQty : Quantity)
    (prioritySeq : UInt64) :
    ∃ found view' left' right', left.modifyQty orderId newQty prioritySeq = .ok (found, left') ∧
      right.modifyQty orderId newQty prioritySeq = .ok (found, right') ∧
      Mirrored names view' left' right' := by
  have counterpart := same.lookup orderId
  cases found : left.findOrder orderId with
  | none =>
    rw [found] at counterpart
    exact ⟨false, view, left, right, BookRep.modifyQty_unknown found newQty prioritySeq,
      BookRep.modifyQty_unknown counterpart newQty prioritySeq, same⟩
  | some slot =>
    rw [found] at counterpart
    obtain ⟨side, front, level, back, ahead, entry, behind, split, queued, rfl, rfl⟩ :=
      same.ofLeft.exists_split found
    obtain ⟨located, located'⟩ := same.locate_split apart split
    obtain ⟨left', modified, rep, lookup⟩ :=
      same.ofLeft.modifyQty located split queued found newQty prioritySeq
    obtain ⟨right', modified', rep', lookup'⟩ := same.ofRight.modifyQty located'
      (renameView_split names split) (rename_queued names queued) counterpart newQty prioritySeq
    refine ⟨true, _, left', right', modified, modified', rep, ?_,
      same.lookup_keep lookup lookup'⟩
    rw [renameView_update, map_append, map_cons]
    rw [← map_rename_amended] at rep'
    exact rep'

/-- Clearing empties both books. -/
theorem clear :
    ∃ left' right', left.clear = .ok left' ∧ right.clear = .ok right' ∧
      Mirrored names (fun _ => []) left' right' := by
  obtain ⟨left', cleared, rep, lookup⟩ := same.ofLeft.clear
  obtain ⟨right', cleared', rep', lookup'⟩ := same.ofRight.clear
  exact ⟨left', right', cleared, cleared', empty names rep rep' lookup lookup'⟩

end Mirrored

/-! ## Insertion -/

section Placed

variable {book : LimitOrderBook} {view : BookView} {side : Side} {price : Price} {node : Nat}
  {entry : OrderView}

/-- The slots of the orders. -/
theorem orderSlots_eq_map (levels : List LevelView) :
    orderSlots levels = (restingOrders levels).map OrderView.slot := by
  simp only [orderSlots, restingOrders, map_flatMap]

/-- The slot of a placed order was not in use. -/
theorem BookRep.placed_fresh (sorted : Sorted side (view side))
    (rep : BookRep book (update view side
      (placeOrder side price node entry (view side)))) (other : Side) :
    entry.slot ∉ orderSlots (view other) := by
  have nodup := (rep.orderAccounts_side side).nodup
  rw [update_self, update_of_ne side.opposite_ne, orderSlots_eq_map] at nodup
  have placed : (restingOrders (placeOrder side price node entry (view side))).Perm
      (entry :: restingOrders (view side)) := placeOrder_perm sorted
  have perm := placed.map OrderView.slot
  rw [(perm.append_right _).nodup_iff, map_cons, ← orderSlots_eq_map, cons_append,
    nodup_cons, mem_append, not_or] at nodup
  rcases Side.eq_or_opposite side other with rfl | rfl
  · exact nodup.1.1
  · exact nodup.1.2

/-- The slot of a created level was not in use. -/
theorem BookRep.created_fresh (absent : ¬(view side).any fun level => level.price = price)
    (rep : BookRep book (update view side
      (placeOrder side price node entry (view side)))) (other : Side) :
    node ∉ levelSlots (view other) := by
  have nodup := (rep.levelAccounts_side side).nodup
  have slots : (levelSlots (placeOrder side price node entry (view side))).Perm
      (node :: levelSlots (view side)) := by
    have kept : levelSlots (placeOrder side price node entry (view side)) =
        levelSlots (insertLevel side ⟨node, price, []⟩ (view side)) := by
      rw [placeOrder, ensureLevel, if_neg absent, levelSlots, map_map]
      apply map_congr_left
      intro level _
      simp only [comp_apply]
      split <;> rfl
    rw [kept]
    conv_rhs => rw [← levelsAhead_append_levelsBehind side price (view side)]
    simp only [insertLevel, levelSlots, map_append, map_cons]
    exact perm_middle
  rw [update_self, update_of_ne side.opposite_ne,
    (slots.append_right _).nodup_iff, cons_append, nodup_cons, mem_append,
    not_or] at nodup
  rcases Side.eq_or_opposite side other with rfl | rfl
  · exact nodup.1.1
  · exact nodup.1.2

/-- Where the level exists, no new slot is needed for it. -/
theorem placeOrder_of_present {levels : List LevelView} (node' : Nat)
    (present : levels.any fun level => level.price = price) :
    placeOrder side price node entry levels = placeOrder side price node' entry levels := by
  rw [placeOrder, placeOrder, ensureLevel, ensureLevel, if_pos present, if_pos present]

end Placed

namespace Mirrored

variable {names : Renaming} {view : BookView} {left right left' right' : LimitOrderBook}
  {inserted : OrderId} {slot slot' : Nat}

/-- Inserting an identifier in both lookups, each with a slot that was not in use. -/
theorem lookup_insert (same : Mirrored names view left right)
    (fresh : ∀ side, slot ∉ orderSlots (view side))
    (inLeft : left'.lookup = left.lookup.insert inserted slot)
    (inRight : right'.lookup = right.lookup.insert inserted slot') (orderId : OrderId) :
    right'.findOrder orderId =
      (left'.findOrder orderId).map (update names.orders slot slot') := by
  rw [LimitOrderBook.findOrder, LimitOrderBook.findOrder, inLeft, inRight]
  by_cases here : orderId = inserted
  · subst here
    rw [Finmap.lookup_insert, Finmap.lookup_insert, Option.map_some, update_self]
  · rw [Finmap.lookup_insert_of_ne _ here, Finmap.lookup_insert_of_ne _ here]
    have counterpart := same.lookup orderId
    rw [LimitOrderBook.findOrder] at counterpart
    rw [counterpart]
    -- A slot found through the lookup is in use, so the new name does not concern it.
    change (left.findOrder orderId).map _ = (left.findOrder orderId).map _
    cases found : left.findOrder orderId with
    | none => rfl
    | some used =>
      obtain ⟨side, level, listed, entry, queued, rfl, _⟩ := same.ofLeft.lookup orderId used found
      have apart : entry.slot ≠ slot := by
        intro clash
        rw [← clash] at fresh
        exact fresh side (mem_orderSlots listed queued)
      rw [Option.map_some, Option.map_some, update_of_ne apart]

/-- Placing an order in both books extends the renaming by the slots it takes. -/
theorem place {side : Side} {price : Price} {node node' : Nat} {live : LiveOrder}
    (same : Mirrored names view left right)
    (rep : BookRep left' (update view side
      (placeOrder side price node (live.view slot) (view side))))
    (rep' : BookRep right' (update (renameView names view) side
      (placeOrder side price node' (live.view slot') (renameView names view side))))
    (inLeft : left'.lookup = left.lookup.insert inserted slot)
    (inRight : right'.lookup = right.lookup.insert inserted slot') :
    ∃ names', Mirrored names' (update view side
      (placeOrder side price node (live.view slot) (view side))) left' right' := by
  have freshOrder : ∀ other, slot ∉ orderSlots (view other) :=
    rep.placed_fresh (same.ofLeft.sides side).sorted
  -- The level gets a name only if it is created; else its slot says nothing.
  obtain ⟨levels, kept, placed⟩ : ∃ levels : Nat → Nat,
      (∀ other, ∀ used ∈ levelSlots (view other), levels used = names.levels used) ∧
      placeOrder side price (levels node) (live.view slot') (renameView names view side) =
        placeOrder side price node' (live.view slot') (renameView names view side) := by
    by_cases present : (view side).any fun level => level.price = price
    · refine ⟨names.levels, fun _ _ _ => rfl, placeOrder_of_present node' ?_⟩
      rw [renameView, any_map]
      exact present
    · refine ⟨update names.levels node node', ?_, by rw [update_self]⟩
      intro other used member
      have apart : used ≠ node := by
        rintro rfl
        exact rep.created_fresh present other member
      exact update_of_ne apart _ _
  let names' : Renaming := ⟨update names.orders slot slot', levels⟩
  have unmoved : renameView names' view = renameView names view := by
    funext other
    refine map_rename_congr ?_ (kept other)
    intro used member
    have apart : used ≠ slot := by
      rintro rfl
      exact freshOrder other member
    exact update_of_ne apart _ _
  have entry : (live.view slot).rename names' = live.view slot' := by
    simp [names', OrderView.rename, LiveOrder.view]
  have near : (view side).map (rename names') = renameView names view side :=
    congrFun unmoved side
  refine ⟨names', rep, ?_, same.lookup_insert freshOrder inLeft inRight⟩
  rw [renameView_update, unmoved, map_rename_placeOrder, entry, near, placed]
  exact rep'

variable (same : Mirrored names view left right)
include same

/-- An insertion does the same to both books, or finds a pool exhausted in both. -/
theorem insert (order : Order) (prioritySeq : UInt64) :
    (∃ names' view' slot left' slot' right', left.insert order prioritySeq = .ok (slot, left') ∧
      right.insert order prioritySeq = .ok (slot', right') ∧
      Mirrored names' view' left' right') ∨
    left.insert order prioritySeq = .error .badAlloc ∧
      right.insert order prioritySeq = .error .badAlloc := by
  have sameRoom := contentsOf_renameView names view
  by_cases room : (contentsOf view).HasRoom order.side order.price
  · obtain ⟨slot, node, left', inserted, rep, lookup⟩ :=
      same.ofLeft.insert_of_room prioritySeq room
    obtain ⟨slot', node', right', inserted', rep', lookup'⟩ :=
      same.ofRight.insert_of_room prioritySeq (sameRoom ▸ room)
    obtain ⟨names', mirrored⟩ := same.place rep rep' lookup lookup'
    exact Or.inl ⟨names', _, slot, left', slot', right', inserted, inserted', mirrored⟩
  · exact Or.inr ⟨same.ofLeft.insert_of_full prioritySeq room,
      same.ofRight.insert_of_full prioritySeq (sameRoom ▸ room)⟩

/-! ## What readers see -/

/-- The books have the same number of free slots. -/
theorem free_lengths :
    left.orderPool.freeList.length = right.orderPool.freeList.length ∧
      left.levelPool.freeList.length = right.levelPool.freeList.length := by
  obtain ⟨orders, levels⟩ := same.ofLeft.free_lengths
  obtain ⟨orders', levels'⟩ := same.ofRight.free_lengths
  rw [contentsOf_renameView] at orders' levels'
  omega

/-- A resting order and its counterpart are stored alike but for their links. -/
theorem order_view {side : Side} {level : LevelView} (listed : level ∈ view side)
    {entry : OrderView} (queued : entry ∈ level.orders) :
    (right.order (names.orders entry.slot)).view (names.orders entry.slot) =
      entry.rename names :=
  same.ofRight.order_view (mem_map_of_mem listed) (mem_map_of_mem queued)

/-- Readers of mirrored books see the same. -/
theorem sameBook : SameBook left right where
  records side := by
    rw [same.ofLeft.records_eq, same.ofRight.records_eq, contentsOf_renameView]
  lookup orderId := by
    rw [same.lookup orderId, Option.map_map]
    cases found : left.findOrder orderId with
    | none => rfl
    | some slot =>
      obtain ⟨side, level, listed, entry, queued, rfl, _⟩ := same.ofLeft.lookup orderId slot found
      have stored := same.ofLeft.stored_eq listed queued
      have stored' : right.stored (names.orders entry.slot) = (level.price, entry.contents) :=
        same.ofRight.stored_eq (mem_map_of_mem listed) (mem_map_of_mem queued)
      rw [Option.map_some, Option.map_some, comp_apply, stored, stored']

end Mirrored

end FluxTrade
