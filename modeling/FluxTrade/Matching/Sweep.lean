import FluxTrade.Matching.BookInvariant
import FluxTrade.Matching.Engine

/-!
# The greedy reference

What an aggressive order does to the opposite side, on plain lists: keep the
resting orders at acceptable prices in priority order, and fill each in turn
until the order is exhausted. `sweep` says so on the flat list of resting
orders, `sweepLevels` level by level, as the crossing loops go; the two agree.
-/

namespace FluxTrade

open List

/-- A fill of a resting order, at its price. -/
structure Fill where
  /-- The maker before the fill. -/
  maker : OrderView
  qty : Quantity
  deriving DecidableEq, Inhabited

/-- What is left of a quantity after some fills. -/
def leftAfter (remaining : Quantity) (fills : List Fill) : Quantity :=
  fills.foldl (fun left fill => left - fill.qty) remaining

/-- No fill. -/
@[simp]
theorem leftAfter_nil (remaining : Quantity) : leftAfter remaining [] = remaining := rfl

/-- One fill more. -/
@[simp]
theorem leftAfter_cons (remaining : Quantity) (fill : Fill) (rest : List Fill) :
    leftAfter remaining (fill :: rest) = leftAfter (remaining - fill.qty) rest := rfl

/-- More fills. -/
theorem leftAfter_append (remaining : Quantity) (front back : List Fill) :
    leftAfter remaining (front ++ back) = leftAfter (leftAfter remaining front) back :=
  foldl_append

/-- Fill resting orders in turn until the quantity is exhausted: the fills and what stays. -/
def fillEach : Quantity → List OrderView → List Fill × List OrderView
  | _, [] => ([], [])
  | remaining, maker :: rest =>
    if remaining = 0 then ([], maker :: rest)
    else
      let qty := matchQty remaining maker.remainingQty
      let later := fillEach (remaining - qty) rest
      (⟨maker, qty⟩ :: later.1, reduced maker qty ++ later.2)

/-- The reference algorithm: fill the longest acceptable run of resting orders. -/
def sweep (order : Order) (remaining : Quantity) (resting : List OrderView) :
    List Fill × List OrderView :=
  let filled := fillEach remaining (resting.takeWhile fun maker => order.accepts maker.price)
  (filled.1, filled.2 ++ resting.dropWhile fun maker => order.accepts maker.price)

/-- The same, level by level. -/
def sweepLevels (order : Order) : Quantity → List LevelView → List Fill × List LevelView
  | _, [] => ([], [])
  | remaining, level :: rest =>
    if remaining = 0 ∨ ¬order.accepts level.price then ([], level :: rest)
    else
      let filled := fillEach remaining level.orders
      let later := sweepLevels order (leftAfter remaining filled.1) rest
      (filled.1 ++ later.1, pruned { level with orders := filled.2 } ++ later.2)

/-! ## Quantities -/

/-- At most what the taker wants. -/
theorem matchQty_le_taker (taker maker : Quantity) : matchQty taker maker ≤ taker := by
  unfold matchQty
  split <;> grind

/-- At most what the maker has. -/
theorem matchQty_le_maker (taker maker : Quantity) : matchQty taker maker ≤ maker := by
  unfold matchQty
  split <;> grind

/-- A match exhausts one of its two orders. -/
theorem matchQty_exhausts (taker maker : Quantity) :
    taker - matchQty taker maker = 0 ∨ maker = matchQty taker maker := by
  unfold matchQty
  split
  · exact Or.inr rfl
  · exact Or.inl (UInt64.sub_self taker)

/-- An exhausted quantity fills nothing. -/
@[simp]
theorem fillEach_zero (resting : List OrderView) : fillEach 0 resting = ([], resting) := by
  cases resting <;> simp [fillEach]

/-- Quantity that is left over has emptied the queue. -/
theorem fillEach_emptied (remaining : Quantity) (resting : List OrderView)
    (some' : leftAfter remaining (fillEach remaining resting).1 ≠ 0) :
    (fillEach remaining resting).2 = [] := by
  induction resting generalizing remaining with
  | nil => rfl
  | cons maker rest ih =>
    by_cases zero : remaining = 0
    · simp [zero] at some'
    · simp only [fillEach, zero, if_false, leftAfter_cons] at some' ⊢
      rw [ih _ some']
      rcases matchQty_exhausts remaining maker.remainingQty with exhausted | whole
      · simp [exhausted] at some'
      · simp [reduced, ← whole]

/-- Filling a queue and then another is filling both in turn. -/
theorem fillEach_append (remaining : Quantity) (front back : List OrderView) :
    fillEach remaining (front ++ back) =
      ((fillEach remaining front).1 ++
          (fillEach (leftAfter remaining (fillEach remaining front).1) back).1,
        (fillEach remaining front).2 ++
          (fillEach (leftAfter remaining (fillEach remaining front).1) back).2) := by
  induction front generalizing remaining with
  | nil => simp [fillEach]
  | cons maker rest ih =>
    by_cases zero : remaining = 0
    · simp [zero]
    · simp only [cons_append, fillEach, zero, if_false, leftAfter_cons, ih,
        append_assoc]

/-- The fills take no more than the quantity there is. -/
theorem fillEach_total (remaining : Quantity) (resting : List OrderView) :
    ((fillEach remaining resting).1.map fun fill => fill.qty.toNat).sum +
      (leftAfter remaining (fillEach remaining resting).1).toNat = remaining.toNat := by
  induction resting generalizing remaining with
  | nil => simp [fillEach]
  | cons maker rest ih =>
    by_cases zero : remaining = 0
    · simp [zero]
    · have fits := matchQty_le_taker remaining maker.remainingQty
      have later := ih (remaining - matchQty remaining maker.remainingQty)
      rw [UInt64.toNat_sub_of_le _ _ fits] at later
      have bound := UInt64.le_iff_toNat_le.mp fits
      simp only [fillEach, zero, if_false, map_cons, sum_cons, leftAfter_cons]
      omega

/-- Fills that fit into a quantity are subtracted from it without wrapping. -/
theorem leftAfter_toNat {remaining : Quantity} {fills : List Fill}
    (fits : (fills.map fun fill => fill.qty.toNat).sum ≤ remaining.toNat) :
    (leftAfter remaining fills).toNat =
      remaining.toNat - (fills.map fun fill => fill.qty.toNat).sum := by
  induction fills generalizing remaining with
  | nil => simp
  | cons fill rest ih =>
    simp only [map_cons, sum_cons] at fits ⊢
    have first : fill.qty ≤ remaining := UInt64.le_iff_toNat_le.mpr (by omega)
    have left := UInt64.toNat_sub_of_le _ _ first
    rw [leftAfter_cons, ih (by rw [left]; omega), left]
    omega

/-- There are at most as many fills as resting orders. -/
theorem fillEach_fills_length_le (remaining : Quantity) (resting : List OrderView) :
    (fillEach remaining resting).1.length ≤ resting.length := by
  induction resting generalizing remaining with
  | nil => simp [fillEach]
  | cons maker rest ih =>
    by_cases zero : remaining = 0
    · simp [zero]
    · have later := ih (remaining - matchQty remaining maker.remainingQty)
      simp only [fillEach, zero, if_false, length_cons]
      omega

/-! ## Levels and the flat list -/

/-- An exhausted quantity sweeps nothing. -/
@[simp]
theorem sweepLevels_zero (order : Order) (levels : List LevelView) :
    sweepLevels order 0 levels = ([], levels) := by
  cases levels <;> simp [sweepLevels]

/-- A queue whose orders stand at their level's price. -/
def Priced (levels : List LevelView) : Prop :=
  ∀ level ∈ levels, ∀ entry ∈ level.orders, entry.price = level.price

/-- Sweeping level by level sweeps the flat list. -/
theorem sweepLevels_eq_sweep (order : Order) (remaining : Quantity) (levels : List LevelView)
    (priced : Priced levels) (proper : ∀ level ∈ levels, level.orders ≠ []) :
    sweep order remaining (restingOrders levels) =
      ((sweepLevels order remaining levels).1,
        restingOrders (sweepLevels order remaining levels).2) := by
  induction levels generalizing remaining with
  | nil => simp [sweep, sweepLevels, fillEach]
  | cons level rest ih =>
    have later := fun left => ih left
      (fun other member => priced other (mem_cons_of_mem _ member))
      (fun other member => proper other (mem_cons_of_mem _ member))
    have atPrice := priced level mem_cons_self
    by_cases zero : remaining = 0
    · simp [sweep, sweepLevels, zero]
    · by_cases accepted : order.accepts level.price
      · have all : ∀ maker ∈ level.orders, decide (order.accepts maker.price) = true := by
          intro maker queued
          rw [atPrice maker queued]
          exact decide_eq_true accepted
        have step := later (leftAfter remaining (fillEach remaining level.orders).1)
        simp only [sweep, Prod.mk.injEq] at step
        simp only [sweep, sweepLevels, restingOrders_cons, zero, accepted, not_true_eq_false,
          or_self, if_false, takeWhile_append_of_pos all, dropWhile_append_of_pos all,
          fillEach_append, restingOrders_append, restingOrders_pruned, append_assoc, step.1,
          step.2]
      · obtain ⟨maker, queue, shape⟩ := exists_cons_of_ne_nil (proper level mem_cons_self)
        have refused : ¬order.accepts maker.price := by
          rw [atPrice maker (by simp [shape])]
          exact accepted
        simp [sweep, sweepLevels, shape, accepted, refused, fillEach]

/-! ## What a sweep leaves -/

/-- A price worse than a refused one is refused. -/
theorem Order.accepts_mono {order : Order} {better worse : Price}
    (ordered : order.side.opposite.Better better worse) (accepted : order.accepts worse) :
    order.accepts better := by
  rintro ⟨isLimit, refused⟩
  exact accepted ⟨isLimit, refused.trans ordered⟩

/-- A level that is left is an old one with its queue filled in part. -/
theorem level_of_sweepLevels {order : Order} {remaining : Quantity} {levels : List LevelView}
    {level : LevelView} (member : level ∈ (sweepLevels order remaining levels).2) :
    ∃ old ∈ levels, ∃ opened,
      level = { old with orders := (fillEach opened old.orders).2 } ∧
        (old.orders ≠ [] → level.orders ≠ []) := by
  induction levels generalizing remaining with
  | nil => simp [sweepLevels] at member
  | cons first rest ih =>
    by_cases stop : remaining = 0 ∨ ¬order.accepts first.price
    · -- The sweep has ended, which is filling with nothing.
      simp only [sweepLevels, stop, if_true] at member
      exact ⟨level, member, 0, by rw [fillEach_zero], id⟩
    · simp only [sweepLevels, stop, if_false] at member
      rcases mem_append.mp member with here | later
      · exact ⟨first, mem_cons_self, remaining, mem_pruned here, fun _ => pruned_nonempty here⟩
      · obtain ⟨old, listed, filled⟩ := ih later
        exact ⟨old, mem_cons_of_mem _ listed, filled⟩

/-- Every level that is left stands at an old price and is not empty. -/
theorem mem_sweepLevels {order : Order} {remaining : Quantity} {levels : List LevelView}
    {level : LevelView} (proper : ∀ level ∈ levels, level.orders ≠ [])
    (member : level ∈ (sweepLevels order remaining levels).2) :
    level.orders ≠ [] ∧ ∃ old ∈ levels, old.price = level.price := by
  obtain ⟨old, listed, _, rfl, nonempty⟩ := level_of_sweepLevels member
  exact ⟨nonempty (proper old listed), old, listed, rfl⟩

/-- Quantity that is left over has swept every acceptable level away. -/
theorem sweepLevels_refused {order : Order} {remaining : Quantity} {levels : List LevelView}
    (sorted : Sorted order.side.opposite levels)
    (some' : leftAfter remaining (sweepLevels order remaining levels).1 ≠ 0) :
    ∀ level ∈ (sweepLevels order remaining levels).2, ¬order.accepts level.price := by
  induction levels generalizing remaining with
  | nil => simp [sweepLevels]
  | cons first rest ih =>
    obtain ⟨ahead, tail⟩ := pairwise_cons.mp sorted
    by_cases stop : remaining = 0 ∨ ¬order.accepts first.price
    · simp only [sweepLevels, stop, if_true, leftAfter_nil] at some' ⊢
      have refused := stop.resolve_left some'
      intro level member
      rcases mem_cons.mp member with rfl | later
      · exact refused
      · exact fun accepted => refused (Order.accepts_mono (ahead level later) accepted)
    · simp only [sweepLevels, stop, if_false, leftAfter_append] at some' ⊢
      have left : leftAfter remaining (fillEach remaining first.orders).1 ≠ 0 := by
        intro zero
        simp [zero] at some'
      rw [fillEach_emptied _ _ left]
      simpa [pruned] using ih tail some'

/-- The fills of a sweep take no more than the quantity there is. -/
theorem sweepLevels_total (order : Order) (remaining : Quantity) (levels : List LevelView) :
    ((sweepLevels order remaining levels).1.map fun fill => fill.qty.toNat).sum +
      (leftAfter remaining (sweepLevels order remaining levels).1).toNat = remaining.toNat := by
  induction levels generalizing remaining with
  | nil => simp [sweepLevels]
  | cons first rest ih =>
    by_cases stop : remaining = 0 ∨ ¬order.accepts first.price
    · simp [sweepLevels, stop]
    · have here := fillEach_total remaining first.orders
      have later := ih (leftAfter remaining (fillEach remaining first.orders).1)
      simp only [sweepLevels, stop, if_false, map_append, sum_append, leftAfter_append]
      omega

/-- An order left by a run of fills is an old one, possibly with less open quantity. -/
theorem mem_fillEach {remaining : Quantity} {resting : List OrderView} {entry : OrderView}
    (member : entry ∈ (fillEach remaining resting).2) :
    ∃ old ∈ resting, ∃ qty, qty ≤ old.remainingQty ∧
      entry = { old with remainingQty := old.remainingQty - qty } := by
  induction resting generalizing remaining with
  | nil => simp [fillEach] at member
  | cons maker rest ih =>
    by_cases zero : remaining = 0
    · rw [zero, fillEach_zero] at member
      exact ⟨entry, member, 0, by simp, by simp⟩
    · simp only [fillEach, zero, if_false] at member
      rcases mem_append.mp member with here | later
      · refine ⟨maker, mem_cons_self, _, matchQty_le_maker remaining maker.remainingQty, ?_⟩
        unfold reduced at here
        split at here
        · cases here
        · exact mem_singleton.mp here
      · obtain ⟨old, listed, kept⟩ := ih later
        exact ⟨old, mem_cons_of_mem _ listed, kept⟩

/-- An order left by a sweep is an old one, possibly with less open quantity. -/
theorem mem_restingOrders_sweepLevels {order : Order} {remaining : Quantity}
    {levels : List LevelView} {entry : OrderView}
    (member : entry ∈ restingOrders (sweepLevels order remaining levels).2) :
    ∃ old ∈ restingOrders levels, ∃ qty, qty ≤ old.remainingQty ∧
      entry = { old with remainingQty := old.remainingQty - qty } := by
  obtain ⟨level, left, queued⟩ := mem_restingOrders.mp member
  obtain ⟨home, listed, opened, rfl, _⟩ := level_of_sweepLevels left
  obtain ⟨old, inQueue, kept⟩ := mem_fillEach queued
  exact ⟨old, mem_restingOrders.mpr ⟨home, listed, inQueue⟩, kept⟩

/-- Fills add no order. -/
theorem fillEach_length_le (remaining : Quantity) (resting : List OrderView) :
    (fillEach remaining resting).2.length ≤ resting.length := by
  induction resting generalizing remaining with
  | nil => simp [fillEach]
  | cons maker rest ih =>
    by_cases zero : remaining = 0
    · simp [zero]
    · have later := ih (remaining - matchQty remaining maker.remainingQty)
      have one : (reduced maker (matchQty remaining maker.remainingQty)).length ≤ 1 := by
        unfold reduced
        split <;> simp
      simp only [fillEach, zero, if_false, length_append, length_cons]
      omega

/-- A sweep frees nodes and takes none. -/
theorem sweepLevels_length_le (order : Order) (remaining : Quantity) (levels : List LevelView) :
    (sweepLevels order remaining levels).2.length ≤ levels.length ∧
      (restingOrders (sweepLevels order remaining levels).2).length ≤
        (restingOrders levels).length := by
  induction levels generalizing remaining with
  | nil => simp [sweepLevels]
  | cons first rest ih =>
    by_cases stop : remaining = 0 ∨ ¬order.accepts first.price
    · simp [sweepLevels, stop]
    · have here := fillEach_length_le remaining first.orders
      have later := ih (leftAfter remaining (fillEach remaining first.orders).1)
      have one : (pruned { first with
          orders := (fillEach remaining first.orders).2 }).length ≤ 1 := by
        unfold pruned
        split <;> simp
      simp only [sweepLevels, stop, if_false, length_append, length_cons,
        restingOrders_append, restingOrders_pruned, restingOrders_cons]
      omega

end FluxTrade
