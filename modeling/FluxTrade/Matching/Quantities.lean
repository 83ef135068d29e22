import FluxTrade.Matching.Conservation
import FluxTrade.Matching.Ownership

/-!
# Positive quantities

Fills and submissions keep the open quantities of resting orders positive. A
modification to zero does not: the order keeps its place with nothing left and is
later matched with quantity zero. The total of a level is kept in 64 bits, so it
is zero for quantities that add up to a multiple of 2^64.
-/

namespace FluxTrade

open Execution EngineRun List

/-- The quantities of every level add up to less than 2^64. -/
def LimitOrderBook.VolumesFit (book : LimitOrderBook) : Prop :=
  ∀ side, ∀ level ∈ book.levelsOf side, openVolume level.orders < 2 ^ 64

namespace EngineRun

/-- Resting orders, levels and matches have positive quantities. -/
structure PositiveQuantities (run : EngineRun) : Prop where
  orders : ∀ side, ∀ level ∈ run.engine.book.levelsOf side, ∀ entry ∈ level.orders,
    0 < entry.remainingQty
  totals : ∀ side, ∀ level ∈ run.engine.book.levelsOf side,
    0 < (run.engine.book.level level.slot).totalQty
  matched : ∀ entry ∈ run.matched, 0 < entry.2.record.qty

/-- No resting order is modified to zero. -/
def KeepsOpen (run : EngineRun) (input : EngineInput) : Prop :=
  match input.call with
  | .modify orderId newQty => newQty = 0 → run.engine.book.findOrder orderId = none
  | _ => True

instance (run : EngineRun) (input : EngineInput) : Decidable (run.KeepsOpen input) := by
  obtain ⟨_ | _ | _ | _, _, _⟩ := input <;> dsimp only [KeepsOpen] <;> infer_instance

/-- The level that a limit order may come to rest in, or that holds the order to be modified, holds
with the new quantity less than 2^64. -/
def FitsLevel (run : EngineRun) (input : EngineInput) : Prop :=
  match input.call with
  | .submit order => order.type = .limit →
    ∀ level ∈ run.engine.book.levelsOf order.side, level.price = order.price →
      openVolume level.orders + order.qty.toNat < 2 ^ 64
  | .modify orderId newQty => ∀ side, ∀ level ∈ run.engine.book.levelsOf side,
    ∀ entry ∈ level.orders, run.engine.book.findOrder orderId = some entry.slot →
      openVolume level.orders + newQty.toNat < 2 ^ 64
  | _ => True

instance (run : EngineRun) (input : EngineInput) : Decidable (run.FitsLevel input) := by
  obtain ⟨_ | _ | _ | _, _, _⟩ := input <;> dsimp only [FitsLevel] <;> infer_instance

end EngineRun

/-! ## Totals -/

/-- One order more. -/
theorem openVolume_cons (entry : OrderView) (rest : List OrderView) :
    openVolume (entry :: rest) = entry.remainingQty.toNat + openVolume rest :=
  sum_cons

/-- More orders. -/
theorem openVolume_append (front back : List OrderView) :
    openVolume (front ++ back) = openVolume front + openVolume back := by
  rw [openVolume, map_append, sum_append]
  rfl

/-- The total of a level is the sum of its quantities, in 64 bits. -/
theorem openQty_toNat (queue : List OrderView) :
    (openQty queue).toNat = openVolume queue % 2 ^ 64 := by
  induction queue with
  | nil => rfl
  | cons entry rest ih => rw [openQty, UInt64.toNat_add, ih, openVolume_cons, Nat.add_mod_mod]

/-- An open order makes the quantities of its queue add up to something. -/
theorem openVolume_pos {queue : List OrderView} (some' : queue ≠ [])
    (positive : ∀ entry ∈ queue, entry.remainingQty ≠ 0) : 0 < openVolume queue := by
  cases queue with
  | nil => exact absurd rfl some'
  | cons entry rest =>
    have first := UInt64.lt_iff_toNat_lt.mp
      (UInt64.pos_iff_ne_zero.mpr (positive entry mem_cons_self))
    rw [UInt64.toNat_zero] at first
    rw [openVolume_cons]
    omega

/-- Filling a queue adds nothing to it. -/
theorem openVolume_fillEach_le (remaining : Quantity) (queue : List OrderView) :
    openVolume (fillEach remaining queue).2 ≤ openVolume queue := by
  induction queue generalizing remaining with
  | nil => exact Nat.le_refl _
  | cons maker rest ih =>
    by_cases zero : remaining = 0
    · rw [zero, fillEach_zero]
    · have later := ih (remaining - matchQty remaining maker.remainingQty)
      have here : openVolume (reduced maker (matchQty remaining maker.remainingQty)) ≤
          maker.remainingQty.toNat := by
        unfold reduced
        split
        · exact Nat.zero_le _
        · have left := UInt64.toNat_sub_of_le _ _ (matchQty_le_maker remaining maker.remainingQty)
          change (maker.remainingQty - matchQty remaining maker.remainingQty).toNat + 0 ≤ _
          omega
      simp only [fillEach, zero, if_false, openVolume_append, openVolume_cons]
      omega

/-- Amending an order adds at most its new quantity to the queue. -/
theorem openVolume_amended_le (ahead behind : List OrderView) (entry : OrderView)
    (newQty : Quantity) (prioritySeq : UInt64) :
    openVolume (amended ahead behind entry newQty prioritySeq) ≤
      openVolume (ahead ++ entry :: behind) + newQty.toNat := by
  have single (only : OrderView) : openVolume [only] = only.remainingQty.toNat := Nat.add_zero _
  unfold amended
  split
  · simp only [openVolume_append, openVolume_cons]
    omega
  · split
    · simp only [openVolume_append, openVolume_cons, single]
      omega
    · exact Nat.le_add_right _ _

/-! ## Calls -/

/-- An amended queue holds old orders and one with the new quantity. -/
theorem mem_amended_qty {ahead behind : List OrderView} {entry found : OrderView}
    {newQty : Quantity} {prioritySeq : UInt64}
    (member : found ∈ amended ahead behind entry newQty prioritySeq) :
    found ∈ ahead ++ entry :: behind ∨ found.remainingQty = newQty := by
  unfold amended at member
  split at member
  · rcases mem_append.mp member with early | late
    · exact .inl (mem_append_left _ early)
    · rcases mem_cons.mp late with rfl | later
      · exact .inr rfl
      · exact .inl (mem_append_right _ (mem_cons_of_mem _ later))
  · split at member
    · rcases mem_append.mp member with old | new
      · exact .inl ((sublist_cons_self entry behind).append_left ahead |>.subset old)
      · rw [mem_singleton.mp new]
        exact .inr rfl
    · exact .inl member

/-- The amended order is queued. -/
theorem exists_mem_amended (ahead behind : List OrderView) (entry : OrderView)
    (newQty : Quantity) (prioritySeq : UInt64) :
    ∃ found ∈ amended ahead behind entry newQty prioritySeq, found.remainingQty = newQty := by
  unfold amended
  split
  · exact ⟨_, mem_append_right _ mem_cons_self, rfl⟩
  · rename_i notLess
    split
    · exact ⟨_, mem_append_right _ (mem_singleton_self _), rfl⟩
    · rename_i notMore
      exact ⟨entry, mem_append_right _ mem_cons_self,
        UInt64.le_antisymm (UInt64.not_lt.mp notLess) (UInt64.not_lt.mp notMore)⟩

/-- A cancellation adds nothing to a level. -/
theorem CancelView.openVolume_lt {found : Option Nat} {view view' : BookView} {bound : Nat}
    (cancelled : CancelView found view view')
    (before : ∀ side, ∀ level ∈ view side, openVolume level.orders < bound) (side : Side) :
    ∀ level ∈ view' side, openVolume level.orders < bound := by
  cases cancelled with
  | unknown _ => exact before side
  | @taken home front back level ahead behind entry split queued _ =>
    rw [append_assoc]
    refine forall_mem_replaced split before (fun kept member => ?_) side
    have room := before home level (by simp [split])
    rw [queued, openVolume_append, openVolume_cons] at room
    rw [mem_pruned member, openVolume_append]
    omega

namespace EngineRun

variable {run next : EngineRun} {input : EngineInput}

/-- Every call that fits into its level leaves all levels below 2^64. -/
theorem Invariant.volumesFit (invariant : run.Invariant) (before : run.engine.book.VolumesFit)
    (fits : run.FitsLevel input) (taken : run.step input = .ok next) :
    next.engine.book.VolumesFit := by
  cases invariant.moved taken with
  | @submit order _ _ _ outcome =>
    intro side level member
    rcases order.side.eq_or_opposite side with rfl | rfl
    · by_cases rests : order.type = .limit ∧ openAfter order run.engine.book.levelsOf ≠ 0
      · obtain ⟨slot, node, placed⟩ := outcome.views.rests rests.1 rests.2
        rw [placed] at member
        rcases mem_placeOrder member with
          ⟨queue, shape, _, rfl | ⟨home, listed, priced, rfl⟩⟩ | old
        · rw [shape]
          exact order.qty.toNat_lt
        · rw [shape, openVolume_append]
          exact fits rests.1 home listed priced
        · exact before _ level old
      · rw [not_and_or, not_not] at rests
        rw [outcome.views.leaves rests] at member
        exact before _ level member
    · rw [outcome.views.opposite] at member
      obtain ⟨old, listed, opened, rfl, _⟩ := level_of_sweepLevels member
      exact Nat.lt_of_le_of_lt (openVolume_fillEach_le opened old.orders) (before _ old listed)
  | cancel _ views _ => exact views.openVolume_lt before
  | @modify _ newQty _ clock _ _ _ _ =>
    obtain ⟨_, ⟨_, same⟩ | ⟨side, front, level, back, ahead, entry, behind, split, queued, found,
      views⟩⟩ := invariant.modified taken
    · rwa [same]
    · have grown := openVolume_amended_le ahead behind entry newQty clock.now
      have room := fits side level (by simp [split]) entry (by simp [queued]) found
      rw [queued] at room
      have here (home : LevelView)
          (new : home ∈ [{ level with orders := amended ahead behind entry newQty clock.now }]) :
          openVolume home.orders < 2 ^ 64 := by
        rw [mem_singleton.mp new]
        exact Nat.lt_of_le_of_lt grown room
      unfold LimitOrderBook.VolumesFit
      rw [views]
      exact forall_mem_replaced split before here
  | reset sane _ =>
    intro side level member
    rw [← sane.view_eq] at member
    cases member

/-- The quantities of a run whose levels stay below 2^64 are positive if its orders are open and
its matches have moved something. -/
theorem positiveQuantities_iff (invariant : run.Invariant) (fits : run.engine.book.VolumesFit) :
    run.PositiveQuantities ↔ run.Positive ∧ ∀ entry ∈ run.matched, entry.2.record.qty ≠ 0 := by
  constructor
  · rintro ⟨orders, _, matched⟩
    refine ⟨?_, fun entry made => (UInt64.pos_iff_ne_zero.mp (matched entry made))⟩
    intro side entry member
    obtain ⟨level, listed, queued⟩ := mem_restingOrders.mp member
    exact UInt64.pos_iff_ne_zero.mp (orders side level listed entry queued)
  · rintro ⟨positive, matched⟩
    have orders (side : Side) (level : LevelView)
        (listed : level ∈ run.engine.book.levelsOf side) (entry : OrderView)
        (queued : entry ∈ level.orders) : entry.remainingQty ≠ 0 :=
      positive side entry (mem_restingOrders.mpr ⟨level, listed, queued⟩)
    refine ⟨?_, ?_, fun entry made => (UInt64.pos_iff_ne_zero.mpr (matched entry made))⟩
    · intro side level listed entry queued
      exact UInt64.pos_iff_ne_zero.mpr (orders side level listed entry queued)
    · intro side level listed
      have total : (run.engine.book.level level.slot).totalQty = openQty level.orders :=
        ((invariant.sane.rep.sides side).nodes level listed).total
      rw [total, UInt64.lt_iff_toNat_lt, openQty_toNat, Nat.mod_eq_of_lt (fits side level listed)]
      exact openVolume_pos (invariant.sane.proper side level listed) (orders side level listed)

/-- A call that modifies no resting order to zero keeps resting orders open. -/
theorem Positive.step_of_keepsOpen (positive : run.Positive) (invariant : run.Invariant)
    (keeps : run.KeepsOpen input) (taken : run.step input = .ok next) : next.Positive := by
  obtain ⟨call, ctx, clock⟩ := input
  cases call with
  | modify orderId newQty =>
    obtain ⟨_, ⟨_, same⟩ | ⟨side, front, level, back, ahead, entry, behind, split, queued, found,
      views⟩⟩ := invariant.modified taken
    · unfold Positive
      rw [same]
      exact positive
    · have some' : newQty ≠ 0 := by
        intro zero
        rw [keeps zero] at found
        cases found
      have before (other : Side) (home : LevelView)
          (listed : home ∈ run.engine.book.levelsOf other) (held : OrderView)
          (inside : held ∈ home.orders) : held.remainingQty ≠ 0 :=
        positive other held (mem_restingOrders.mpr ⟨home, listed, inside⟩)
      have here (home : LevelView)
          (new : home ∈ [{ level with orders := amended ahead behind entry newQty clock.now }])
          (held : OrderView) (inside : held ∈ home.orders) : held.remainingQty ≠ 0 := by
        rw [mem_singleton.mp new] at inside
        rcases mem_amended_qty inside with old | fresh
        · exact before side level (by simp [split]) held (queued ▸ old)
        · exact fun zero => some' (fresh.symm.trans zero)
      intro other held member
      rw [views] at member
      obtain ⟨home, listed, inside⟩ := mem_restingOrders.mp member
      exact forall_mem_replaced split before here other home listed held inside
  | _ => exact positive.step invariant (by simp) taken

/-- Matches with open orders move something. -/
theorem Positive.matched (positive : run.Positive) (invariant : run.Invariant)
    (before : ∀ entry ∈ run.matched, entry.2.record.qty ≠ 0)
    (taken : run.step input = .ok next) : ∀ entry ∈ next.matched, entry.2.record.qty ≠ 0 := by
  cases invariant.moved taken with
  | submit outcome =>
    intro entry member
    rcases mem_append.mp member with old | new
    · exact before entry old
    · obtain ⟨call, made, rfl⟩ := mem_map.mp new
      exact positive.qty_ne_zero invariant outcome call made
  | cancel | modify | reset => exact before

/-- A call to a state with open orders has modified no resting order to zero. -/
theorem Invariant.keepsOpen (invariant : run.Invariant) (taken : run.step input = .ok next)
    (positive : next.Positive) : run.KeepsOpen input := by
  obtain ⟨call, ctx, clock⟩ := input
  cases call with
  | modify orderId newQty =>
    intro zero
    obtain ⟨_, ⟨missing, _⟩ | ⟨side, front, level, back, ahead, entry, behind, split, queued,
      found, views⟩⟩ := invariant.modified taken
    · exact missing
    · obtain ⟨amended', member, qty⟩ := exists_mem_amended ahead behind entry newQty clock.now
      refine absurd (qty.trans zero) (positive side amended' ?_)
      rw [views, Function.update_self]
      exact mem_restingOrders.mpr ⟨_, mem_append_right _ mem_cons_self, member⟩
  | _ => trivial

/-- In every run whose calls fit into their levels, quantities are positive throughout exactly if no
call modifies a resting order to zero. -/
theorem positiveQuantities_iff_keepsOpen {listener : Option (List BookEvent)}
    {inputs : List EngineInput} {final : EngineRun}
    (fits : Along FitsLevel step (start listener) inputs)
    (ran : runAll step (start listener) inputs = .ok final) :
    Throughout PositiveQuantities step (start listener) inputs ↔
      Along KeepsOpen step (start listener) inputs := by
  let motive (run : EngineRun) :=
    run.Invariant ∧ run.engine.book.VolumesFit ∧ run.PositiveQuantities
  have start : motive (start listener) :=
    ⟨.start listener, (fun _ _ member => nomatch member), (fun _ _ member => nomatch member),
      (fun _ _ member => nomatch member), fun _ member => nomatch member⟩
  refine Throughout.iff_along start ?_ ?_ ?_ fits ran
  · exact fun _ kept => kept.2.2
  · rintro run input next ⟨invariant, before, quantities⟩ here keeps taken
    obtain ⟨positive, matched⟩ := (positiveQuantities_iff invariant before).mp quantities
    have after := (invariant.step taken).1
    have volumes := invariant.volumesFit before here taken
    exact ⟨after, volumes, (positiveQuantities_iff after volumes).mpr
      ⟨positive.step_of_keepsOpen invariant keeps taken, positive.matched invariant matched taken⟩⟩
  · rintro run input next ⟨invariant, before, _⟩ here taken quantities
    have volumes := invariant.volumesFit before here taken
    obtain ⟨positive, _⟩ :=
      (positiveQuantities_iff (invariant.step taken).1 volumes).mp quantities
    exact invariant.keepsOpen taken positive

/-- An order is reduced to three lots and then filled for two of them. -/
theorem positiveQuantities_iff_keepsOpen_reduced :
    Throughout PositiveQuantities step (start none)
      [submitInput (limitOrder 1 .sell 100 5), ⟨.modify 1 3, .empty, ⟨0, 0, 0⟩⟩,
        submitInput (limitOrder 2 .buy 100 2)] := by
  have returns : Returns (fun _ => True) (runAll step (start none)
      [submitInput (limitOrder 1 .sell 100 5), ⟨.modify 1 3, .empty, ⟨0, 0, 0⟩⟩,
        submitInput (limitOrder 2 .buy 100 2)]) := by
    decide +kernel
  obtain ⟨final, ran, _⟩ := returns.exists
  exact (positiveQuantities_iff_keepsOpen (by decide +kernel) ran).mpr (by decide +kernel)

/-- An order modified to zero stays in its level, whose total is then zero, and the next order is
matched with it for nothing. -/
theorem not_positiveQuantities_zero :
    Along FreshId step (start none)
        [submitInput (limitOrder 1 .sell 100 5), ⟨.modify 1 0, .empty, ⟨0, 0, 0⟩⟩,
          submitInput (limitOrder 2 .buy 100 2)] ∧
      ¬Throughout PositiveQuantities step (start none)
        [submitInput (limitOrder 1 .sell 100 5), ⟨.modify 1 0, .empty, ⟨0, 0, 0⟩⟩,
          submitInput (limitOrder 2 .buy 100 2)] ∧
      ∃ final, runAll step (start none)
          [submitInput (limitOrder 1 .sell 100 5), ⟨.modify 1 0, .empty, ⟨0, 0, 0⟩⟩,
            submitInput (limitOrder 2 .buy 100 2)] = .ok final ∧
        final.matched.map (fun entry => entry.2.record.qty) = [0] := by
  obtain ⟨final, ran, matched⟩ : ∃ final, runAll step (start none)
      [submitInput (limitOrder 1 .sell 100 5), ⟨.modify 1 0, .empty, ⟨0, 0, 0⟩⟩,
        submitInput (limitOrder 2 .buy 100 2)] = .ok final ∧
      final.matched.map (fun entry => entry.2.record.qty) = [0] :=
    Returns.exists (by decide +kernel)
  refine ⟨by decide +kernel, fun always => ?_, final, ran, matched⟩
  have last := (always.final ran).matched
  obtain ⟨entry, made, zero⟩ : ∃ entry ∈ final.matched, entry.2.record.qty = 0 :=
    mem_map.mp (by rw [matched]; exact mem_singleton_self 0)
  exact absurd (last entry made) (by rw [zero]; decide)

end EngineRun

end FluxTrade
