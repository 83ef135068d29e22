import FluxTrade.Matching.Sweep

/-!
# The crossing loops refine the greedy reference

One iteration of the inner loop is one step of `fillEach`, a run of the inner
loop fills one level's queue, and the outer loop is `sweepLevels` on the
opposite side. The saved `next` pointer stays right because a fill unlinks only
the order it exhausts, and the best level is read again after each level.
`Extends` collects what a run of matches does to the other variables.
-/

namespace FluxTrade

open LinkedList Function

/-- The fill that a call asked for. -/
def MatchCall.fill (call : MatchCall) : Fill :=
  ⟨call.record.resting.view call.maker, call.record.qty⟩

/-- A call whose assertions hold: the level found for the maker's price holds the maker, and the
fill is at most what the maker has open. -/
structure MatchCall.Sound (call : MatchCall) : Prop where
  located : ∃ side level,
    call.book.locate (call.book.order call.maker).price = some (side, level) ∧
      call.maker ∈ queueSlots (call.book.queueOf level)
  fits : call.record.qty ≤ (call.book.order call.maker).remainingQty
  resting : call.record.resting = call.book.order call.maker
  price : call.record.price = call.record.resting.price

/-- The variables after a run of matches. -/
structure Crossing.Extends (order : Order) (before after : Crossing) (calls : List MatchCall) :
    Prop where
  log : after.calls = before.calls ++ calls
  ctx : after.ctx =
    calls.foldl (fun ctx call => TradeBuilder.buildMatch ctx order call.record) before.ctx
  stats : after.stats =
    calls.foldl (fun stats call => stats.recordMatch call.record.qty call.record.price)
      before.stats
  remaining : after.remaining = leftAfter before.remaining (calls.map MatchCall.fill)
  tradesGenerated : after.tradesGenerated = before.tradesGenerated + UInt32.ofNat calls.length
  tradeSeq : after.tradeSeq = before.tradeSeq + UInt64.ofNat calls.length
  execSeq : after.execSeq = before.execSeq + UInt64.ofNat (2 * calls.length)
  remainders : ∀ front call back, calls = front ++ call :: back →
    call.record.remainingQtyTaker =
      leftAfter before.remaining ((front ++ [call]).map MatchCall.fill)
  sound : ∀ call ∈ calls, call.Sound

namespace Crossing

variable {order : Order} {first second third : Crossing} {near far : List MatchCall}

/-- No match. -/
theorem Extends.refl (crossing : Crossing) : Extends order crossing crossing [] where
  log := by simp
  ctx := rfl
  stats := rfl
  remaining := rfl
  tradesGenerated := by simp
  tradeSeq := by simp
  execSeq := by simp
  remainders := by simp
  sound := by simp

/-- Matches in a row. -/
theorem Extends.trans (left : Extends order first second near)
    (right : Extends order second third far) : Extends order first third (near ++ far) where
  log := by rw [right.log, left.log, List.append_assoc]
  ctx := by rw [right.ctx, left.ctx, List.foldl_append]
  stats := by rw [right.stats, left.stats, List.foldl_append]
  remaining := by rw [right.remaining, left.remaining, List.map_append, leftAfter_append]
  tradesGenerated := by
    rw [right.tradesGenerated, left.tradesGenerated, List.length_append, UInt32.ofNat_add,
      UInt32.add_assoc]
  tradeSeq := by
    rw [right.tradeSeq, left.tradeSeq, List.length_append, UInt64.ofNat_add, UInt64.add_assoc]
  execSeq := by
    rw [right.execSeq, left.execSeq, List.length_append, Nat.mul_add, UInt64.ofNat_add,
      UInt64.add_assoc]
  remainders := by
    intro front call back split
    rcases List.append_eq_append_iff.mp split with ⟨middle, rfl, inFar⟩ | ⟨middle, inNear, rest⟩
    · have later := right.remainders middle call back inFar
      rw [later, left.remaining, ← leftAfter_append, ← List.map_append, List.append_assoc]
    · cases middle with
      | nil =>
        simp only [List.append_nil] at inNear
        have later := right.remainders [] call back (by simpa using rest.symm)
        rw [later, left.remaining, ← leftAfter_append, ← List.map_append, inNear]
        rfl
      | cons head tail =>
        obtain ⟨rfl, rfl⟩ := List.cons.inj rest
        exact left.remainders front call tail inNear
  sound := by
    intro call member
    rcases List.mem_append.mp member with old | new
    · exact left.sound call old
    · exact right.sound call new

end Crossing

/-- The outcome of a part of the crossing loops: matches that perform the given fills and leave
the given levels on the opposite side. -/
structure Crossed (order : Order) (before after : Crossing) (view : BookView) (fills : List Fill)
    (levels : List LevelView) : Prop where
  extend : ∃ calls, Crossing.Extends order before after calls ∧ calls.map MatchCall.fill = fills
  rep : BookRep after.book (update view order.side.opposite levels)
  complete : Complete before.book view →
    Complete after.book (update view order.side.opposite levels)

namespace Crossed

variable {order : Order} {crossing : Crossing} {view : BookView}

/-- Matches that follow one another. -/
theorem trans {first second third : Crossing} {fills later : List Fill}
    {levels levels' : List LevelView} (left : Crossed order first second view fills levels)
    (right : Crossed order second third (update view order.side.opposite levels) later
      levels') : Crossed order first third view (fills ++ later) levels' := by
  obtain ⟨near, nearExtends, nearFills⟩ := left.extend
  obtain ⟨far, farExtends, farFills⟩ := right.extend
  have rep := right.rep
  have complete := right.complete
  rw [update_idem] at rep complete
  refine ⟨⟨near ++ far, nearExtends.trans farExtends, ?_⟩, rep, fun before => ?_⟩
  · rw [List.map_append, nearFills, farFills]
  · exact complete (left.complete before)

/-- No match at all. -/
theorem refl {levels : List LevelView} (rep : BookRep crossing.book view)
    (same : view order.side.opposite = levels) :
    Crossed order crossing crossing view [] levels := by
  have idle : update view order.side.opposite levels = view := by
    rw [← same, update_eq_self]
  refine ⟨⟨[], Crossing.Extends.refl crossing, rfl⟩, ?_, ?_⟩
  · rw [idle]
    exact rep
  · rw [idle]
    exact id

/-- The quantity left after a run of matches. -/
theorem remaining {after : Crossing} {fills : List Fill} {levels : List LevelView}
    (crossed : Crossed order crossing after view fills levels) :
    after.remaining = leftAfter crossing.remaining fills := by
  obtain ⟨calls, extend, same⟩ := crossed.extend
  rw [extend.remaining, same]

end Crossed

namespace Crossing

variable {order : Order} {crossing : Crossing} {view : BookView} {level : LevelView}
  {back : List LevelView} {maker : OrderView} {tail : List OrderView}
variable {timestamp : UInt64} {slot resting fuel : Nat} {allow : Order → LiveOrder → Bool}
  {start : Option Nat} {middle : Crossing}

/-- The variables after one match. -/
theorem record_extends {book : LimitOrderBook}
    (sound : (⟨crossing.matchOf timestamp slot resting, resting, crossing.book⟩ :
      MatchCall).Sound) :
    Extends order crossing
      (crossing.record order (crossing.matchOf timestamp slot resting) resting book)
      [⟨crossing.matchOf timestamp slot resting, resting, crossing.book⟩] where
  log := rfl
  ctx := rfl
  stats := rfl
  remaining := rfl
  tradesGenerated := rfl
  tradeSeq := rfl
  execSeq := rfl
  remainders := by
    intro front call after split
    have short : front = [] := by
      cases front with
      | nil => rfl
      | cons head rest => simp at split
    subst short
    simp only [List.nil_append, List.cons.injEq] at split
    rw [← split.1]
    rfl
  sound := by simpa using sound

section

variable (timestamp : UInt64) (rep : BookRep crossing.book view) (apart : NoOverlap view)
  (split : view order.side.opposite = level :: back)
include rep apart split

/-- One iteration of the inner loop fills one order of the level. -/
theorem matchOne_at {ahead : List OrderView} (queued : level.orders = ahead ++ maker :: tail) :
    ∃ crossing', crossing.matchOne order timestamp level.slot maker.slot = .ok crossing' ∧
      Crossed order crossing crossing' view
        [⟨maker, matchQty crossing.remaining maker.remainingQty⟩]
        (pruned { level with orders := ahead ++
          (reduced maker (matchQty crossing.remaining maker.remainingQty) ++ tail) } ++
          back) := by
  have split' : view order.side.opposite = [] ++ level :: back := split
  have listed : level ∈ view order.side.opposite := by simp [split]
  have member : maker ∈ level.orders := by simp [queued]
  have shown := rep.order_view listed member
  have remaining := rep.order_remainingQty split' queued
  have priced := rep.order_price split' queued
  have levelPrice := (rep.node split').priced
  obtain ⟨book, filled, rep', lookup⟩ := rep.fillOrder (rep.locate_split apart split') split' queued
    (matchQty_le_maker crossing.remaining maker.remainingQty)
  have qty : (crossing.matchOf timestamp level.slot maker.slot).qty =
      matchQty crossing.remaining maker.remainingQty := by
    simp only [matchOf, remaining]
  have sound : (⟨crossing.matchOf timestamp level.slot maker.slot, maker.slot, crossing.book⟩ :
      MatchCall).Sound := by
    constructor
    · refine ⟨order.side.opposite, level.slot, ?_, ?_⟩
      · change crossing.book.locate (crossing.book.order maker.slot).price = _
        rw [priced]
        exact rep.locate_eq apart listed
      · change maker.slot ∈ queueSlots (crossing.book.queueOf level.slot)
        rw [rep.queueOf_eq listed]
        exact List.mem_map_of_mem member
    · change (crossing.matchOf timestamp level.slot maker.slot).qty ≤
        (crossing.book.order maker.slot).remainingQty
      rw [qty, remaining]
      exact matchQty_le_maker _ _
    · rfl
    · change (crossing.book.level level.slot).price = (crossing.book.order maker.slot).price
      rw [levelPrice, priced]
  refine ⟨crossing.record order (crossing.matchOf timestamp level.slot maker.slot) maker.slot book,
    ?_, ?_⟩
  · simp only [matchOne, qty, filled, bind, Except.bind]
  · refine ⟨⟨_, record_extends sound, ?_⟩, rep', ?_⟩
    · simp only [List.map_cons, List.map_nil, MatchCall.fill, qty, List.cons.injEq, and_true,
        Fill.mk.injEq]
      exact shown
    · intro complete
      exact complete.fill rep split' queued lookup

/-- One iteration of the inner loop at the head of the level. -/
theorem matchOne_spec (queued : level.orders = maker :: tail) :
    ∃ crossing', crossing.matchOne order timestamp level.slot maker.slot = .ok crossing' ∧
      Crossed order crossing crossing' view
        [⟨maker, matchQty crossing.remaining maker.remainingQty⟩]
        (pruned { level with
          orders := reduced maker (matchQty crossing.remaining maker.remainingQty) ++ tail } ++
          back) :=
  matchOne_at timestamp rep apart split (show level.orders = [] ++ maker :: tail from queued)

end

/-- An exhausted order ends the inner loop wherever it stands. -/
theorem matchLevel_exhausted (exhausted : crossing.remaining = 0) :
    matchLevel allow order timestamp slot fuel start crossing = .ok crossing := by
  cases start with
  | none => cases fuel <;> rfl
  | some resting => cases fuel <;> simp [matchLevel, exhausted]

/-- The inner loop matches the order it stands at and goes on from the saved pointer. -/
theorem matchLevel_step {next : Option Nat} (some' : crossing.remaining ≠ 0)
    (saved : (crossing.book.order resting).next = next)
    (allowed : allow order (crossing.book.order resting) = true)
    (matched : crossing.matchOne order timestamp slot resting = .ok middle) :
    matchLevel allow order timestamp slot (fuel + 1) (some resting) crossing =
      matchLevel allow order timestamp slot fuel next middle := by
  simp only [matchLevel, some', if_false, allowed, if_true, saved, matched, bind, Except.bind]

/-- The outer loop walks the queue of the level it enters and goes on. -/
theorem cross_step (enters : crossing.nextLevel order = some slot)
    (head : (crossing.book.level slot).orders.head = start)
    (ran : matchLevel allow order timestamp slot orderCapacity start crossing = .ok middle) :
    cross allow order timestamp (fuel + 1) crossing =
      cross allow order timestamp fuel middle := by
  simp only [cross, enters, head, ran, bind, Except.bind]

/-- The inner loop fills the queue of its level. -/
theorem matchLevel_spec (timestamp : UInt64) (rep : BookRep crossing.book view)
    (apart : NoOverlap view) (split : view order.side.opposite = level :: back)
    (proper : level.orders ≠ []) (fits : level.orders.length ≤ fuel) :
    ∃ crossing', matchLevel MatchingEngine.canSelfTrade order timestamp level.slot fuel
        (queueSlots level.orders).head? crossing = .ok crossing' ∧
      Crossed order crossing crossing' view (fillEach crossing.remaining level.orders).1
        (pruned { level with orders := (fillEach crossing.remaining level.orders).2 } ++
          back) := by
  -- Induction on the queue; the level keeps its slot and price while its head is filled away.
  generalize shape : level.orders = queue at proper fits
  induction queue generalizing crossing view level fuel with
  | nil => exact absurd rfl proper
  | cons maker tail ih =>
    obtain ⟨fuel, rfl⟩ : ∃ n, fuel = n + 1 := ⟨fuel - 1, by simp at fits; omega⟩
    by_cases zero : crossing.remaining = 0
    · refine ⟨crossing, matchLevel_exhausted zero, ?_⟩
      rw [zero, fillEach_zero]
      apply Crossed.refl rep
      rw [split, ← shape]
      have kept : level.orders ≠ [] := by simp [shape]
      simp [pruned, kept]
    · have split' : view order.side.opposite = [] ++ level :: back := split
      obtain ⟨middle, matched, crossed⟩ := matchOne_spec timestamp rep apart split shape
      have next := rep.order_next split' (show level.orders = [] ++ maker :: tail from shape)
      have left := crossed.remaining
      simp only [leftAfter_cons, leftAfter_nil] at left
      have first : (queueSlots (maker :: tail)).head? = some maker.slot := rfl
      rw [first, matchLevel_step zero next rfl matched]
      simp only [fillEach, zero, if_false]
      rw [← left]
      by_cases exhausted : middle.remaining = 0
      · refine ⟨middle, matchLevel_exhausted exhausted, ?_⟩
        rw [exhausted, fillEach_zero]
        exact crossed
      · have whole : maker.remainingQty = matchQty crossing.remaining maker.remainingQty :=
          (matchQty_exhausts _ _).resolve_left (left ▸ exhausted)
        have gone : reduced maker (matchQty crossing.remaining maker.remainingQty) = [] := by
          simp [reduced, ← whole]
        rw [gone] at crossed ⊢
        cases tail with
        | nil => exact ⟨middle, by cases fuel <;> rfl, crossed⟩
        | cons successor rest =>
          have stays := update_shortened view order.side.opposite level
            (List.cons_ne_nil successor rest) back
          have apart' : NoOverlap (update view order.side.opposite
              ([] ++ pruned { level with orders := successor :: rest } ++ back)) :=
            apart.replaced split'
          obtain ⟨last, ran, crossed'⟩ := ih crossed.rep apart' stays rfl
            (by simp) (by simp at fits ⊢; omega)
          exact ⟨last, ran, crossed.trans crossed'⟩

/-- The outer loop ends when the order is exhausted. -/
theorem cross_exhausted (ended : crossing.nextLevel order = none) :
    cross allow order timestamp fuel crossing = .ok crossing := by
  cases fuel <;> simp [cross, ended]

/-- The level that the outer loop enters is the best one, if the order trades there. -/
theorem nextLevel_eq (rep : BookRep crossing.book view)
    (split : view order.side.opposite = level :: back) :
    crossing.nextLevel order =
      if crossing.remaining = 0 ∨ ¬order.accepts level.price then none else some level.slot := by
  have best : crossing.book.bestLevel order.side.opposite = some level.slot := by
    have head := (rep.sides order.side.opposite).bestLevel_eq
    rw [split] at head
    exact head
  have split' : view order.side.opposite = [] ++ level :: back := split
  have price := (rep.node split').priced
  simp only [nextLevel, best, price]
  by_cases zero : crossing.remaining = 0
  · simp [zero]
  · by_cases accepted : order.accepts level.price <;> simp [zero, accepted]

/-- Without a level on the opposite side the outer loop ends. -/
theorem nextLevel_none (rep : BookRep crossing.book view)
    (none' : view order.side.opposite = []) : crossing.nextLevel order = none := by
  have head := (rep.sides order.side.opposite).bestLevel_eq
  rw [none'] at head
  have best : crossing.book.bestLevel order.side.opposite = none := head
  simp [nextLevel, best]

/-- The outer loop sweeps the opposite side. -/
theorem cross_spec (timestamp : UInt64) (rep : BookRep crossing.book view) (apart : NoOverlap view)
    (proper : Proper view) (fits : (view order.side.opposite).length ≤ fuel) :
    ∃ crossing', cross MatchingEngine.canSelfTrade order timestamp fuel crossing =
        .ok crossing' ∧
      Crossed order crossing crossing' view
        (sweepLevels order crossing.remaining (view order.side.opposite)).1
        (sweepLevels order crossing.remaining (view order.side.opposite)).2 := by
  -- Induction on the levels: a level that is entered is emptied, or the order is exhausted in it.
  generalize shape : view order.side.opposite = levels at fits
  induction levels generalizing crossing view fuel with
  | nil =>
    exact ⟨crossing, cross_exhausted (nextLevel_none rep shape), Crossed.refl rep shape⟩
  | cons level rest ih =>
    obtain ⟨fuel, rfl⟩ : ∃ n, fuel = n + 1 := ⟨fuel - 1, by simp at fits; omega⟩
    have next := nextLevel_eq rep shape
    have split : view order.side.opposite = [] ++ level :: rest := shape
    by_cases stop : crossing.remaining = 0 ∨ ¬order.accepts level.price
    · rw [if_pos stop] at next
      refine ⟨crossing, cross_exhausted next, ?_⟩
      simp only [sweepLevels, stop, if_true]
      exact Crossed.refl rep shape
    · rw [if_neg stop] at next
      have listed : level ∈ view order.side.opposite := by simp [shape]
      obtain ⟨middle, ran, crossed⟩ := matchLevel_spec timestamp rep apart shape
        (proper _ level listed) (rep.queue_length_le listed)
      have left := crossed.remaining
      rw [cross_step next (rep.level_head split) ran]
      simp only [sweepLevels, stop, if_false]
      rw [← left]
      by_cases exhausted : middle.remaining = 0
      · refine ⟨middle, cross_exhausted (by simp [nextLevel, exhausted]), ?_⟩
        rw [exhausted, sweepLevels_zero, List.append_nil]
        exact crossed
      · have emptied := fillEach_emptied crossing.remaining level.orders (left ▸ exhausted)
        rw [emptied] at crossed ⊢
        have stays := update_emptied view order.side.opposite level rest
        have apart' : NoOverlap (update view order.side.opposite
            ([] ++ pruned { level with orders := [] } ++ rest)) := apart.replaced split
        have proper' : Proper (update view order.side.opposite
            ([] ++ pruned { level with orders := [] } ++ rest)) := proper.replaced split
        obtain ⟨last, ran', crossed'⟩ := ih crossed.rep apart' proper' stays
          (by simp at fits; omega)
        refine ⟨last, ran', ?_⟩
        have both := crossed.trans crossed'
        simpa [pruned] using both

end Crossing

end FluxTrade
