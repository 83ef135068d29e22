import FluxTrade.Matching.EngineRun

/-!
# Matching under any self-trade rule

The engine ships a rule that allows every trade. Under another rule the inner
loop skips the orders that the rule refuses, and they stay where they are. The
outer loop then enters the best level again. A pass over a level in which every
order is refused changes nothing, so the loop never ends. A pass that makes a
match exhausts the incoming order or removes an order from the book.
-/

namespace FluxTrade

open Execution LinkedList Function EngineRun Crossing

namespace Crossing

/-- What a part of the crossing loops does under a self-trade rule. -/
structure Passes (allow : Order → LiveOrder → Bool) (order : Order) (before after : Crossing)
    (view view' : BookView) (calls : List MatchCall) : Prop where
  log : after.calls = before.calls ++ calls
  allowed : ∀ call ∈ calls, allow order call.record.resting = true
  rep : BookRep after.book view'
  apart : NoOverlap view'
  proper : Proper view'
  own : view' order.side = view order.side
  kept : ∀ entry ∈ restingOrders (view order.side.opposite),
    (∀ call ∈ calls, call.maker ≠ entry.slot) →
      entry ∈ restingOrders (view' order.side.opposite)
  removed : after.remaining ≠ 0 → (restingOrders (view' order.side.opposite)).length +
    calls.length = (restingOrders (view order.side.opposite)).length
  spent : before.remaining = 0 → after = before
  idle : calls = [] → after = before

namespace Passes

variable {allow : Order → LiveOrder → Bool} {order : Order} {first second third : Crossing}
  {view view' view'' : BookView} {near far : List MatchCall}

/-- No match. -/
theorem refl (rep : BookRep first.book view) (apart : NoOverlap view) (proper : Proper view) :
    Passes allow order first first view view [] where
  log := by simp
  allowed := by simp
  rep := rep
  apart := apart
  proper := proper
  own := rfl
  kept _ member _ := member
  removed _ := rfl
  spent _ := rfl
  idle _ := rfl

/-- Passes in a row. -/
theorem trans (left : Passes allow order first second view view' near)
    (right : Passes allow order second third view' view'' far) :
    Passes allow order first third view view'' (near ++ far) where
  log := by rw [right.log, left.log, List.append_assoc]
  allowed call member := by
    rcases List.mem_append.mp member with old | new
    · exact left.allowed call old
    · exact right.allowed call new
  rep := right.rep
  apart := right.apart
  proper := right.proper
  own := right.own.trans left.own
  kept entry member untraded := by
    refine right.kept entry (left.kept entry member fun call old => ?_) fun call new => ?_
    · exact untraded call (List.mem_append_left _ old)
    · exact untraded call (List.mem_append_right _ new)
  removed open' := by
    have middle : second.remaining ≠ 0 := fun zero => open' (right.spent zero ▸ zero)
    have before := left.removed middle
    have after := right.removed open'
    rw [List.length_append]
    omega
  spent zero := by
    have same := left.spent zero
    rw [right.spent (same ▸ zero), same]
  idle none' := by
    obtain ⟨noNear, noFar⟩ := List.append_eq_nil_iff.mp none'
    rw [right.idle noFar, left.idle noNear]

end Passes

/-! ## One level -/

section Level

variable {allow : Order → LiveOrder → Bool} {order : Order} {crossing : Crossing}
  {view : BookView} {level : LevelView} {back : List LevelView} {maker : OrderView}
  {ahead tail : List OrderView}

/-- One match. -/
theorem matchOne_passes (timestamp : UInt64) (rep : BookRep crossing.book view)
    (apart : NoOverlap view) (proper : Proper view)
    (split : view order.side.opposite = level :: back)
    (queued : level.orders = ahead ++ maker :: tail) (some' : crossing.remaining ≠ 0)
    (allowed : allow order (crossing.book.order maker.slot) = true) :
    ∃ middle call kept, crossing.matchOne order timestamp level.slot maker.slot = .ok middle ∧
      Passes allow order crossing middle view (update view order.side.opposite
        (pruned { level with orders := ahead ++ (kept ++ tail) } ++ back)) [call] := by
  obtain ⟨middle, matched, crossed⟩ := matchOne_at timestamp rep apart split queued
  have split' : view order.side.opposite = [] ++ level :: back := split
  let qty := matchQty crossing.remaining maker.remainingQty
  let call : MatchCall :=
    ⟨crossing.matchOf timestamp level.slot maker.slot, maker.slot, crossing.book⟩
  have logged : middle.calls = crossing.calls ++ [call] := by
    obtain ⟨book, _, recorded⟩ := bind_eq_ok matched
    cases recorded
    rfl
  refine ⟨middle, call, reduced maker qty, matched, ?_⟩
  exact
    { log := logged
      allowed := by simpa [call, matchOf] using allowed
      rep := crossed.rep
      apart := apart.replaced split'
      proper := proper.replaced split'
      own := update_of_ne order.side.opposite_ne.symm _ _
      kept := by
        intro entry member untraded
        rw [split, restingOrders_cons, queued] at member
        rw [update_self, restingOrders_append, restingOrders_pruned]
        have other : entry ≠ maker := fun same => untraded _ List.mem_cons_self (by rw [same])
        simp only [List.mem_append, List.mem_cons, other, false_or] at member ⊢
        tauto
      removed := by
        intro open'
        have left := crossed.remaining
        simp only [leftAfter_cons, leftAfter_nil] at left
        have whole : maker.remainingQty = qty :=
          (matchQty_exhausts _ _).resolve_left (left ▸ open')
        have gone : reduced maker qty = [] := if_pos whole
        rw [update_self, restingOrders_append, restingOrders_pruned, split,
          restingOrders_cons, queued, gone]
        simp only [List.length_append, List.length_cons, List.length_nil]
        omega
      spent := fun zero => absurd zero some'
      idle := fun none' => by cases none' }

/-- The inner loop skips an order that the rule refuses. -/
theorem matchLevel_skip {timestamp : UInt64} {slot fuel resting : Nat} {next : Option Nat}
    (some' : crossing.remaining ≠ 0) (saved : (crossing.book.order resting).next = next)
    (refused : allow order (crossing.book.order resting) = false) :
    matchLevel allow order timestamp slot (fuel + 1) (some resting) crossing =
      matchLevel allow order timestamp slot fuel next crossing := by
  simp only [matchLevel, some', if_false, refused, Bool.false_eq_true, saved]

/-- The inner loop, from any order on, makes a match exactly if the rule allows an order to come. -/
theorem matchLevel_passes (timestamp : UInt64) {fuel : Nat} {rest : List OrderView}
    (rep : BookRep crossing.book view) (apart : NoOverlap view) (proper : Proper view)
    (split : view order.side.opposite = level :: back) (queued : level.orders = ahead ++ rest)
    (fits : rest.length ≤ fuel) :
    ∃ after view' calls, matchLevel allow order timestamp level.slot fuel
        (queueSlots rest).head? crossing = .ok after ∧
      Passes allow order crossing after view view' calls ∧
      (crossing.remaining ≠ 0 →
        ((∃ entry ∈ rest, allow order (crossing.book.order entry.slot) = true) ↔ calls ≠ [])) := by
  -- Induction on the orders still to come; those already passed stay ahead of them.
  induction rest generalizing crossing view level ahead fuel with
  | nil =>
    refine ⟨crossing, view, [], by cases fuel <;> rfl, .refl rep apart proper, fun _ => ?_⟩
    simp
  | cons maker tail ih =>
    obtain ⟨fuel, rfl⟩ : ∃ n, fuel = n + 1 := ⟨fuel - 1, by simp at fits; omega⟩
    have room : tail.length ≤ fuel := Nat.le_of_succ_le_succ fits
    have split' : view order.side.opposite = [] ++ level :: back := split
    have next := rep.order_next split' queued
    have first : (queueSlots (maker :: tail)).head? = some maker.slot := rfl
    by_cases zero : crossing.remaining = 0
    · exact ⟨crossing, view, [], matchLevel_exhausted zero, .refl rep apart proper,
        fun some' => absurd zero some'⟩
    · cases allowed : allow order (crossing.book.order maker.slot) with
      | false =>
        have queued' : level.orders = (ahead ++ [maker]) ++ tail := by simp [queued]
        obtain ⟨after, view', calls, ran, passes, matches'⟩ :=
          ih rep apart proper split queued' room
        refine ⟨after, view', calls, ?_, passes, fun some' => ?_⟩
        · rw [first, matchLevel_skip zero next allowed, ran]
        · simpa [allowed] using matches' some'
      | true =>
        obtain ⟨middle, call, kept, matched, passes⟩ :=
          matchOne_passes timestamp rep apart proper split queued zero allowed
        rw [first, matchLevel_step zero next allowed matched]
        cases tail with
        | nil =>
          exact ⟨middle, _, [call], by cases fuel <;> rfl, passes, fun _ => by simp [allowed]⟩
        | cons successor later =>
          have nonempty : ahead ++ (kept ++ successor :: later) ≠ [] := by simp
          have stays := update_shortened view order.side.opposite level nonempty back
          obtain ⟨after, view', calls, ran, passes', _⟩ := ih passes.rep passes.apart
            passes.proper stays (List.append_assoc ..).symm room
          exact ⟨after, view', [call] ++ calls, ran, passes.trans passes',
            fun _ => by simp [allowed]⟩

end Level

/-! ## The outer loop -/

/-- The variables of the outer loop each time its condition is tested. -/
inductive Reaches (allow : Order → LiveOrder → Bool) (order : Order) (timestamp : UInt64) :
    Crossing → Crossing → Prop where
  | here (crossing : Crossing) : Reaches allow order timestamp crossing crossing
  | pass {crossing next last : Crossing} {level : Nat}
      (enters : crossing.nextLevel order = some level)
      (ran : matchLevel allow order timestamp level orderCapacity
        (crossing.book.level level).orders.head crossing = .ok next)
      (later : Reaches allow order timestamp next last) :
      Reaches allow order timestamp crossing last

/-- Every level that the outer loop enters holds an order that the rule allows. -/
def OpenLevels (allow : Order → LiveOrder → Bool) (order : Order) (timestamp : UInt64)
    (start : Crossing) : Prop :=
  ∀ crossing, Reaches allow order timestamp start crossing →
    ∀ level, crossing.nextLevel order = some level →
      ∃ entry ∈ crossing.book.queueOf level,
        allow order (crossing.book.order entry.slot) = true

section Loop

variable {allow : Order → LiveOrder → Bool} {order : Order} {crossing : Crossing}
  {view : BookView} {timestamp : UInt64}

/-- The level entered. -/
theorem exists_level (rep : BookRep crossing.book view) {slot : Nat}
    (enters : crossing.nextLevel order = some slot) :
    ∃ level back, view order.side.opposite = level :: back ∧ level.slot = slot ∧
      crossing.remaining ≠ 0 := by
  cases shape : view order.side.opposite with
  | nil =>
    rw [nextLevel_none rep shape] at enters
    cases enters
  | cons level back =>
    rw [nextLevel_eq rep shape] at enters
    split at enters
    · cases enters
    · rename_i goes
      exact ⟨level, back, rfl, Option.some.inj enters, fun zero => goes (Or.inl zero)⟩

/-- One pass of the outer loop. -/
theorem pass_spec (rep : BookRep crossing.book view) (apart : NoOverlap view)
    (proper : Proper view) {slot : Nat} (enters : crossing.nextLevel order = some slot) :
    ∃ after view' calls, matchLevel allow order timestamp slot orderCapacity
        (crossing.book.level slot).orders.head crossing = .ok after ∧
      Passes allow order crossing after view view' calls ∧
      ((∃ entry ∈ crossing.book.queueOf slot,
        allow order (crossing.book.order entry.slot) = true) ↔ calls ≠ []) := by
  obtain ⟨level, back, split, rfl, some'⟩ := exists_level rep enters
  have listed : level ∈ view order.side.opposite := by simp [split]
  have split' : view order.side.opposite = [] ++ level :: back := split
  obtain ⟨after, view', calls, ran, passes, matches'⟩ := @matchLevel_passes allow order crossing
    view level back [] timestamp orderCapacity level.orders rep apart proper split rfl
    (rep.queue_length_le listed)
  rw [← rep.level_head split'] at ran
  refine ⟨after, view', calls, ran, passes, ?_⟩
  rw [rep.queueOf_eq listed]
  exact matches' some'

/-- The outer loop returns or goes on without end, and raises no other fault. -/
theorem cross_passes (fuel : Nat) (rep : BookRep crossing.book view) (apart : NoOverlap view)
    (proper : Proper view) :
    (∃ after view' calls, cross allow order timestamp fuel crossing = .ok after ∧
      Passes allow order crossing after view view' calls) ∨
    cross allow order timestamp fuel crossing = .error .outOfFuel := by
  induction fuel generalizing crossing view with
  | zero =>
    cases enters : crossing.nextLevel order with
    | none => exact Or.inl ⟨crossing, view, [], cross_exhausted enters, .refl rep apart proper⟩
    | some slot => exact Or.inr (by simp only [cross, enters])
  | succ fuel ih =>
    cases enters : crossing.nextLevel order with
    | none => exact Or.inl ⟨crossing, view, [], cross_exhausted enters, .refl rep apart proper⟩
    | some slot =>
      obtain ⟨middle, view', calls, ran, passes, _⟩ := @pass_spec allow order crossing view
        timestamp rep apart proper slot enters
      rw [cross_step enters rfl ran]
      rcases ih passes.rep passes.apart passes.proper with
        ⟨after, view'', later, returned, passes'⟩ | endless
      · exact Or.inl ⟨after, view'', calls ++ later, returned, passes.trans passes'⟩
      · exact Or.inr endless

/-- A pass that leaves the variables as they were is repeated for ever. -/
theorem cross_stuck {slot : Nat} (enters : crossing.nextLevel order = some slot)
    (ran : matchLevel allow order timestamp slot orderCapacity
      (crossing.book.level slot).orders.head crossing = .ok crossing) (fuel : Nat) :
    cross allow order timestamp fuel crossing = .error .outOfFuel := by
  induction fuel with
  | zero => simp only [cross, enters]
  | succ fuel ih => rw [cross_step enters rfl ran, ih]

/-- A level whose orders the rule refuses keeps the loop in it. -/
theorem cross_refused (rep : BookRep crossing.book view) (apart : NoOverlap view)
    (proper : Proper view) {slot : Nat} (enters : crossing.nextLevel order = some slot)
    (refused : ¬∃ entry ∈ crossing.book.queueOf slot,
      allow order (crossing.book.order entry.slot) = true) (fuel : Nat) :
    cross allow order timestamp fuel crossing = .error .outOfFuel := by
  obtain ⟨after, _, calls, ran, passes, matches'⟩ := @pass_spec allow order crossing view
    timestamp rep apart proper slot enters
  have none' : calls = [] := by
    by_contra some'
    exact refused (matches'.mpr some')
  rw [passes.idle none'] at ran
  exact cross_stuck enters ran fuel

/-- Where the loop returns it returns from everywhere it comes to. -/
theorem Reaches.returns {last : Crossing} (reaches : Reaches allow order timestamp crossing last)
    {fuel : Nat} {after : Crossing}
    (returned : cross allow order timestamp fuel crossing = .ok after)
    (rep : BookRep crossing.book view) (apart : NoOverlap view) (proper : Proper view) :
    ∃ fuel view', cross allow order timestamp fuel last = .ok after ∧ BookRep last.book view' ∧
      NoOverlap view' ∧ Proper view' := by
  induction reaches generalizing fuel view with
  | here => exact ⟨fuel, view, returned, rep, apart, proper⟩
  | pass enters ran _ ih =>
    obtain ⟨middle, view', _, ran', passes, _⟩ := @pass_spec allow order _ view timestamp rep
      apart proper _ enters
    cases ran.symm.trans ran'
    cases fuel with
    | zero =>
      simp only [cross, enters] at returned
      cases returned
    | succ fuel =>
      rw [cross_step enters rfl ran] at returned
      exact ih returned passes.rep passes.apart passes.proper

/-- The outer loop returns exactly if every level it enters is open to the order. -/
theorem cross_returns_iff (rep : BookRep crossing.book view) (apart : NoOverlap view)
    (proper : Proper view) :
    (∃ fuel after, cross allow order timestamp fuel crossing = .ok after) ↔
      OpenLevels allow order timestamp crossing := by
  constructor
  · rintro ⟨fuel, after, returned⟩ last reaches slot enters
    obtain ⟨fuel, view', returned, rep, apart, proper⟩ :=
      reaches.returns returned rep apart proper
    by_contra refused
    rw [cross_refused rep apart proper enters refused] at returned
    cases returned
  · intro isOpen
    -- Every pass that leaves some of the order removes an order from the opposite side.
    induction size : (restingOrders (view order.side.opposite)).length using Nat.strong_induction_on
      generalizing crossing view with
    | _ size ih =>
      cases enters : crossing.nextLevel order with
      | none => exact ⟨0, crossing, cross_exhausted enters⟩
      | some slot =>
        obtain ⟨middle, view', calls, ran, passes, matches'⟩ := @pass_spec allow order crossing
          view timestamp rep apart proper slot enters
        have made := matches'.mp (isOpen crossing (.here crossing) slot enters)
        by_cases exhausted : middle.remaining = 0
        · have ended : middle.nextLevel order = none := by simp [nextLevel, exhausted]
          refine ⟨1, middle, ?_⟩
          rw [cross_step enters rfl ran, cross_exhausted ended]
        · have fewer := passes.removed exhausted
          have some' := List.length_pos_iff.mpr made
          obtain ⟨fuel, after, returned⟩ := ih _ (by omega) passes.rep passes.apart passes.proper
            (fun last reaches => isOpen last (.pass enters ran reaches)) rfl
          refine ⟨fuel + 1, after, ?_⟩
          rw [cross_step enters rfl ran, returned]

end Loop

end Crossing

/-! ## Submissions -/

open MatchingEngine

/-- A submission under a self-trade rule returns. It trades only with orders that the rule allows
when it comes to them, and an order that it does not trade with keeps its place. -/
structure HonoursRule (allow : Order → LiveOrder → Bool) (engine : MatchingEngine) (order : Order)
    (ctx : ExecutionContext) (clock : ClockReadings) : Prop where
  returns : ∃ fuel, submitOrderWith allow fuel engine order ctx clock ≠ .error .outOfFuel
  allowed : ∀ fuel submission,
    submitOrderWith allow fuel engine order ctx clock = .ok submission →
      ∀ call ∈ submission.calls, allow order call.record.resting = true
  kept : ∀ fuel submission,
    submitOrderWith allow fuel engine order ctx clock = .ok submission →
      ∀ entry ∈ restingBoth engine.book.levelsOf,
        (∀ call ∈ submission.calls, call.maker ≠ entry.slot) →
          entry ∈ restingBoth submission.engine.book.levelsOf

section Submissions

variable {allow : Order → LiveOrder → Bool} {engine : MatchingEngine} {order : Order}
  {ctx : ExecutionContext} {clock : ClockReadings} {fuel : Nat}

/-- A submission gives up exactly where its loops do. -/
theorem submitOrderWith_outOfFuel (sane : Sane engine.book engine.book.levelsOf) :
    submitOrderWith allow fuel engine order ctx clock = .error .outOfFuel ↔
      ¬∃ after, cross allow order clock.now fuel
        (engine.beginSubmit order ctx clock.now) = .ok after := by
  have rep : BookRep (engine.beginSubmit order ctx clock.now).book engine.book.levelsOf := sane.rep
  rcases @cross_passes allow order _ _ clock.now fuel rep sane.uncrossed.noOverlap
    sane.proper with ⟨after, view', _, returned, passes⟩ | endless
  · refine iff_of_false ?_ (not_not.mpr ⟨after, returned⟩)
    simp only [submitOrderWith, returned, bind, Except.bind]
    rcases settle_spec passes.rep order clock.now with ⟨_, _, _, settled, _⟩ | ⟨full, _⟩
    · simp [settled]
    · simp [full]
  · refine iff_of_true ?_ ?_
    · simp only [submitOrderWith, endless, bind, Except.bind]
    · rintro ⟨after, returned⟩
      rw [endless] at returned
      cases returned

/-- Coming to rest removes nothing. -/
theorem Remainder.mem_restingBoth {crossing : Crossing} {view view' : BookView}
    {book : LimitOrderBook} (rep : BookRep crossing.book view)
    (remainder : Remainder order crossing view book view') {entry : OrderView}
    (member : entry ∈ restingBoth view) : entry ∈ restingBoth book.levelsOf := by
  cases remainder with
  | rests _ _ placed _ =>
    rw [← placed.view_eq, mem_restingBoth_sides order.side, update_self,
      update_of_ne order.side.opposite_ne,
      (placeOrder_perm (rep.sides order.side).sorted).mem_iff]
    exact ((mem_restingBoth_sides order.side).mp member).imp (List.mem_cons_of_mem _) id
  | leaves _ =>
    rw [← rep.view_eq]
    exact member

/-- What a submission that returns does to the book. -/
theorem submitOrderWith_passes (sane : Sane engine.book engine.book.levelsOf)
    {submission : Submission}
    (submitted : submitOrderWith allow fuel engine order ctx clock = .ok submission) :
    (∀ call ∈ submission.calls, allow order call.record.resting = true) ∧
      ∀ entry ∈ restingBoth engine.book.levelsOf,
        (∀ call ∈ submission.calls, call.maker ≠ entry.slot) →
          entry ∈ restingBoth submission.engine.book.levelsOf := by
  obtain ⟨crossing, crossed, rest⟩ := bind_eq_ok submitted
  obtain ⟨⟨settled, status⟩, settles, outcome⟩ := bind_eq_ok rest
  cases outcome
  have rep : BookRep (engine.beginSubmit order ctx clock.now).book engine.book.levelsOf := sane.rep
  rcases @cross_passes allow order _ _ clock.now fuel rep sane.uncrossed.noOverlap
    sane.proper with ⟨after, view', calls, returned, passes⟩ | endless
  · cases crossed.symm.trans returned
    have same : crossing.calls = calls := passes.log
    rcases settle_spec passes.rep order clock.now with
      ⟨_, _, view'', settled', remainder, _, logged, _⟩ | ⟨full, _⟩
    · cases settles.symm.trans settled'
      refine ⟨?_, fun entry member untraded => remainder.mem_restingBoth passes.rep ?_⟩
      · rw [logged, same]
        exact passes.allowed
      · rw [logged, same] at untraded
        rw [mem_restingBoth_sides order.side] at member ⊢
        rcases member with own | far
        · exact Or.inl (passes.own.symm ▸ own)
        · exact Or.inr (passes.kept entry far untraded)
    · rw [full] at settles
      cases settles
  · rw [endless] at crossed
    cases crossed

/-- A submission honours a self-trade rule exactly if every level that its loop enters, each time
it is entered, holds an order that the rule allows. -/
theorem honoursRule_iff_openLevels (allow : Order → LiveOrder → Bool) (order : Order)
    (ctx : ExecutionContext) (clock : ClockReadings)
    (sane : Sane engine.book engine.book.levelsOf) :
    HonoursRule allow engine order ctx clock ↔
      OpenLevels allow order clock.now (engine.beginSubmit order ctx clock.now) := by
  have rep : BookRep (engine.beginSubmit order ctx clock.now).book engine.book.levelsOf := sane.rep
  rw [← cross_returns_iff rep sane.uncrossed.noOverlap sane.proper]
  constructor
  · intro honours
    obtain ⟨fuel, returns⟩ := honours.returns
    rw [ne_eq, submitOrderWith_outOfFuel sane, not_not] at returns
    exact ⟨fuel, returns⟩
  · rintro ⟨fuel, returned⟩
    exact
      { returns := ⟨fuel, fun gaveUp => (submitOrderWith_outOfFuel sane).mp gaveUp returned⟩
        allowed := fun _ _ submitted => (submitOrderWith_passes sane submitted).1
        kept := fun _ _ submitted => (submitOrderWith_passes sane submitted).2 }

end Submissions

/-- A rule that refuses order 1. -/
def refusesFirst (_aggressive : Order) (resting : LiveOrder) : Bool := resting.key.orderId ≠ 1

/-- A buy order that order 2 fills passes over order 1. -/
theorem honoursRule_iff_openLevels_skipped :
    ∃ run, runAll step (start none)
        [submitInput (limitOrder 1 .sell 100 5), submitInput (limitOrder 2 .sell 100 5)] =
          .ok run ∧
      HonoursRule refusesFirst run.engine (limitOrder 3 .buy 100 3) .empty ⟨0, 0, 0⟩ := by
  let order := limitOrder 3 .buy 100 3
  have facts : ∃ run, runAll step (start none)
        [submitInput (limitOrder 1 .sell 100 5), submitInput (limitOrder 2 .sell 100 5)] =
          .ok run ∧
      ∀ level ∈ (run.engine.beginSubmit order .empty 0).nextLevel order,
        (∃ entry ∈ run.engine.book.queueOf level,
          refusesFirst order (run.engine.book.order entry.slot) = true) ∧
        Returns (fun next : Crossing => next.nextLevel order = none)
          (matchLevel refusesFirst order 0 level orderCapacity
            (run.engine.book.level level).orders.head
            (run.engine.beginSubmit order .empty 0)) :=
    Returns.exists (by decide +kernel)
  obtain ⟨run, ran, facts⟩ := facts
  have sane := (Invariant.of_run ran).sane
  refine ⟨run, ran, (honoursRule_iff_openLevels _ _ _ _ sane).mpr ?_⟩
  intro crossing reaches level enters
  cases reaches with
  | here => exact (facts level enters).1
  | pass entered passed later =>
    have ended := (facts _ entered).2
    have began : Returns (fun next : Crossing => next.nextLevel order = none) (.ok _) :=
      passed ▸ ended
    cases later with
    | here =>
      rw [show crossing.nextLevel _ = none from began] at enters
      cases enters
    | pass again _ _ =>
      rw [show nextLevel _ _ = none from began] at again
      cases again

/-- Against order 1 alone, the loop has no end. -/
theorem refused_never_returns :
    ∃ run, runAll step (start none)
        [submitInput (limitOrder 1 .sell 100 5)] = .ok run ∧
      ∀ fuel, submitOrderWith refusesFirst fuel run.engine (limitOrder 2 .buy 100 5) .empty
        ⟨0, 0, 0⟩ = .error .outOfFuel := by
  let order := limitOrder 2 .buy 100 5
  have facts : ∃ run, runAll step (start none)
        [submitInput (limitOrder 1 .sell 100 5)] = .ok run ∧
      ((run.engine.beginSubmit order .empty 0).nextLevel order).isSome ∧
      ∀ level ∈ (run.engine.beginSubmit order .empty 0).nextLevel order,
        ¬∃ entry ∈ run.engine.book.queueOf level,
          refusesFirst order (run.engine.book.order entry.slot) = true :=
    Returns.exists (by decide +kernel)
  obtain ⟨run, ran, entered, refused⟩ := facts
  obtain ⟨level, enters⟩ := Option.isSome_iff_exists.mp entered
  have sane := (Invariant.of_run ran).sane
  refine ⟨run, ran, fun fuel => (submitOrderWith_outOfFuel sane).mpr ?_⟩
  rintro ⟨after, returned⟩
  have endless := @cross_refused refusesFirst order _ _ 0 sane.rep
    sane.uncrossed.noOverlap sane.proper _ enters (refused level enters) fuel
  cases endless.symm.trans returned

end FluxTrade
