import FluxTrade.Library.SlidingWindow
import FluxTrade.Risk.RiskEngine

/-!
# The rate limit

A tracker keeps the timestamps of the last hundred accepted calls in a ring and
a count that stops growing at the limits it has met. For limits up to the size
of the ring the check is a sliding window over all accepted calls, also when the
limit changes from call to call. For larger limits it looks at a timestamp that
has nothing to do with the window.
-/

namespace FluxTrade

open SlidingWindow Function RateTracker RateLimitValidator List

/-- The window of the check: one second, in nanoseconds. -/
def rateSpan : Nat := 1000000000

/-- `RateLimitValidator::reset`. -/
def RateLimitValidator.reset : RateLimitValidator := ⟨fun _ => ⟨fun _ => 0, 0, 0⟩⟩

/-- A call of `check_rate`. -/
structure RateCall where
  accountId : AccountId
  now : UInt64
  limit : UInt32
  deriving DecidableEq

/-- The tracker that a call uses. -/
def RateCall.slot (call : RateCall) : Nat := call.accountId.toNat % 1024

/-- A validator with the calls it has accepted, the first one first. -/
structure RateRun where
  validator : RateLimitValidator
  accepted : List RateCall

namespace RateRun

/-- A validator after `reset`. -/
def start : RateRun := ⟨.reset, []⟩

/-- The verdict on a call. -/
def accepts (run : RateRun) (call : RateCall) : Bool :=
  (run.validator.checkRate call.accountId call.now call.limit).1

/-- One call of `check_rate`. -/
def step (run : RateRun) (call : RateCall) : RateRun where
  validator := (run.validator.checkRate call.accountId call.now call.limit).2
  accepted := if run.accepts call then run.accepted ++ [call] else run.accepted

/-- The run of some calls. -/
def after (calls : List RateCall) : RateRun := calls.foldl step start

/-- The timestamps of the accepted calls of a slot. -/
def times (run : RateRun) (slot : Nat) : List Nat :=
  (run.accepted.filter fun call => call.slot = slot).map fun call => call.now.toNat

end RateRun

/-! ## One tracker -/

namespace RateTracker

/-- The place of the ring that a full count is compared with. -/
def oldestPlace (tracker : RateTracker) (limit : UInt32) : Nat :=
  ((tracker.index + 100 - limit.toUInt64) % 100).toNat

/-- The verdict of the check for a positive limit. -/
def Admits (tracker : RateTracker) (now : UInt64) (limit : UInt32) : Prop :=
  tracker.count < limit.toUInt64 ∨
    ¬now - tracker.timestamps (tracker.oldestPlace limit) < 1000000000
  deriving Decidable

/-- The tracker after an accepted call. -/
def record (tracker : RateTracker) (now : UInt64) (limit : UInt32) : RateTracker where
  timestamps := update tracker.timestamps tracker.index.toNat now
  index := (tracker.index + 1) % 100
  count := if tracker.count < limit.toUInt64 then tracker.count + 1 else tracker.count

end RateTracker

/-- The check works on the tracker of its account. -/
theorem RateLimitValidator.checkRate_eq (validator : RateLimitValidator) (accountId : AccountId)
    (now : UInt64) {limit : UInt32} (positive : limit ≠ 0) :
    validator.checkRate accountId now limit =
      let slot := accountId.toNat % 1024
      let tracker := validator.trackers slot
      (decide (tracker.Admits now limit),
        if tracker.Admits now limit then
          ⟨update validator.trackers slot (tracker.record now limit)⟩
        else validator) := by
  unfold checkRate
  rw [if_neg positive]
  dsimp only
  generalize validator.trackers (accountId.toNat % 1024) = tracker
  by_cases below : tracker.count < limit.toUInt64
  · have admits : tracker.Admits now limit := .inl below
    simp only [below, if_true, admits, decide_true, record]
  · by_cases young : now - tracker.timestamps (tracker.oldestPlace limit) < 1000000000
    · have refuses : ¬tracker.Admits now limit := not_or.mpr ⟨below, not_not.mpr young⟩
      have young' := young
      unfold oldestPlace at young'
      simp only [below, if_false, young', if_true, refuses, decide_false]
    · have admits : tracker.Admits now limit := .inr young
      have old := young
      unfold oldestPlace at old
      simp only [below, if_false, old, if_true, admits, decide_true, record]

/-- The count grows up to the limit. -/
theorem RateTracker.count_record (tracker : RateTracker) (now : UInt64) (limit : UInt32) :
    (tracker.record now limit).count.toNat =
      if tracker.count.toNat < limit.toNat then tracker.count.toNat + 1
      else tracker.count.toNat := by
  have small := limit.toNat_lt
  have count : tracker.count < limit.toUInt64 ↔ tracker.count.toNat < limit.toNat :=
    UInt64.lt_iff_toNat_lt
  unfold record
  dsimp only
  by_cases below : tracker.count.toNat < limit.toNat
  · rw [if_pos (count.mpr below), if_pos below, UInt64.toNat_add]
    exact Nat.mod_eq_of_lt (by change tracker.count.toNat + 1 < 2 ^ 64; omega)
  · rw [if_neg (mt count.mp below), if_neg below]

/-- The ring of a tracker holds the latest accepted timestamps. -/
structure RateTracker.Follows (tracker : RateTracker) (times : List Nat) : Prop where
  index : tracker.index.toNat = times.length % 100
  ring : Holds 100 (fun place => (tracker.timestamps place).toNat) times

namespace RateTracker.Follows

variable {tracker : RateTracker} {times : List Nat}

/-- A new tracker. -/
theorem fresh : Follows ⟨fun _ => 0, 0, 0⟩ [] := ⟨rfl, .nil _ _⟩

/-- A recorded call. -/
theorem record (follows : tracker.Follows times) (now : UInt64) (limit : UInt32) :
    (tracker.record now limit).Follows (times ++ [now.toNat]) where
  index := by
    have before := follows.index
    change ((tracker.index + 1) % 100).toNat = _
    rw [UInt64.toNat_mod, UInt64.toNat_add, length_append, length_singleton, before]
    change (times.length % 100 + 1) % 2 ^ 64 % 100 = _
    omega
  ring := by
    have pushed := follows.ring.push now.toNat
    rw [← follows.index] at pushed
    have same : update (fun place => (tracker.timestamps place).toNat)
        tracker.index.toNat now.toNat =
        fun place => (update tracker.timestamps tracker.index.toNat now place).toNat :=
      (comp_update UInt64.toNat tracker.timestamps tracker.index.toNat now).symm
    rw [same] at pushed
    exact pushed

/-- The place that is looked at, as the unsigned arithmetic has it. -/
theorem oldestPlace_eq (follows : tracker.Follows times) (limit : UInt32) :
    tracker.oldestPlace limit =
      (times.length % 100 + 100 + (2 ^ 64 - limit.toNat)) % 2 ^ 64 % 100 := by
  have small := limit.toNat_lt
  unfold oldestPlace
  rw [UInt64.toNat_mod, UInt64.toNat_sub, UInt64.toNat_add, follows.index]
  change (2 ^ 64 - limit.toNat + (times.length % 100 + 100) % 2 ^ 64) % 2 ^ 64 % 100 = _
  omega

/-- An accepted call that is at least as old as the span is seen to be so. -/
theorem admits_iff (follows : tracker.Follows times) {place : Nat} {now : UInt64} {limit : UInt32}
    {oldest : Nat} (found : times[place]? = some oldest) (latest : times.length ≤ place + 100)
    (looked : tracker.oldestPlace limit = place % 100) (past : oldest ≤ now.toNat) :
    tracker.Admits now limit ↔
      tracker.count.toNat < limit.toNat ∨ rateSpan ≤ now.toNat - oldest := by
  have stored : (tracker.timestamps (place % 100)).toNat = oldest :=
    follows.ring place oldest found latest
  have count : tracker.count < limit.toUInt64 ↔ tracker.count.toNat < limit.toNat :=
    UInt64.lt_iff_toNat_lt
  have age : now - tracker.timestamps (place % 100) < 1000000000 ↔
      now.toNat - oldest < rateSpan := by
    rw [UInt64.lt_iff_toNat_lt, UInt64.toNat_sub_of_le _ _ (UInt64.le_iff_toNat_le.mpr (by
      rw [stored]
      exact past)), stored]
    rfl
  unfold Admits
  rw [looked, count, age, Nat.not_lt]

end RateTracker.Follows

/-! ## A run -/

namespace RateRun

variable {run : RateRun} {call : RateCall} {slot : Nat}

/-- One call more. -/
theorem after_snoc (calls : List RateCall) (call : RateCall) :
    after (calls ++ [call]) = (after calls).step call :=
  foldl_concat ..

/-- The tracker decides. -/
theorem accepts_iff_admits (positive : call.limit ≠ 0) :
    run.accepts call = true ↔
      (run.validator.trackers call.slot).Admits call.now call.limit := by
  unfold accepts
  rw [checkRate_eq _ _ _ positive]
  exact decide_eq_true_iff

/-- A call of another slot leaves the slot as it is. -/
theorem step_of_ne (other : call.slot ≠ slot) :
    (run.step call).validator.trackers slot = run.validator.trackers slot ∧
      (run.step call).times slot = run.times slot := by
  constructor
  · unfold step
    by_cases zero : call.limit = 0
    · unfold checkRate
      rw [if_pos zero]
    · rw [checkRate_eq _ _ _ zero]
      dsimp only
      split
      · exact update_of_ne other.symm _ _
      · rfl
  · unfold times step
    dsimp only
    split
    · rw [filter_append, filter_singleton, decide_eq_false other, cond_false,
        append_nil]
    · rfl

/-- An accepted call is recorded in its slot. -/
theorem step_of_accepts (positive : call.limit ≠ 0) (accepted : run.accepts call = true) :
    (run.step call).validator.trackers call.slot =
        (run.validator.trackers call.slot).record call.now call.limit ∧
      (run.step call).times call.slot = run.times call.slot ++ [call.now.toNat] := by
  have admits := (accepts_iff_admits positive).mp accepted
  constructor
  · unfold step
    rw [checkRate_eq _ _ _ positive]
    dsimp only
    rw [RateCall.slot] at admits ⊢
    rw [if_pos admits]
    exact update_self ..
  · unfold times step
    rw [if_pos accepted, filter_append, filter_singleton, decide_eq_true rfl, cond_true,
      map_append, map_singleton]

/-- A refused call changes nothing. -/
theorem step_of_refuses (positive : call.limit ≠ 0) (refused : run.accepts call = false) :
    run.step call = run := by
  have refuses : ¬(run.validator.trackers call.slot).Admits call.now call.limit := by
    rw [← accepts_iff_admits positive, refused]
    exact Bool.false_ne_true
  rw [RateCall.slot] at refuses
  unfold step
  rw [refused, checkRate_eq _ _ _ positive]
  simp only [if_neg refuses, Bool.false_eq_true, if_false]

/-- Accepted calls are calls. -/
theorem accepted_sublist (calls : List RateCall) : (after calls).accepted.Sublist calls := by
  induction calls using reverseRecOn with
  | nil => exact .refl []
  | append_singleton calls call ih =>
    rw [after_snoc]
    unfold step
    dsimp only
    split
    · exact ih.append (.refl [call])
    · exact ih.trans (sublist_append_left calls [call])

/-- The calls of a slot come with timestamps that do not decrease. -/
def Ordered (slot : Nat) (calls : List RateCall) : Prop :=
  (calls.filter fun call => call.slot = slot).Pairwise (·.now ≤ ·.now)
  deriving Decidable

/-- Every call of the slot, with the run before it, has the property. -/
def Each (slot : Nat) (calls : List RateCall) (property : RateRun → RateCall → Prop) : Prop :=
  ∀ front call back, calls = front ++ call :: back → call.slot = slot →
    property (after front) call

namespace Ordered

variable {calls : List RateCall}

/-- The first calls are ordered. -/
theorem front {back : List RateCall} (ordered : Ordered slot (calls ++ back)) :
    Ordered slot calls := by
  unfold Ordered at ordered
  rw [filter_append] at ordered
  exact (pairwise_append.mp ordered).1

/-- Accepted times go up. -/
theorem sorted (ordered : Ordered slot calls) : ((after calls).times slot).Pairwise (· ≤ ·) := by
  have accepted := ordered.sublist ((accepted_sublist calls).filter _)
  exact pairwise_map.mpr (accepted.imp UInt64.le_iff_toNat_le.mp)

/-- The accepted calls are no later than the next call. -/
theorem past (ordered : Ordered slot (calls ++ [call])) (own : call.slot = slot) :
    ∀ time ∈ (after calls).times slot, time ≤ call.now.toNat := by
  intro time member
  obtain ⟨earlier, accepted, rfl⟩ := mem_map.mp member
  unfold Ordered at ordered
  rw [filter_append, filter_singleton, decide_eq_true own, cond_true] at ordered
  have listed := ((accepted_sublist calls).filter _).subset accepted
  exact UInt64.le_iff_toNat_le.mp
    ((pairwise_append.mp ordered).2.2 earlier listed call (mem_singleton_self call))

end Ordered

/-- What holds of a fresh tracker, and is kept by the accepted calls of a slot, holds after every
run. -/
theorem after_induction (property : RateTracker → List Nat → Prop) (limited : RateCall → Prop)
    (positive : ∀ call, limited call → call.limit ≠ 0) (fresh : property ⟨fun _ => 0, 0, 0⟩ [])
    (record : ∀ (tracker : RateTracker) (times : List Nat) (call : RateCall), limited call →
      times.Pairwise (· ≤ ·) → (∀ time ∈ times, time ≤ call.now.toNat) →
      property tracker times → tracker.Admits call.now call.limit →
      property (tracker.record call.now call.limit) (times ++ [call.now.toNat]))
    {calls : List RateCall} (ordered : Ordered slot calls)
    (all : ∀ call ∈ calls, call.slot = slot → limited call) :
    property ((after calls).validator.trackers slot) ((after calls).times slot) := by
  induction calls using reverseRecOn with
  | nil => exact fresh
  | append_singleton calls call ih =>
    have before := ih ordered.front fun other member => all other (mem_append_left _ member)
    rw [after_snoc]
    by_cases own : call.slot = slot
    · have bounded := all call (mem_append_right _ (mem_singleton_self call)) own
      have nonzero := positive call bounded
      cases verdict : (after calls).accepts call with
      | false =>
        rw [step_of_refuses nonzero verdict]
        exact before
      | true =>
        subst own
        obtain ⟨tracker, times⟩ := step_of_accepts nonzero verdict
        rw [tracker, times]
        exact record _ _ call bounded ordered.front.sorted (ordered.past rfl) before
          ((accepts_iff_admits nonzero).mp verdict)
    · obtain ⟨tracker, times⟩ := @step_of_ne (after calls) call slot own
      rw [tracker, times]
      exact before

end RateRun

/-! ## Limits up to the size of the ring -/

/-- A limit that the ring can serve. -/
def RateCall.InRing (call : RateCall) : Prop := 1 ≤ call.limit ∧ call.limit ≤ 100
  deriving Decidable

/-- The limit is 1 to 100. -/
theorem RateCall.InRing.bounds {call : RateCall} (inRing : call.InRing) :
    1 ≤ call.limit.toNat ∧ call.limit.toNat ≤ 100 :=
  ⟨UInt32.le_iff_toNat_le.mp inRing.1, UInt32.le_iff_toNat_le.mp inRing.2⟩

/-- The limit is not zero. -/
theorem RateCall.InRing.positive {call : RateCall} (inRing : call.InRing) : call.limit ≠ 0 := by
  intro zero
  have bound := inRing.bounds.1
  rw [zero] at bound
  exact absurd bound (by decide)

/-- The count covers the window, whatever limits it was raised by. -/
structure RateTracker.Windowed (tracker : RateTracker) (times : List Nat) : Prop
    extends tracker.Follows times where
  counted : tracker.count.toNat ≤ times.length
  small : tracker.count.toNat ≤ 100
  covers : ∀ now, (∀ time ∈ times, time ≤ now) → recent rateSpan now times ≤ tracker.count.toNat

namespace RateTracker.Windowed

variable {tracker : RateTracker} {times : List Nat} {call : RateCall}

/-- A new window. -/
theorem fresh : Windowed ⟨fun _ => 0, 0, 0⟩ [] where
  toFollows := .fresh
  counted := Nat.le_refl 0
  small := Nat.zero_le 100
  covers _ _ := Nat.le_refl 0

variable (windowed : tracker.Windowed times) (inRing : call.InRing)
  (sorted : times.Pairwise (· ≤ ·)) (past : ∀ time ∈ times, time ≤ call.now.toNat)
include windowed inRing sorted past

/-- The check of the tracker is the check of the window. -/
theorem admits_iff_recent :
    tracker.Admits call.now call.limit ↔
      recent rateSpan call.now.toNat times < call.limit.toNat := by
  obtain ⟨positive, fits⟩ := inRing.bounds
  have covered := windowed.covers call.now.toNat past
  by_cases below : tracker.count.toNat < call.limit.toNat
  · have admits : tracker.Admits call.now call.limit := .inl (UInt64.lt_iff_toNat_lt.mpr below)
    exact iff_of_true admits (Nat.lt_of_le_of_lt covered below)
  · have enough : call.limit.toNat ≤ times.length :=
      Nat.le_trans (Nat.le_of_not_lt below) windowed.counted
    have inside : times.length - call.limit.toNat < times.length := by omega
    have found := getElem?_eq_getElem inside
    have looked : tracker.oldestPlace call.limit = (times.length - call.limit.toNat) % 100 := by
      rw [windowed.oldestPlace_eq]
      omega
    rw [windowed.admits_iff found (by omega) looked (past _ (getElem_mem inside)),
      recent_lt_iff sorted positive enough found]
    exact or_iff_right below

/-- A recorded call stays in it. -/
theorem record (admits : tracker.Admits call.now call.limit) :
    (tracker.record call.now call.limit).Windowed (times ++ [call.now.toNat]) := by
  have few := (windowed.admits_iff_recent inRing sorted past).mp admits
  have counted := windowed.counted
  have small := windowed.small
  have fits := inRing.bounds.2
  refine ⟨windowed.toFollows.record call.now call.limit, ?_, ?_, ?_⟩
  · rw [count_record, length_append, length_singleton]
    split <;> omega
  · rw [count_record]
    split <;> omega
  · intro now latest
    have order : call.now.toNat ≤ now :=
      latest _ (mem_append_right _ (mem_singleton_self _))
    have fewer := @recent_anti rateSpan call.now.toNat now order times
    have old := windowed.covers now fun time member =>
      latest time (mem_append_left _ member)
    have one : recent rateSpan now [call.now.toNat] ≤ 1 := countP_le_length
    rw [count_record, recent_append]
    split <;> omega

end RateTracker.Windowed

namespace RateRun

variable {slot : Nat} {calls : List RateCall}

/-- Every run is a window. -/
theorem windowed (ordered : Ordered slot calls)
    (inRing : ∀ call ∈ calls, call.slot = slot → call.InRing) :
    ((after calls).validator.trackers slot).Windowed ((after calls).times slot) := by
  refine after_induction Windowed RateCall.InRing (fun _ => RateCall.InRing.positive)
    .fresh ?_ ordered inRing
  intro tracker times call limited sorted past before admits
  exact before.record limited sorted past admits

/-- With one limit throughout, no second has more accepted calls than the limit. -/
theorem within_le {limit : UInt32} (ordered : Ordered slot calls)
    (inRing : ∀ call ∈ calls, call.slot = slot → call.InRing)
    (same : ∀ call ∈ calls, call.slot = slot → call.limit = limit) (stop : Nat) :
    within rateSpan stop ((after calls).times slot) ≤ limit.toNat := by
  have both := after_induction
    (fun tracker times => tracker.Windowed times ∧
      ∀ stop, within rateSpan stop times ≤ limit.toNat)
    (fun call => call.InRing ∧ call.limit = limit) (fun _ limited => limited.1.positive)
    ⟨.fresh, fun _ => Nat.zero_le _⟩
    (by
      intro tracker times call limited sorted past before admits
      have few := (before.1.admits_iff_recent limited.1 sorted past).mp admits
      rw [limited.2] at few
      exact ⟨before.1.record limited.1 sorted past admits, within_append_le before.2 few⟩)
    ordered fun call member own => ⟨inRing call member own, same call member own⟩
  exact both.2 stop

/-- With limits of 1 to 100 that may change, a call of a slot is accepted exactly if fewer calls
than the limit were accepted in the second before it. With one limit throughout, no second has more
accepted calls than the limit. -/
theorem accepts_iff_recent (ordered : Ordered slot calls)
    (inRing : ∀ call ∈ calls, call.slot = slot → call.InRing) :
    Each slot calls (fun run call => run.accepts call = true ↔
        recent rateSpan call.now.toNat (run.times slot) < call.limit.toNat) ∧
      ∀ limit : UInt32, (∀ call ∈ calls, call.slot = slot → call.limit = limit) →
        ∀ stop, within rateSpan stop ((after calls).times slot) ≤ limit.toNat := by
  refine ⟨?_, fun limit same => within_le ordered inRing same⟩
  rintro front call back rfl rfl
  rw [append_cons] at ordered
  have now := inRing call (mem_append_right _ mem_cons_self) rfl
  have before := windowed ordered.front.front fun other member =>
    inRing other (mem_append_left _ member)
  rw [accepts_iff_admits now.positive]
  exact before.admits_iff_recent now ordered.front.front.sorted (ordered.front.past rfl)

/-- A limit of two that is lowered to one: the second call of a second is refused, and after a
second the next one is accepted. -/
theorem accepts_iff_recent_lowered :
    Ordered 7 [⟨7, 0, 2⟩, ⟨8, 5, 0⟩, ⟨7, 10, 1⟩, ⟨7, 1000000000, 1⟩] ∧
      Each 7 [⟨7, 0, 2⟩, ⟨8, 5, 0⟩, ⟨7, 10, 1⟩, ⟨7, 1000000000, 1⟩] (fun run call =>
        run.accepts call = true ↔
          recent rateSpan call.now.toNat (run.times 7) < call.limit.toNat) ∧
      (after [⟨7, 0, 2⟩, ⟨8, 5, 0⟩, ⟨7, 10, 1⟩, ⟨7, 1000000000, 1⟩]).times 7 = [0, 1000000000] :=
  ⟨by decide, (accepts_iff_recent (by decide) (by decide)).1, by decide⟩

end RateRun

/-! ## Larger limits -/

/-- The number of the accepted call that a limit beyond the ring is compared with: of the last
hundred, the one at the place that the wrapped subtraction names. -/
def consulted (count limit : Nat) : Nat :=
  count - 100 +
    ((count % 100 + 100 + (2 ^ 64 - limit)) % 2 ^ 64 % 100 + 100 - count % 100) % 100

/-- Under one limit the count is the number of accepted calls until it reaches the limit. -/
structure RateTracker.Saturates (limit : UInt32) (tracker : RateTracker) (times : List Nat) : Prop
    extends tracker.Follows times where
  counted : tracker.count.toNat = min times.length limit.toNat

/-- Once the limit has been reached, the verdict rests on the consulted call. -/
theorem RateTracker.Saturates.admits_iff_consulted {limit : UInt32} {tracker : RateTracker}
    {times : List Nat} {now : UInt64} (saturates : tracker.Saturates limit times)
    (beyond : 100 < limit.toNat) (past : ∀ time ∈ times, time ≤ now.toNat) :
    tracker.Admits now limit ↔ times.length < limit.toNat ∨
      ∃ oldest ∈ times[consulted times.length limit.toNat]?, rateSpan ≤ now.toNat - oldest := by
  have counted := saturates.counted
  by_cases below : times.length < limit.toNat
  · have spare : tracker.count.toNat < limit.toNat := by omega
    exact iff_of_true (.inl (UInt64.lt_iff_toNat_lt.mpr spare)) (.inl below)
  · have full : ¬tracker.count.toNat < limit.toNat := by omega
    have small := limit.toNat_lt
    have looked := saturates.oldestPlace_eq limit
    generalize place_eq : consulted times.length limit.toNat = place
    unfold consulted at place_eq
    have inside : place < times.length := by omega
    have found := getElem?_eq_getElem inside
    rw [saturates.admits_iff found (by omega) (by omega) (past _ (getElem_mem inside)), found]
    simp only [full, below, false_or, Option.mem_def, Option.some.injEq, exists_eq_left']

namespace RateRun

variable {slot : Nat} {calls : List RateCall}

/-- A call is accepted where fewer calls than its limit were accepted in the second before. -/
def Honours (run : RateRun) (call : RateCall) : Prop :=
  recent rateSpan call.now.toNat (run.times call.slot) < call.limit.toNat → run.accepts call = true

/-- Where fewer calls than the limit were accepted in the second before, fewer were accepted at
all, or the consulted one is a second old. -/
def Consults (run : RateRun) (call : RateCall) : Prop :=
  recent rateSpan call.now.toNat (run.times call.slot) < call.limit.toNat →
    (run.times call.slot).length < call.limit.toNat ∨
      ∃ oldest ∈ (run.times call.slot)[consulted (run.times call.slot).length call.limit.toNat]?,
        rateSpan ≤ call.now.toNat - oldest

/-- One limit is reached and kept. -/
theorem saturates {limit : UInt32} (positive : limit ≠ 0) (ordered : Ordered slot calls)
    (same : ∀ call ∈ calls, call.slot = slot → call.limit = limit) :
    ((after calls).validator.trackers slot).Saturates limit ((after calls).times slot) := by
  refine after_induction (Saturates limit) (fun call => call.limit = limit) ?_ ?_ ?_
    ordered same
  · intro call limited
    rw [limited]
    exact positive
  · exact ⟨.fresh, (Nat.zero_min _).symm⟩
  · intro tracker times call limited _ _ before _
    refine ⟨before.toFollows.record call.now call.limit, ?_⟩
    rw [limited, count_record, before.counted, length_append,
      length_singleton]
    split <;> omega

/-- For a limit beyond the ring, the calls of a slot are honoured exactly if each finds the
consulted call old enough once the limit has been reached. -/
theorem honours_iff_consults {limit : UInt32} (large : 100 < limit) (ordered : Ordered slot calls)
    (same : ∀ call ∈ calls, call.slot = slot → call.limit = limit) :
    Each slot calls Honours ↔ Each slot calls Consults := by
  have beyond : 100 < limit.toNat := UInt32.lt_iff_toNat_lt.mp large
  have below := limit.toNat_lt
  have positive : limit ≠ 0 := by
    rintro rfl
    exact absurd large (by decide)
  refine forall_congr' fun front => forall_congr' fun call => forall_congr' fun back =>
    forall_congr' fun split => forall_congr' fun own => ?_
  subst split own
  rw [append_cons] at ordered
  have limited := same call (mem_append_right _ mem_cons_self) rfl
  have before := saturates positive ordered.front.front fun other member =>
    same other (mem_append_left _ member)
  unfold Honours Consults
  rw [accepts_iff_admits (limited ▸ positive), limited,
    before.admits_iff_consulted beyond (ordered.front.past rfl)]

/-- No more calls are accepted than are made. -/
theorem length_times_le (calls : List RateCall) (slot : Nat) :
    ((after calls).times slot).length ≤ calls.length := by
  unfold times
  rw [length_map]
  exact (length_filter_le _ _).trans (accepted_sublist calls).length_le

/-- A hundred calls at once and one five seconds later, under a limit of 101. -/
def hundredAndOne : List RateCall :=
  replicate 100 ⟨0, 0, 101⟩ ++ [⟨0, 5000000000, 101⟩]

/-- The limit of 101 has been reached, and a call one second after the last one consults it and
is accepted, so all 102 calls are honoured. -/
theorem honours_iff_consults_waited :
    ((after hundredAndOne).times 0).length = 101 ∧
      (after hundredAndOne).accepts ⟨0, 6000000000, 101⟩ = true ∧
      Each 0 (hundredAndOne ++ [⟨0, 6000000000, 101⟩]) Honours := by
  refine ⟨by decide +kernel, by decide +kernel, ?_⟩
  refine (@honours_iff_consults 0 _ 101 (by decide) (by decide +kernel) (by decide +kernel)).mpr ?_
  intro front call back split _
  rcases eq_nil_or_concat back with rfl | ⟨middle, last, rfl⟩
  · -- The last call comes after 101 accepted ones.
    obtain ⟨rfl, same⟩ := append_inj' split rfl
    cases same
    intro _
    exact .inr ⟨5000000000, by decide +kernel, by decide⟩
  · -- Before every other call fewer than 101 have been made.
    have limited : call.limit = 101 := by
      have every : ∀ other ∈ hundredAndOne ++ [⟨0, 6000000000, 101⟩], other.limit = 101 := by
        decide +kernel
      apply every
      rw [split]
      exact mem_append_right _ mem_cons_self
    have whole := congrArg length split
    simp only [hundredAndOne, length_append, length_replicate, length_cons,
      length_nil, length_concat] at whole
    have made := length_times_le front call.slot
    intro _
    rw [limited]
    exact .inl (show _ < 101 by omega)

/-- The next call is refused with one accepted call in the second before it, and a limit of
101. -/
theorem not_honours_hundredAndOne :
    Ordered 0 (hundredAndOne ++ [⟨0, 5000000001, 101⟩]) ∧
      recent rateSpan 5000000001 ((after hundredAndOne).times 0) = 1 ∧
      ¬(after hundredAndOne).Honours ⟨0, 5000000001, 101⟩ := by
  have few : recent rateSpan 5000000001 ((after hundredAndOne).times 0) = 1 := by decide +kernel
  refine ⟨by decide +kernel, few, ?_⟩
  intro honours
  have accepted := honours (by decide +kernel)
  exact absurd accepted (by decide +kernel)

end RateRun

end FluxTrade
