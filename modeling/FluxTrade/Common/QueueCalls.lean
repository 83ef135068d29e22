import FluxTrade.Common.MpscQueue
import FluxTrade.Common.SpscQueue

/-!
# Whole calls on the queues

A single thread calls `push` and `pop` on a queue, one call after the other. The
single-producer queue finds out by the distance of its counters whether it is full
or empty, the multi-producer queue by the numbers of its cells. With two cells or
more both answer as a bounded first-in first-out queue. With one cell the number
of an occupied cell is also that of a free cell in the next lap: a push onto the
full queue overwrites the value, and the next pop does not return.
-/

namespace FluxTrade

open Execution Words Function MPSCQueue Machine List

/-- A call, with the number of times that its compare-exchange, where it has one, fails for no
reason. -/
inductive QueueCall (α : Type*) where
  | push (value : α) (spurious : Nat)
  | pop (spurious : Nat)
  deriving DecidableEq

/-- What a call returns. -/
inductive QueueReply (α : Type*) where
  | pushed (accepted : Bool)
  | popped (value : Option α)
  /-- Nothing, as long as the caller waits. -/
  | stuck
  deriving DecidableEq

variable {α : Type*}

/-- A call of `push`. -/
def QueueCall.isPush : QueueCall α → Bool
  | .push .. => true
  | .pop _ => false

/-- A first-in first-out queue that holds at most `bound` values. -/
def fifoCall (bound : Nat) (values : List α) : QueueCall α → QueueReply α × List α
  | .push value _ =>
    if values.length < bound then (.pushed true, values ++ [value]) else (.pushed false, values)
  | .pop _ => (.popped values.head?, values.tail)

namespace SPSCQueue

/-- The queue that the constructor sets up. -/
def new (initial : Nat → α) : SPSCQueue α := ⟨initial, 0, 0⟩

/-- `SPSCQueue::push`. -/
def push (capacity : UInt64) (queue : SPSCQueue α) (value : α) : Bool × SPSCQueue α :=
  let currWrite := queue.writeIdx
  let currRead := queue.readIdx
  if capacity ≤ currWrite - currRead then (false, queue)
  else
    (true, { queue with
      buffer := update queue.buffer (masked capacity currWrite) value
      writeIdx := currWrite + 1 })

/-- `SPSCQueue::pop`. -/
def pop (capacity : UInt64) (queue : SPSCQueue α) : Option α × SPSCQueue α :=
  let currRead := queue.readIdx
  let currWrite := queue.writeIdx
  if currRead = currWrite then (none, queue)
  else (some (queue.buffer (masked capacity currRead)), { queue with readIdx := currRead + 1 })

/-- One call. -/
def call (capacity : UInt64) (queue : SPSCQueue α) : QueueCall α → QueueReply α × SPSCQueue α
  | .push value _ => (.pushed (queue.push capacity value).1, (queue.push capacity value).2)
  | .pop _ => (.popped (queue.pop capacity).1, (queue.pop capacity).2)

/-- The cells from the read counter on hold the values. -/
structure Holds (capacity : UInt64) (queue : SPSCQueue α) (values : List α) : Prop where
  write : queue.writeIdx = queue.readIdx + UInt64.ofNat values.length
  room : values.length ≤ capacity.toNat
  stored : ∀ place, place < values.length →
    values[place]? =
      some (queue.buffer (masked capacity (queue.readIdx + UInt64.ofNat place)))

section

variable {capacity : UInt64} {queue : SPSCQueue α} {values : List α}

/-- A new ring is empty. -/
theorem Holds.new (capacity : UInt64) (initial : Nat → α) :
    (SPSCQueue.new initial).Holds capacity [] where
  write := rfl
  room := Nat.zero_le _
  stored := fun _ inside => absurd inside (Nat.not_lt_zero _)

/-- The distance of the counters is the number of values. -/
theorem Holds.distance (holds : queue.Holds capacity values) :
    (queue.writeIdx - queue.readIdx).toNat = values.length := by
  have bound := UInt64.toNat_lt capacity
  have room := holds.room
  have moved := counter_distance queue.readIdx (Nat.zero_le values.length) (by omega)
  rw [holds.write]
  simpa using moved

/-- A push answers as the bounded queue. -/
theorem Holds.push (holds : queue.Holds capacity values) (power : PowerOfTwo capacity)
    (value : α) (spurious : Nat) :
    (queue.call capacity (.push value spurious)).1 =
        (fifoCall capacity.toNat values (.push value spurious)).1 ∧
      (queue.call capacity (.push value spurious)).2.Holds capacity
        (fifoCall capacity.toNat values (.push value spurious)).2 := by
  have full : capacity ≤ queue.writeIdx - queue.readIdx ↔ ¬values.length < capacity.toNat := by
    rw [UInt64.le_iff_toNat_le, holds.distance, Nat.not_lt]
  by_cases room : values.length < capacity.toNat
  · have free : ¬capacity ≤ queue.writeIdx - queue.readIdx := fun reached => full.mp reached room
    simp only [call, SPSCQueue.push, fifoCall, if_neg free, if_pos room, true_and]
    constructor
    · change queue.writeIdx + 1 = queue.readIdx + UInt64.ofNat (values ++ [value]).length
      rw [length_append, length_singleton, add_ofNat_succ, holds.write]
      grind
    · rw [length_append, length_singleton]
      exact room
    · intro place inside
      rw [length_append, length_singleton] at inside
      change (values ++ [value])[place]? = some (update queue.buffer
        (masked capacity queue.writeIdx) value
        (masked capacity (queue.readIdx + UInt64.ofNat place)))
      rw [holds.write]
      by_cases last : place = values.length
      · rw [last, update_self, getElem?_concat_length]
      · have earlier : place < values.length := by omega
        rw [update_of_ne (masked_ne power queue.readIdx earlier (by omega)),
          getElem?_append_left earlier]
        exact holds.stored place earlier
  · have reached : capacity ≤ queue.writeIdx - queue.readIdx := full.mpr room
    simp only [call, SPSCQueue.push, fifoCall, if_pos reached, if_neg room, true_and]
    exact holds

/-- A pop answers as the bounded queue. -/
theorem Holds.pop (holds : queue.Holds capacity values) (spurious : Nat) :
    (queue.call capacity (.pop spurious)).1 =
        (fifoCall capacity.toNat values (.pop spurious)).1 ∧
      (queue.call capacity (.pop spurious)).2.Holds capacity
        (fifoCall capacity.toNat values (.pop spurious)).2 := by
  have distance := holds.distance
  have room := holds.room
  cases values with
  | nil =>
    have empty : queue.readIdx = queue.writeIdx := by
      rw [holds.write]
      exact (UInt64.add_zero _).symm
    simp only [call, SPSCQueue.pop, fifoCall, if_pos empty, head?_nil, tail_nil,
      true_and]
    exact holds
  | cons first rest =>
    have occupied : queue.readIdx ≠ queue.writeIdx := by
      intro same
      rw [same, UInt64.sub_self] at distance
      cases distance
    have front := holds.stored 0 (Nat.succ_pos _)
    rw [getElem?_cons_zero, show UInt64.ofNat 0 = 0 from rfl, UInt64.add_zero] at front
    simp only [call, SPSCQueue.pop, fifoCall, if_neg occupied, head?_cons, tail_cons,
      ← front, true_and]
    constructor
    · change queue.writeIdx = queue.readIdx + 1 + UInt64.ofNat rest.length
      rw [holds.write, length_cons, add_ofNat_succ]
    · rw [length_cons] at room
      omega
    · intro place inside
      have next := holds.stored (place + 1) (by rw [length_cons]; omega)
      rw [getElem?_cons_succ, add_ofNat_succ] at next
      exact next

end

/-- The single-producer queue is a bounded first-in first-out queue. -/
theorem simulates {capacity : UInt64} (power : PowerOfTwo capacity) :
    Simulates (@Holds α capacity) (call capacity) (fifoCall capacity.toNat) := by
  intro queue values input holds
  cases input with
  | push value spurious => exact holds.push power value spurious
  | pop spurious => exact holds.pop spurious

end SPSCQueue

/-! ## The claim loop -/

section ClaimLoop

variable {ρ : Type*} {index : UInt64} {diff : UInt64 → Int64} {claim : UInt64 → ρ} {refuse : ρ}

/-- The loop of `MPSCQueue::push` and `MPSCQueue::pop`. At a difference of zero the index is claimed
by a compare-exchange, at a negative one the call is refused, and otherwise the index is loaded
again. The compare-exchange fails `spurious` times for no reason; after `fuel` rounds the loop is
left without a result. -/
def claimLoop (index : UInt64) (diff : UInt64 → Int64) (claim : UInt64 → ρ) (refuse : ρ) :
    (fuel spurious : Nat) → (pos : UInt64) → Option ρ
  | 0, _, _ => none
  | fuel + 1, spurious, pos =>
    if diff pos = 0 then
      if index = pos ∧ spurious = 0 then some (claim pos)
      -- A failed compare-exchange loads the index.
      else claimLoop index diff claim refuse fuel (spurious - 1) index
    else if diff pos < 0 then some refuse
    else claimLoop index diff claim refuse fuel spurious index

/-- At a difference of zero the loop ends as soon as the compare-exchange does not fail. -/
theorem claimLoop_zero (zero : diff index = 0) {fuel : Nat} (waits : 0 < fuel) (spurious : Nat) :
    claimLoop index diff claim refuse (fuel + spurious) spurious index = some (claim index) := by
  obtain ⟨more, rfl⟩ := Nat.exists_eq_succ_of_ne_zero (Nat.pos_iff_ne_zero.mp waits)
  induction spurious with
  | zero => simp only [claimLoop, zero, if_true, and_self]
  | succ spurious ih =>
    rw [← Nat.add_assoc, claimLoop]
    simp only [zero, if_true, Nat.add_one_ne_zero, and_false, if_false, Nat.add_sub_cancel]
    exact ih

/-- At a negative difference the loop ends at once. -/
theorem claimLoop_neg (negative : diff index < 0) {fuel : Nat} (waits : 0 < fuel)
    (spurious : Nat) :
    claimLoop index diff claim refuse (fuel + spurious) spurious index = some refuse := by
  obtain ⟨more, rfl⟩ := Nat.exists_eq_succ_of_ne_zero (Nat.pos_iff_ne_zero.mp waits)
  rw [Nat.succ_add, Nat.succ_eq_add_one, claimLoop, if_neg (Int64.ne_of_lt negative),
    if_pos negative]

/-- At a positive difference the loop goes round for ever. -/
theorem claimLoop_pos (positive : 0 < diff index) (fuel spurious : Nat) :
    claimLoop index diff claim refuse fuel spurious index = none := by
  induction fuel with
  | zero => rfl
  | succ fuel ih =>
    rw [claimLoop, if_neg (Int64.ne_of_lt positive).symm,
      if_neg (Int64.not_lt.mpr (Int64.le_of_lt positive))]
    exact ih

end ClaimLoop

namespace MPSCQueue

/-- The queue that the constructor sets up. -/
def new (initial : Nat → α) : MPSCQueue α :=
  ⟨fun cell => ⟨UInt64.ofNat cell, initial cell⟩, 0, 0⟩

/-- The loop of `MPSCQueue::push` from its position on. -/
def pushLoop (capacity : UInt64) (queue : MPSCQueue α) (value : α) :
    (fuel spurious : Nat) → (pos : UInt64) → Option (Bool × MPSCQueue α) :=
  claimLoop queue.writeIdx
    (fun pos => (queue.buffer (masked capacity pos)).sequence.toInt64 - pos.toInt64)
    (fun pos => (true, { queue with
      buffer := update queue.buffer (masked capacity pos) ⟨pos + 1, value⟩
      writeIdx := pos + 1 }))
    (false, queue)

/-- The loop of `MPSCQueue::pop` from its position on. -/
def popLoop (capacity : UInt64) (queue : MPSCQueue α) :
    (fuel spurious : Nat) → (pos : UInt64) → Option (Option α × MPSCQueue α) :=
  claimLoop queue.readIdx
    (fun pos => (queue.buffer (masked capacity pos)).sequence.toInt64 - (pos + 1).toInt64)
    (fun pos =>
      let data := (queue.buffer (masked capacity pos)).data
      (some data, { queue with
        buffer := update queue.buffer (masked capacity pos) ⟨pos + capacity, data⟩
        readIdx := pos + 1 }))
    (none, queue)

/-- `MPSCQueue::push`, with `fuel` rounds beyond the spurious failures. -/
def push (capacity : UInt64) (fuel : Nat) (queue : MPSCQueue α) (value : α) (spurious : Nat) :
    Option (Bool × MPSCQueue α) :=
  queue.pushLoop capacity value (fuel + spurious) spurious queue.writeIdx

/-- `MPSCQueue::pop`, with `fuel` rounds beyond the spurious failures. -/
def pop (capacity : UInt64) (fuel : Nat) (queue : MPSCQueue α) (spurious : Nat) :
    Option (Option α × MPSCQueue α) :=
  queue.popLoop capacity (fuel + spurious) spurious queue.readIdx

/-- A call on the queue, or on one that an earlier call did not return from. -/
def call (capacity : UInt64) (fuel : Nat) :
    Option (MPSCQueue α) → QueueCall α → QueueReply α × Option (MPSCQueue α)
  | none, _ => (.stuck, none)
  | some queue, .push value spurious =>
    match queue.push capacity fuel value spurious with
    | none => (.stuck, none)
    | some (accepted, next) => (.pushed accepted, some next)
  | some queue, .pop spurious =>
    match queue.pop capacity fuel spurious with
    | none => (.stuck, none)
    | some (value, next) => (.popped value, some next)

/-! ## Single calls -/

section

variable {capacity : UInt64} {queue : MPSCQueue α} {fuel : Nat}

/-- A push onto a free cell writes it. -/
theorem push_free (free : (queue.buffer (masked capacity queue.writeIdx)).sequence = queue.writeIdx)
    (waits : 0 < fuel) (value : α) (spurious : Nat) :
    queue.push capacity fuel value spurious =
      some (true, { queue with
        buffer := update queue.buffer (masked capacity queue.writeIdx)
          ⟨queue.writeIdx + 1, value⟩
        writeIdx := queue.writeIdx + 1 }) := by
  refine claimLoop_zero ?_ waits spurious
  exact signed_sub_eq_zero.mpr free

/-- A push onto a cell of the lap before is refused. -/
theorem push_behind (behind : (queue.buffer (masked capacity queue.writeIdx)).sequence.toInt64 -
      queue.writeIdx.toInt64 < 0) (waits : 0 < fuel) (value : α) (spurious : Nat) :
    queue.push capacity fuel value spurious = some (false, queue) := by
  refine claimLoop_neg ?_ waits spurious
  exact behind

/-- A pop from an occupied cell releases it. -/
theorem pop_occupied
    (next : (queue.buffer (masked capacity queue.readIdx)).sequence = queue.readIdx + 1)
    (waits : 0 < fuel) (spurious : Nat) :
    queue.pop capacity fuel spurious =
      some (some (queue.buffer (masked capacity queue.readIdx)).data, { queue with
        buffer := update queue.buffer (masked capacity queue.readIdx)
          ⟨queue.readIdx + capacity, (queue.buffer (masked capacity queue.readIdx)).data⟩
        readIdx := queue.readIdx + 1 }) := by
  refine claimLoop_zero ?_ waits spurious
  exact signed_sub_eq_zero.mpr next

/-- A pop from a free cell returns nothing. -/
theorem pop_free (free : (queue.buffer (masked capacity queue.readIdx)).sequence = queue.readIdx)
    (waits : 0 < fuel) (spurious : Nat) :
    queue.pop capacity fuel spurious = some (none, queue) := by
  refine claimLoop_neg ?_ waits spurious
  rw [free]
  exact @signed_sub_neg queue.readIdx 1 (by decide) (by decide)

/-- A pop from a cell that is numbered ahead of its position does not return. -/
theorem pop_ahead (ahead : 0 < (queue.buffer (masked capacity queue.readIdx)).sequence.toInt64 -
      (queue.readIdx + 1).toInt64) (fuel spurious : Nat) :
    queue.pop capacity fuel spurious = none := by
  refine claimLoop_pos ?_ _ spurious
  exact ahead

end

/-! ## Contents -/

/-- In the lap from the read index on, the first cells are occupied and hold the values, and the
others are free. -/
structure Holds (capacity : UInt64) (queue : MPSCQueue α) (values : List α) : Prop where
  write : queue.writeIdx = queue.readIdx + UInt64.ofNat values.length
  room : values.length ≤ capacity.toNat
  occupied : ∀ place, place < values.length →
    (queue.buffer (masked capacity (queue.readIdx + UInt64.ofNat place))).sequence =
      queue.readIdx + UInt64.ofNat place + 1
  stored : ∀ place, place < values.length →
    values[place]? =
      some (queue.buffer (masked capacity (queue.readIdx + UInt64.ofNat place))).data
  free : ∀ place, values.length ≤ place → place < capacity.toNat →
    (queue.buffer (masked capacity (queue.readIdx + UInt64.ofNat place))).sequence =
      queue.readIdx + UInt64.ofNat place

section

variable {capacity : UInt64} {queue : MPSCQueue α} {values : List α} {fuel : Nat}

/-- A new numbered ring is empty. -/
theorem Holds.new (power : PowerOfTwo capacity) (initial : Nat → α) :
    (new initial).Holds capacity [] where
  write := rfl
  room := Nat.zero_le _
  occupied := fun _ inside => absurd inside (Nat.not_lt_zero _)
  stored := fun _ inside => absurd inside (Nat.not_lt_zero _)
  free := by
    intro place _ inside
    change UInt64.ofNat (masked capacity (0 + UInt64.ofNat place)) = 0 + UInt64.ofNat place
    rw [masked_add power, UInt64.zero_add, UInt64.toNat_zero, Nat.zero_add,
      Nat.mod_eq_of_lt inside]

variable (holds : queue.Holds capacity values) (power : PowerOfTwo capacity)
include holds power

/-- A push with room left writes the first free cell. -/
theorem Holds.push (waits : 0 < fuel) (room : values.length < capacity.toNat) (value : α)
    (spurious : Nat) :
    ∃ next, queue.push capacity fuel value spurious = some (true, next) ∧
      next.Holds capacity (values ++ [value]) := by
  have free := holds.free values.length (Nat.le_refl _) room
  rw [← holds.write] at free
  refine ⟨_, push_free free waits value spurious, ?_⟩
  have apart {place : Nat} (inside : place < capacity.toNat) (other : place ≠ values.length) :
      masked capacity (queue.readIdx + UInt64.ofNat place) ≠ masked capacity queue.writeIdx := by
    rw [holds.write]
    rcases Nat.lt_or_gt_of_ne other with before | after
    · exact masked_ne power queue.readIdx before (by omega)
    · exact (masked_ne power queue.readIdx after (by omega)).symm
  have length : (values ++ [value]).length = values.length + 1 := by
    rw [length_append, length_singleton]
  constructor
  · change queue.writeIdx + 1 = queue.readIdx + UInt64.ofNat (values ++ [value]).length
    rw [length, add_ofNat_succ, holds.write]
    grind
  · rw [length]
    exact room
  · intro place inside
    rw [length] at inside
    by_cases last : place = values.length
    · simp only [last, ← holds.write, update_self]
    · simp only [update_of_ne (apart (by omega) last)]
      exact holds.occupied place (by omega)
  · intro place inside
    rw [length] at inside
    by_cases last : place = values.length
    · simp only [last, ← holds.write, update_self, getElem?_concat_length]
    · have earlier : place < values.length := by omega
      simp only [update_of_ne (apart (by omega) last),
        getElem?_append_left earlier]
      exact holds.stored place earlier
  · intro place outside inside
    rw [length] at outside
    simp only [update_of_ne (apart inside (by omega))]
    exact holds.free place (by omega) inside

/-- The number of the cell that a push onto a full queue looks at. -/
theorem Holds.full_cell (full : ¬values.length < capacity.toNat) :
    (queue.buffer (masked capacity queue.writeIdx)).sequence = queue.readIdx + 1 := by
  have room := holds.room
  have positive := power.positive
  have same : masked capacity queue.writeIdx =
      masked capacity (queue.readIdx + UInt64.ofNat 0) := by
    rw [holds.write, masked_add power, masked_add power,
      show values.length = capacity.toNat by omega, Nat.add_mod_right, Nat.add_zero]
  rw [same, holds.occupied 0 (by omega), show UInt64.ofNat 0 = 0 from rfl, UInt64.add_zero]

/-- With two cells or more a push onto a full queue is refused. -/
theorem Holds.push_full (two : 2 ≤ capacity.toNat) (waits : 0 < fuel)
    (full : ¬values.length < capacity.toNat) (value : α) (spurious : Nat) :
    queue.push capacity fuel value spurious = some (false, queue) := by
  have room := holds.room
  have size : values.length = capacity.toNat - 1 + 1 := by omega
  apply push_behind _ waits
  rw [holds.full_cell power full, holds.write, size, add_ofNat_succ]
  obtain ⟨bits, small, value⟩ := power
  have bound : 2 ^ bits ≤ 2 ^ 63 := Nat.pow_le_pow_right (by decide) (by omega)
  exact signed_sub_neg (by omega) (by omega)

/-- A pop returns the first value, if there is one. -/
theorem Holds.pop (waits : 0 < fuel) (spurious : Nat) :
    ∃ next, queue.pop capacity fuel spurious = some (values.head?, next) ∧
      next.Holds capacity values.tail := by
  have start : queue.readIdx + UInt64.ofNat 0 = queue.readIdx := UInt64.add_zero _
  cases values with
  | nil =>
    have free := holds.free 0 (Nat.le_refl _) power.positive
    rw [start] at free
    exact ⟨queue, pop_free free waits spurious, holds⟩
  | cons first rest =>
    have next := holds.occupied 0 (Nat.succ_pos _)
    have front := holds.stored 0 (Nat.succ_pos _)
    have room : rest.length + 1 ≤ capacity.toNat := holds.room
    rw [start] at next front
    rw [getElem?_cons_zero] at front
    refine ⟨_, by rw [pop_occupied next waits spurious, ← front, head?_cons], ?_⟩
    -- The released cell is the last one of the lap that starts a position later.
    have apart (place : Nat) (inside : place + 1 < capacity.toNat) :
        masked capacity (queue.readIdx + 1 + UInt64.ofNat place) ≠
          masked capacity queue.readIdx := by
      rw [← add_ofNat_succ]
      have other := masked_ne power queue.readIdx (Nat.succ_pos place) (by omega)
      rw [start] at other
      exact other.symm
    rw [tail_cons]
    constructor
    · change queue.writeIdx = queue.readIdx + 1 + UInt64.ofNat rest.length
      rw [holds.write, length_cons, add_ofNat_succ]
    · omega
    · intro place inside
      have later := holds.occupied (place + 1) (by rw [length_cons]; omega)
      rw [add_ofNat_succ] at later
      simp only [update_of_ne (apart place (by omega))]
      exact later
    · intro place inside
      have later := holds.stored (place + 1) (by rw [length_cons]; omega)
      rw [add_ofNat_succ, getElem?_cons_succ] at later
      simp only [update_of_ne (apart place (by omega))]
      exact later
    · intro place outside inside
      by_cases last : place + 1 = capacity.toNat
      · have cell : masked capacity (queue.readIdx + 1 + UInt64.ofNat place) =
            masked capacity queue.readIdx := by
          rw [← add_ofNat_succ, last, masked_add power, masked_eq_mod power, Nat.add_mod_right]
        simp only [cell, update_self]
        rw [← add_ofNat_succ, last, UInt64.ofNat_toNat]
      · have later := holds.free (place + 1) (by rw [length_cons]; omega) (by omega)
        rw [add_ofNat_succ] at later
        simp only [update_of_ne (apart place (by omega))]
        exact later

end

/-- The queue has returned from every call so far and holds the values. -/
def Serves (capacity : UInt64) (state : Option (MPSCQueue α)) (values : List α) : Prop :=
  ∃ queue, state = some queue ∧ queue.Holds capacity values

section

variable {capacity : UInt64} {queue : MPSCQueue α} {values : List α} {fuel : Nat}

section

variable (holds : queue.Holds capacity values) (power : PowerOfTwo capacity) (waits : 0 < fuel)
include holds power waits

/-- A pop returns the first value. -/
theorem Holds.call_pop (spurious : Nat) :
    ∃ next, call capacity fuel (some queue) (.pop spurious) = (.popped values.head?, some next) ∧
      next.Holds capacity values.tail := by
  obtain ⟨next, popped, kept⟩ := holds.pop power waits spurious
  exact ⟨next, by simp only [call, popped], kept⟩

/-- A push finds room. -/
theorem Holds.call_push (room : values.length < capacity.toNat) (value : α) (spurious : Nat) :
    ∃ next, call capacity fuel (some queue) (.push value spurious) = (.pushed true, some next) ∧
      next.Holds capacity (values ++ [value]) := by
  obtain ⟨next, pushed, kept⟩ := holds.push power waits room value spurious
  exact ⟨next, by simp only [call, pushed], kept⟩

end

/-- With two cells or more the multi-producer queue is a bounded first-in first-out queue, too. -/
theorem simulates (power : PowerOfTwo capacity) (two : 2 ≤ capacity.toNat) (waits : 0 < fuel) :
    Simulates (@Serves α capacity) (call capacity fuel) (fifoCall capacity.toNat) := by
  rintro _ values input ⟨queue, rfl, holds⟩
  cases input with
  | push value spurious =>
    by_cases room : values.length < capacity.toNat
    · obtain ⟨next, answer, kept⟩ := holds.call_push power waits room value spurious
      rw [answer, fifoCall, if_pos room]
      exact ⟨rfl, next, rfl, kept⟩
    · simp only [call, holds.push_full power two waits room, fifoCall, if_neg room]
      exact ⟨trivial, queue, rfl, holds⟩
  | pop spurious =>
    obtain ⟨next, answer, kept⟩ := holds.call_pop power waits spurious
    rw [answer, fifoCall]
    exact ⟨rfl, next, rfl, kept⟩

/-- A single cell takes a push although it is full. -/
theorem Holds.push_overwrites (holds : queue.Holds capacity values) (power : PowerOfTwo capacity)
    (single : capacity.toNat = 1) (waits : 0 < fuel) (full : ¬values.length < capacity.toNat)
    (value : α) (spurious : Nat) :
    (call capacity fuel (some queue) (.push value spurious)).1 = .pushed true := by
  have room := holds.room
  have free : (queue.buffer (masked capacity queue.writeIdx)).sequence = queue.writeIdx := by
    rw [holds.full_cell power full, holds.write, show values.length = 1 by omega]
    rfl
  simp only [call, push_free free waits]

end

end MPSCQueue

/-! ## Agreement -/

/-- The calls are not both pushes. -/
def QueueCall.Apart (earlier later : QueueCall α) : Prop :=
  earlier.isPush = false ∨ later.isPush = false
  deriving Decidable

/-- Both queues return from every call, with the answers of a first-in first-out queue that holds
at most `capacity` values. -/
def QueuesAgree (capacity : UInt64) (initial : Nat → α) (calls : List (QueueCall α)) : Prop :=
  let replies := (run (fifoCall capacity.toNat) [] calls).1
  (run (SPSCQueue.call capacity) (SPSCQueue.new initial) calls).1 = replies ∧
    ∃ enough, ∀ fuel, enough ≤ fuel →
      (run (call capacity fuel) (some (new initial)) calls).1 = replies

section

variable {capacity : UInt64} {fuel : Nat}

/-- A single cell answers as a queue of one value exactly as long as no push follows a push. -/
theorem MPSCQueue.Holds.run_single (power : PowerOfTwo capacity) (single : capacity.toNat = 1)
    (waits : 0 < fuel) (calls : List (QueueCall α)) (last : QueueCall α) {queue : MPSCQueue α}
    {values : List α} (holds : queue.Holds capacity values)
    (after : last.isPush = false ↔ values = []) :
    (run (call capacity fuel) (some queue) calls).1 =
        (run (fifoCall capacity.toNat) values calls).1 ↔
      (last :: calls).IsChain QueueCall.Apart := by
  induction calls generalizing queue values last with
  | nil => simp [run]
  | cons input rest ih =>
    have room := holds.room
    rw [isChain_cons_cons]
    cases input with
    | pop spurious =>
      obtain ⟨next, answer, kept⟩ := holds.call_pop power waits spurious
      have empty : values.tail = [] := by
        rw [← length_eq_zero_iff, length_tail]
        omega
      have later := ih (.pop spurious) kept (by simp [QueueCall.isPush, empty])
      simp only [run, answer, fifoCall, cons.injEq, true_and, later]
      exact (and_iff_right (Or.inr rfl)).symm
    | push value spurious =>
      by_cases free : values.length < capacity.toNat
      · obtain ⟨next, answer, kept⟩ := holds.call_push power waits free value spurious
        have empty : values = [] := by
          rw [← length_eq_zero_iff]
          omega
        have later := ih (.push value spurious) kept (by simp [QueueCall.isPush])
        simp only [run, answer, fifoCall, if_pos free, cons.injEq, true_and, later]
        exact (and_iff_right (Or.inl (after.mpr empty))).symm
      · have overwritten := holds.push_overwrites power single waits free value spurious
        have occupied : values ≠ [] := by
          rintro rfl
          exact free (by rw [single]; exact Nat.zero_lt_one)
        simp only [run, overwritten, fifoCall, if_neg free, cons.injEq,
          QueueReply.pushed.injEq, Bool.true_eq_false, false_and, false_iff, not_and]
        rintro (idle | other)
        · exact absurd (after.mp idle) occupied
        · cases other

/-- The queues agree with a bounded first-in first-out queue exactly if they have two cells or
more, or no push directly follows a push. -/
theorem queuesAgree_iff (power : PowerOfTwo capacity) (initial : Nat → α)
    (calls : List (QueueCall α)) :
    QueuesAgree capacity initial calls ↔
      2 ≤ capacity.toNat ∨ calls.IsChain QueueCall.Apart := by
  have spsc := ((SPSCQueue.simulates power).run (SPSCQueue.Holds.new capacity initial) calls).1
  have fresh := Holds.new power initial
  rw [QueuesAgree, and_iff_right spsc]
  by_cases two : 2 ≤ capacity.toNat
  · refine iff_of_true ⟨1, fun fuel waits => ?_⟩ (Or.inl two)
    exact ((simulates power two waits).run ⟨_, rfl, fresh⟩ calls).1
  · have positive := power.positive
    have single : capacity.toNat = 1 := by omega
    have chain : (QueueCall.pop 0 :: calls).IsChain QueueCall.Apart ↔
        calls.IsChain QueueCall.Apart := by
      cases calls with
      | nil => simp
      | cons first rest =>
        rw [isChain_cons_cons]
        exact and_iff_right (Or.inl rfl)
    have decided (fuel : Nat) (waits : 0 < fuel) :=
      (fresh.run_single power single waits calls (.pop 0) (by simp [QueueCall.isPush])).trans chain
    rw [or_iff_right two]
    constructor
    · rintro ⟨enough, agrees⟩
      exact (decided (enough + 1) (Nat.succ_pos _)).mp (agrees _ (Nat.le_succ _))
    · intro apart
      exact ⟨1, fun fuel waits => (decided fuel waits).mpr apart⟩

/-- With four cells a push may follow a push. -/
theorem queuesAgree_iff_four :
    QueuesAgree 4 (fun _ => 0) [.push 5 0, .push 6 2, .pop 1, .pop 0, .pop 0] :=
  (queuesAgree_iff ⟨2, by decide, rfl⟩ _ _).mpr (Or.inl (by decide))

/-- However long the caller waits, a single cell accepts a second push and the pop after it does
not return. The other queue refuses that push and returns the first value. -/
theorem single_cell_overwritten :
    (∀ fuel, (run (call 1 (fuel + 1)) (some (new fun _ => 0))
        [.push 5 0, .push 6 0, .pop 0]).1 = [.pushed true, .pushed true, .stuck]) ∧
      (run (SPSCQueue.call 1) (SPSCQueue.new fun _ => 0)
        [.push 5 0, .push 6 0, .pop 0]).1 = [.pushed true, .pushed false, .popped (some 5)] := by
  refine ⟨fun fuel => ?_, by decide⟩
  have first : (new fun _ => 0).push 1 (fuel + 1) 5 0 =
      some (true, ⟨update (new fun _ => 0).buffer 0 ⟨1, 5⟩, 1, 0⟩) :=
    push_free rfl (Nat.succ_pos _) 5 0
  have second : (mk (update (new fun _ => 0).buffer 0 ⟨1, 5⟩) 1 0).push
      1 (fuel + 1) 6 0 = some (true, ⟨update (update
        (new fun _ => 0).buffer 0 ⟨1, 5⟩) 0 ⟨2, 6⟩, 2, 0⟩) :=
    push_free rfl (Nat.succ_pos _) 6 0
  have third : (mk (update (update
      (new fun _ => 0).buffer 0 ⟨1, 5⟩) 0 ⟨2, 6⟩) 2 0).pop 1 (fuel + 1) 0 = none :=
    pop_ahead (by decide) _ _
  simp only [run, call, first, second, third]

end

end FluxTrade
