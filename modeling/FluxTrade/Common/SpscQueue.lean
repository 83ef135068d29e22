import FluxTrade.Library.Execution
import FluxTrade.Library.Words
import FluxTrade.Domain

/-!
# The single-producer queue, step by step

`SPSCQueue` is a ring of cells between two free-running 64-bit counters. A push
loads the write counter, loads the read counter, writes a cell and stores the
write counter; a pop does the same on its side. The steps of any number of
producers and of one consumer interleave freely. As long as a push begins only
while no other is under way, the values popped are at every moment the first of
the values whose push returned true.
-/

namespace FluxTrade

open Execution Words Function List

/-- `SPSCQueue`. -/
structure SPSCQueue (α : Type*) where
  buffer : Nat → α
  writeIdx : UInt64
  readIdx : UInt64

/-- Where a call of `push` stands, with its local variables. -/
inductive PushStage (α : Type*) where
  | idle
  | loadedWrite (value : α) (currWrite : UInt64)
  | checked (value : α) (currWrite : UInt64)
  | written (value : α) (currWrite : UInt64)
  deriving DecidableEq

/-- The value of a push under way. -/
def PushStage.value? {α : Type*} : PushStage α → Option α
  | .idle => none
  | .loadedWrite value _ => some value
  | .checked value _ => some value
  | .written value _ => some value

/-- A push without a value is idle. -/
theorem PushStage.eq_idle {α : Type*} {stage : PushStage α} (nothing : stage.value? = none) :
    stage = .idle := by
  cases stage with
  | idle => rfl
  | loadedWrite | checked | written => cases nothing

/-- Where a call of `pop` stands, with its local variables. -/
inductive PopStage (α : Type*) where
  | idle
  | loadedRead (currRead : UInt64)
  | checked (currRead : UInt64)
  | taken (currRead : UInt64) (value : α)
  deriving DecidableEq

/-- A queue with its producers, its consumer and what their calls have returned. -/
structure QueueRun (α : Type*) (producers : Nat) where
  queue : SPSCQueue α
  pushes : Fin producers → PushStage α
  pop : PopStage α
  /-- Values whose push returned true, the first one first. -/
  accepted : List α
  /-- Values whose push returned false. -/
  refused : List α
  /-- Values that a pop returned, the first one first. -/
  popped : List α

/-- The next step of a producer, which begins a push if it has none under way, or of the
consumer. -/
inductive QueueStep (α : Type*) (producers : Nat) where
  | produce (producer : Fin producers) (value : α)
  | consume

namespace QueueRun

variable {α : Type*} {producers : Nat}
variable {capacity index : UInt64} {run : QueueRun α 1}

/-- No call has been made; both counters stand at the same value. -/
def start (buffer : Nat → α) (index : UInt64) : QueueRun α producers :=
  ⟨⟨buffer, index, index⟩, fun _ => .idle, .idle, [], [], []⟩

/-- One step of `SPSCQueue::push`. The value counts only where the call begins. -/
def produce (capacity : UInt64) (run : QueueRun α producers) (producer : Fin producers)
    (value : α) : QueueRun α producers :=
  let stage (next : PushStage α) := update run.pushes producer next
  match run.pushes producer with
  | .idle => { run with pushes := stage (.loadedWrite value run.queue.writeIdx) }
  | .loadedWrite value currWrite =>
    if capacity ≤ currWrite - run.queue.readIdx then
      { run with pushes := stage .idle, refused := run.refused ++ [value] }
    else { run with pushes := stage (.checked value currWrite) }
  | .checked value currWrite =>
    { run with
      queue := { run.queue with
        buffer := update run.queue.buffer (masked capacity currWrite) value }
      pushes := stage (.written value currWrite) }
  | .written value currWrite =>
    { run with
      queue := { run.queue with writeIdx := currWrite + 1 }
      pushes := stage .idle
      accepted := run.accepted ++ [value] }

/-- One step of `SPSCQueue::pop`. -/
def consume (capacity : UInt64) (run : QueueRun α producers) : QueueRun α producers :=
  match run.pop with
  | .idle => { run with pop := .loadedRead run.queue.readIdx }
  | .loadedRead currRead =>
    if currRead = run.queue.writeIdx then { run with pop := .idle }
    else { run with pop := .checked currRead }
  | .checked currRead =>
    { run with pop := .taken currRead (run.queue.buffer (masked capacity currRead)) }
  | .taken currRead value =>
    { run with
      queue := { run.queue with readIdx := currRead + 1 }
      pop := .idle
      popped := run.popped ++ [value] }

/-- One step of the interleaving. -/
def step (capacity : UInt64) (run : QueueRun α producers) :
    QueueStep α producers → Except Fault (QueueRun α producers)
  | .produce producer value => .ok (run.produce capacity producer value)
  | .consume => .ok (run.consume capacity)

/-- No call is under way. -/
def Quiet (run : QueueRun α producers) : Prop :=
  (∀ producer, run.pushes producer = .idle) ∧ run.pop = .idle

/-- A push begins only while no other is under way. -/
def OnePush (run : QueueRun α producers) : QueueStep α producers → Prop
  | .produce producer _ => run.pushes producer = .idle →
      ∀ other, run.pushes other = .idle
  | .consume => True

instance [DecidableEq α] (run : QueueRun α producers) : Decidable run.Quiet :=
  inferInstanceAs (Decidable (_ ∧ _))

instance [DecidableEq α] (run : QueueRun α producers) (input : QueueStep α producers) :
    Decidable (OnePush run input) := by
  cases input <;> dsimp only [OnePush] <;> infer_instance

/-- One producer begins no second push. -/
theorem OnePush.single (run : QueueRun α 1) (input : QueueStep α 1) : OnePush run input := by
  cases input with
  | consume => trivial
  | produce producer value =>
    intro idle other
    rw [Subsingleton.elim other producer]
    exact idle

/-! ## The invariant -/

/-- What a push under way knows. -/
def PushKnows (capacity : UInt64) (run : QueueRun α producers) : PushStage α → Prop
  | .idle => True
  | .loadedWrite _ currWrite => currWrite = run.queue.writeIdx
  | .checked _ currWrite => currWrite = run.queue.writeIdx ∧
      run.accepted.length < run.popped.length + capacity.toNat
  | .written value currWrite => currWrite = run.queue.writeIdx ∧
      run.accepted.length < run.popped.length + capacity.toNat ∧
      run.queue.buffer (masked capacity currWrite) = value

/-- What a pop under way knows. -/
def PopKnows (run : QueueRun α producers) : Prop :=
  match run.pop with
  | .idle => True
  | .loadedRead currRead => currRead = run.queue.readIdx
  | .checked currRead => currRead = run.queue.readIdx ∧
      run.popped.length < run.accepted.length
  | .taken currRead value => currRead = run.queue.readIdx ∧
      run.accepted[run.popped.length]? = some value

/-- The cells between the counters hold the values accepted and not yet popped. -/
structure Fifo (capacity index : UInt64) (run : QueueRun α producers) : Prop where
  write : run.queue.writeIdx = index + UInt64.ofNat run.accepted.length
  read : run.queue.readIdx = index + UInt64.ofNat run.popped.length
  room : run.accepted.length ≤ run.popped.length + capacity.toNat
  first : run.popped = run.accepted.take run.popped.length
  stored : ∀ place, run.popped.length ≤ place → place < run.accepted.length →
    run.accepted[place]? =
      some (run.queue.buffer (masked capacity (index + UInt64.ofNat place)))
  single : ∀ left right, run.pushes left ≠ .idle → run.pushes right ≠ .idle → left = right
  pushes : ∀ producer, PushKnows capacity run (run.pushes producer)
  pops : PopKnows run

section

variable {capacity index : UInt64} {run : QueueRun α producers}
variable {producer : Fin producers} {pushes : Fin producers → PushStage α} {stage : PushStage α}
  {next : QueueRun α producers} {value : α}

/-- An empty ring is in order. -/
theorem Fifo.start (capacity index : UInt64) (buffer : Nat → α) :
    Fifo capacity index (start buffer index : QueueRun α producers) where
  write := by simp [QueueRun.start]
  read := by simp [QueueRun.start]
  room := Nat.zero_le _
  first := rfl
  stored := fun _ _ inside => absurd inside (Nat.not_lt_zero _)
  single := fun _ _ active => absurd rfl active
  pushes := fun _ => trivial
  pops := trivial

/-- Only accepted values are popped. -/
theorem Fifo.popped_le (fifo : Fifo capacity index run) :
    run.popped.length ≤ run.accepted.length := by
  rw [fifo.first, length_take]
  exact Nat.min_le_right _ _

/-- While a push is under way the other producers are idle. -/
theorem Fifo.others_idle (fifo : Fifo capacity index run) (active : run.pushes producer ≠ .idle)
    {other : Fin producers} (apart : other ≠ producer) :
    run.pushes other = .idle := by
  by_contra busy
  exact apart (fifo.single other producer busy active)

/-- At most the mover is active. -/
theorem single_update (others : ∀ other, other ≠ producer → pushes other = .idle)
    (stage : PushStage α) (left right : Fin producers)
    (leftActive : update pushes producer stage left ≠ .idle)
    (rightActive : update pushes producer stage right ≠ .idle) : left = right := by
  have home (candidate : Fin producers)
      (active : update pushes producer stage candidate ≠ .idle) :
      candidate = producer := by
    by_contra apart
    rw [update_of_ne apart] at active
    exact active (others candidate apart)
  rw [home left leftActive, home right rightActive]

/-- The mover knows enough. -/
theorem knows_update (others : ∀ other, other ≠ producer → pushes other = .idle)
    (knows : PushKnows capacity run stage) (candidate : Fin producers) :
    PushKnows capacity run (update pushes producer stage candidate) := by
  by_cases home : candidate = producer
  · rw [home, update_self]
    exact knows
  · rw [update_of_ne home, others candidate home]
    trivial

/-- What a push under way knows stays true while the producers' end stands still and values are
popped. -/
theorem PushKnows.release (knows : PushKnows capacity run stage)
    (writeIdx : next.queue.writeIdx = run.queue.writeIdx)
    (buffer : next.queue.buffer = run.queue.buffer) (accepted : next.accepted = run.accepted)
    (popped : run.popped.length ≤ next.popped.length) : PushKnows capacity next stage := by
  cases stage with
  | idle => trivial
  | loadedWrite value currWrite => exact knows.trans writeIdx.symm
  | checked value currWrite =>
    obtain ⟨current, free⟩ := knows
    refine ⟨current.trans writeIdx.symm, ?_⟩
    rw [accepted]
    omega
  | written value currWrite =>
    obtain ⟨current, free, cell⟩ := knows
    refine ⟨current.trans writeIdx.symm, ?_, ?_⟩
    · rw [accepted]
      omega
    · rw [buffer]
      exact cell

/-- What a pop under way knows stays true while its end stands still and a value is accepted. -/
theorem PopKnows.accept (knows : PopKnows run) (pop : next.pop = run.pop)
    (readIdx : next.queue.readIdx = run.queue.readIdx) (popped : next.popped = run.popped)
    (accepted : next.accepted = run.accepted ++ [value]) :
    PopKnows next := by
  simp only [PopKnows, pop, readIdx, popped, accepted] at knows ⊢
  cases stage : run.pop with
  | idle => trivial
  | loadedRead currRead =>
    rw [stage] at knows
    exact knows
  | checked currRead =>
    rw [stage] at knows
    obtain ⟨current, inside⟩ := knows
    exact ⟨current, by simp only [length_append]; omega⟩
  | taken currRead taken =>
    rw [stage] at knows
    obtain ⟨current, isNext⟩ := knows
    obtain ⟨inside, _⟩ := List.getElem?_eq_some_iff.mp isNext
    refine ⟨current, ?_⟩
    simp only [List.getElem?_append_left inside]
    exact isNext

/-- The occupancy that a push computes is the number of values not yet popped. -/
theorem Fifo.occupancy (fifo : Fifo capacity index run) (power : PowerOfTwo capacity) :
    (run.queue.writeIdx - run.queue.readIdx).toNat =
      run.accepted.length - run.popped.length := by
  obtain ⟨bits, small, value⟩ := power
  have bound : 2 ^ bits < 2 ^ 64 := Nat.pow_lt_pow_right (by decide) small
  have ordered := fifo.popped_le
  have room := fifo.room
  rw [fifo.write, fifo.read, counter_distance index ordered (by omega)]

/-- A step of a push keeps the queue first in, first out. -/
theorem Fifo.produce (fifo : Fifo capacity index run) (power : PowerOfTwo capacity)
    (one : OnePush run (.produce producer value)) :
    Fifo capacity index (run.produce capacity producer value) := by
  have ordered := fifo.popped_le
  have knows := fifo.pushes producer
  cases stage : run.pushes producer with
  | idle =>
    have others (other : Fin producers) (_ : other ≠ producer) : run.pushes other = .idle :=
      one stage other
    simp only [QueueRun.produce, stage]
    exact ⟨fifo.write, fifo.read, fifo.room, fifo.first, fifo.stored, single_update others _,
      knows_update others rfl, fifo.pops⟩
  | loadedWrite value currWrite =>
    have others (other : Fin producers) (apart : other ≠ producer) : run.pushes other = .idle :=
      fifo.others_idle (by simp [stage]) apart
    rw [stage] at knows
    obtain rfl : currWrite = run.queue.writeIdx := knows
    simp only [QueueRun.produce, stage]
    by_cases full : capacity ≤ run.queue.writeIdx - run.queue.readIdx
    · rw [if_pos full]
      exact ⟨fifo.write, fifo.read, fifo.room, fifo.first, fifo.stored, single_update others _,
        knows_update others trivial, fifo.pops⟩
    · rw [if_neg full]
      have free : run.accepted.length < run.popped.length + capacity.toNat := by
        rw [UInt64.le_iff_toNat_le, fifo.occupancy power] at full
        omega
      exact ⟨fifo.write, fifo.read, fifo.room, fifo.first, fifo.stored, single_update others _,
        knows_update others ⟨rfl, free⟩, fifo.pops⟩
  | checked value currWrite =>
    have others (other : Fin producers) (apart : other ≠ producer) : run.pushes other = .idle :=
      fifo.others_idle (by simp [stage]) apart
    rw [stage] at knows
    obtain ⟨rfl, free⟩ := knows
    simp only [QueueRun.produce, stage]
    refine ⟨fifo.write, fifo.read, fifo.room, fifo.first, ?_, single_update others _,
      knows_update others ⟨rfl, free, update_self ..⟩, fifo.pops⟩
    -- The written cell is not one of the cells between the counters.
    intro place early late
    change run.popped.length ≤ place at early
    change place < run.accepted.length at late
    have apart : masked capacity (index + UInt64.ofNat place) ≠
        masked capacity run.queue.writeIdx := by
      rw [fifo.write]
      exact masked_ne power index late (by omega)
    rw [fifo.stored place early late]
    exact congrArg some (update_of_ne apart ..).symm
  | written value currWrite =>
    have others (other : Fin producers) (apart : other ≠ producer) : run.pushes other = .idle :=
      fifo.others_idle (by simp [stage]) apart
    rw [stage] at knows
    obtain ⟨rfl, free, cell⟩ := knows
    simp only [QueueRun.produce, stage]
    refine ⟨?_, fifo.read, ?_, ?_, ?_, single_update others _, knows_update others trivial, ?_⟩
    · simp only [fifo.write, length_append, length_singleton, UInt64.ofNat_add]
      exact UInt64.add_assoc ..
    · simp only [length_append, length_singleton]
      omega
    · change run.popped = (run.accepted ++ [value]).take run.popped.length
      rw [take_append_of_le_length ordered]
      exact fifo.first
    · intro place early late
      simp only [length_append, length_singleton] at late
      by_cases last : place = run.accepted.length
      · rw [last, List.getElem?_concat_length, ← fifo.write]
        exact congrArg some cell.symm
      · rw [List.getElem?_append_left (by omega)]
        exact fifo.stored place early (by omega)
    · exact fifo.pops.accept rfl rfl rfl rfl

/-- A step of a pop keeps the queue first in, first out. -/
theorem Fifo.consume (fifo : Fifo capacity index run) :
    Fifo capacity index (run.consume capacity) := by
  have ordered := fifo.popped_le
  have pops := fifo.pops
  simp only [PopKnows] at pops
  cases stage : run.pop with
  | idle =>
    simp only [QueueRun.consume, stage]
    exact ⟨fifo.write, fifo.read, fifo.room, fifo.first, fifo.stored, fifo.single, fifo.pushes,
      rfl⟩
  | loadedRead currRead =>
    rw [stage] at pops
    obtain rfl : currRead = run.queue.readIdx := pops
    simp only [QueueRun.consume, stage]
    by_cases empty : run.queue.readIdx = run.queue.writeIdx
    · rw [if_pos empty]
      exact ⟨fifo.write, fifo.read, fifo.room, fifo.first, fifo.stored, fifo.single, fifo.pushes,
        trivial⟩
    · rw [if_neg empty]
      refine ⟨fifo.write, fifo.read, fifo.room, fifo.first, fifo.stored, fifo.single,
        fifo.pushes, rfl, ?_⟩
      have different : run.popped.length ≠ run.accepted.length := by
        intro same
        rw [fifo.write, fifo.read, same] at empty
        exact empty rfl
      change run.popped.length < run.accepted.length
      omega
  | checked currRead =>
    rw [stage] at pops
    obtain ⟨rfl, inside⟩ := pops
    simp only [QueueRun.consume, stage]
    refine ⟨fifo.write, fifo.read, fifo.room, fifo.first, fifo.stored, fifo.single, fifo.pushes,
      rfl, ?_⟩
    have cell := fifo.stored run.popped.length (Nat.le_refl _) inside
    rw [← fifo.read] at cell
    exact cell
  | taken currRead value =>
    rw [stage] at pops
    obtain ⟨rfl, next⟩ := pops
    obtain ⟨inside, isNext⟩ := List.getElem?_eq_some_iff.mp next
    simp only [QueueRun.consume, stage]
    refine ⟨fifo.write, ?_, ?_, ?_, ?_, fifo.single, ?_, trivial⟩
    · simp only [fifo.read, length_append, length_singleton, UInt64.ofNat_add]
      exact UInt64.add_assoc ..
    · have room := fifo.room
      simp only [length_append, length_singleton]
      omega
    · change run.popped ++ [value] = run.accepted.take (run.popped ++ [value]).length
      rw [length_append, length_singleton, take_add_one, ← fifo.first, next]
      rfl
    · intro place early late
      simp only [length_append, length_singleton] at early
      exact fifo.stored place (by omega) late
    · intro producer
      exact (fifo.pushes producer).release rfl rfl rfl (by simp only [length_append]; omega)

/-- Steps that begin no second push keep the queue first in, first out. -/
theorem Fifo.step {input : QueueStep α producers} (fifo : Fifo capacity index run)
    (power : PowerOfTwo capacity) (one : OnePush run input)
    (taken : run.step capacity input = .ok next) : Fifo capacity index next := by
  cases input with
  | produce producer value =>
    cases taken
    exact fifo.produce power one
  | consume =>
    cases taken
    exact fifo.consume

/-- An empty queue has been emptied of everything accepted. -/
theorem Fifo.popped_eq (fifo : Fifo capacity index run) (power : PowerOfTwo capacity)
    (empty : run.queue.readIdx = run.queue.writeIdx) : run.popped = run.accepted := by
  have distance := fifo.occupancy power
  rw [empty, UInt64.sub_self] at distance
  have zero : (0 : UInt64).toNat = 0 := rfl
  have all : run.accepted.length ≤ run.popped.length := by omega
  rw [fifo.first, take_of_length_le all]

end

/-! ## What one step of a call can do -/

/-- Values accepted and not yet popped, the oldest first. -/
def waiting (run : QueueRun α producers) : List α := run.accepted.drop run.popped.length

/-- What was accepted was popped or waits. -/
theorem Fifo.accepted_eq {run : QueueRun α producers} (fifo : Fifo capacity index run) :
    run.accepted = run.popped ++ run.waiting := by
  have parts := take_append_drop run.popped.length run.accepted
  rw [← fifo.first] at parts
  exact parts.symm

/-- Where the push of the one producer stands. -/
def pushing (run : QueueRun α 1) : PushStage α := run.pushes 0

/-- One step of the push of the one producer. -/
def push (capacity : UInt64) (run : QueueRun α 1) (value : α) : QueueRun α 1 :=
  run.produce capacity 0 value

/-- A step of the push of a value: the call goes on, or it returns. -/
inductive Pushed (run next : QueueRun α 1) (value : α) : Prop
  | working (stage : next.pushing.value? = some value) (accepted : next.accepted = run.accepted)
    (refused : next.refused = run.refused)
  | accepted (stage : next.pushing = .idle) (accepted : next.accepted = run.accepted ++ [value])
    (refused : next.refused = run.refused)
  | refused (stage : next.pushing = .idle) (accepted : next.accepted = run.accepted)
    (refused : next.refused = run.refused ++ [value])

/-- A push begins, and changes nothing but its own stage. -/
theorem push_begins (capacity : UInt64) (idle : run.pushing = .idle) (value : α) :
    (run.push capacity value).pushing = .loadedWrite value run.queue.writeIdx ∧
      (run.push capacity value).accepted = run.accepted ∧
      (run.push capacity value).refused = run.refused ∧
      (run.push capacity value).popped = run.popped := by
  rw [pushing] at idle
  unfold push QueueRun.produce
  rw [idle]
  exact ⟨by simp [pushing], rfl, rfl, rfl⟩

/-- A push under way goes on with the value it has. -/
theorem push_pushed (capacity : UInt64) {value : α} (busy : run.pushing.value? = some value)
    (given : α) :
    Pushed run (run.push capacity given) value ∧ (run.push capacity given).popped = run.popped := by
  rw [pushing] at busy
  unfold push QueueRun.produce
  cases stage : run.pushes 0 with
  | idle =>
    rw [stage] at busy
    cases busy
  | loadedWrite pushed currWrite =>
    rw [stage] at busy
    cases busy
    dsimp only
    split
    · exact ⟨.refused (by simp [pushing]) rfl rfl, rfl⟩
    · exact ⟨.working (by simp [pushing, PushStage.value?]) rfl rfl, rfl⟩
  | checked pushed currWrite =>
    rw [stage] at busy
    cases busy
    exact ⟨.working (by simp [pushing, PushStage.value?]) rfl rfl, rfl⟩
  | written pushed currWrite =>
    rw [stage] at busy
    cases busy
    exact ⟨.accepted (by simp [pushing]) rfl rfl, rfl⟩

section

variable {run : QueueRun α 1} {value : α} {currWrite : UInt64}

/-- The check of a push. -/
theorem pushing_of_loadedWrite (capacity : UInt64)
    (stage : run.pushing = .loadedWrite value currWrite) (given : α) :
    (run.push capacity given).pushing =
      if capacity ≤ currWrite - run.queue.readIdx then .idle else .checked value currWrite := by
  rw [pushing] at stage
  unfold push QueueRun.produce
  rw [stage]
  dsimp only
  split <;> simp [pushing]

/-- The write of a push. -/
theorem pushing_of_checked (capacity : UInt64) (stage : run.pushing = .checked value currWrite)
    (given : α) : (run.push capacity given).pushing = .written value currWrite := by
  rw [pushing] at stage
  unfold push QueueRun.produce
  rw [stage]
  simp [pushing]

/-- The store of a push. -/
theorem pushing_of_written (capacity : UInt64) (stage : run.pushing = .written value currWrite)
    (given : α) : (run.push capacity given).pushing = .idle := by
  rw [pushing] at stage
  unfold push QueueRun.produce
  rw [stage]
  simp [pushing]

end

/-- A step of a pop returns at most one value. -/
theorem consume_popped (capacity : UInt64) (run : QueueRun α 1) :
    (run.consume capacity).pushing = run.pushing ∧
      (run.consume capacity).accepted = run.accepted ∧
      (run.consume capacity).refused = run.refused ∧
      ((run.consume capacity).popped = run.popped ∨
        ∃ value, (run.consume capacity).popped = run.popped ++ [value]) := by
  unfold QueueRun.consume
  cases run.pop with
  | idle => exact ⟨rfl, rfl, rfl, .inl rfl⟩
  | loadedRead currRead =>
    dsimp only
    split <;> exact ⟨rfl, rfl, rfl, .inl rfl⟩
  | checked currRead => exact ⟨rfl, rfl, rfl, .inl rfl⟩
  | taken currRead value => exact ⟨rfl, rfl, rfl, .inr ⟨value, rfl⟩⟩

/-- The step of a push that compares the counters finds a cell free. -/
def FindsRoom (capacity : UInt64) (run : QueueRun α 1) : Prop :=
  match run.pushing with
  | .loadedWrite _ _ => run.waiting.length < capacity.toNat
  | _ => True

instance (capacity : UInt64) (run : QueueRun α 1) : Decidable (run.FindsRoom capacity) := by
  dsimp only [FindsRoom]
  cases run.pushing <;> infer_instance

/-- A push is refused by the step that compares the counters, and only if every cell is taken. -/
theorem Fifo.findsRoom_iff (fifo : Fifo capacity index run) (power : PowerOfTwo capacity)
    (given : α) :
    run.FindsRoom capacity ↔ (run.push capacity given).refused = run.refused := by
  unfold FindsRoom push QueueRun.produce pushing
  cases stage : run.pushes 0 with
  | loadedWrite value currWrite =>
    have knows := fifo.pushes 0
    rw [stage] at knows
    obtain rfl : currWrite = run.queue.writeIdx := knows
    have taken := fifo.occupancy power
    simp only [waiting, length_drop]
    by_cases full : capacity ≤ run.queue.writeIdx - run.queue.readIdx
    · rw [UInt64.le_iff_toNat_le, taken] at full
      simp [UInt64.le_iff_toNat_le, taken, full, Nat.not_lt.mpr full]
    · rw [UInt64.le_iff_toNat_le, taken, Nat.not_le] at full
      simp [UInt64.le_iff_toNat_le, taken, full, Nat.not_le.mpr full]
  | idle => simp
  | checked value currWrite => simp
  | written value currWrite => simp

/-- The push of the one producer keeps the queue first in, first out. -/
theorem Fifo.push (fifo : Fifo capacity index run) (power : PowerOfTwo capacity) (value : α) :
    Fifo capacity index (run.push capacity value) :=
  fifo.produce power (.single run (.produce 0 value))

/-! ## One producer -/

/-- What one producer and one consumer may rely on. A refusal is the step that reads the read
index, and a pop without a value ends in the step that reads the write index, so both are stated
of the state those reads see. -/
structure SingleProducer (capacity : UInt64) (run : QueueRun α 1) : Prop where
  /-- Values come out in the order in which their pushes returned true. -/
  inOrder : run.popped <+: run.accepted
  /-- A push returns false only while as many values as there are cells wait. -/
  full : ∀ value, (run.produce capacity 0 value).refused ≠ run.refused →
    run.accepted.length = run.popped.length + capacity.toNat
  /-- A pop returns false only when every completed push has been popped. -/
  empty : run.pop ≠ .idle → (run.consume capacity).pop = .idle →
    (run.consume capacity).popped = run.popped → run.popped = run.accepted

section

variable {capacity index : UInt64}

/-- A refusal means a full ring. -/
theorem Fifo.full_of_refused {run : QueueRun α 1} (fifo : Fifo capacity index run)
    (power : PowerOfTwo capacity) {value : α}
    (refused : (run.produce capacity 0 value).refused ≠ run.refused) :
    run.accepted.length = run.popped.length + capacity.toNat := by
  have knows := fifo.pushes 0
  cases stage : run.pushes 0 with
  | idle => simp [QueueRun.produce, stage] at refused
  | checked pushed currWrite => simp [QueueRun.produce, stage] at refused
  | written pushed currWrite => simp [QueueRun.produce, stage] at refused
  | loadedWrite pushed currWrite =>
    rw [stage] at knows
    have current : currWrite = run.queue.writeIdx := knows
    simp only [QueueRun.produce, stage] at refused
    by_cases full : capacity ≤ currWrite - run.queue.readIdx
    · have room := fifo.room
      have ordered := fifo.popped_le
      rw [current, UInt64.le_iff_toNat_le, fifo.occupancy power] at full
      omega
    · simp [full] at refused

/-- A missed pop means an empty ring. -/
theorem Fifo.drained_of_missed {run : QueueRun α 1} (fifo : Fifo capacity index run)
    (power : PowerOfTwo capacity) (active : run.pop ≠ .idle)
    (ends : (run.consume capacity).pop = .idle)
    (missed : (run.consume capacity).popped = run.popped) : run.popped = run.accepted := by
  have pops := fifo.pops
  simp only [PopKnows] at pops
  cases stage : run.pop with
  | idle => exact absurd stage active
  | checked currRead => simp [QueueRun.consume, stage] at ends
  | taken currRead value => simp [QueueRun.consume, stage] at missed
  | loadedRead currRead =>
    rw [stage] at pops
    simp only [QueueRun.consume, stage] at ends
    by_cases same : currRead = run.queue.writeIdx
    · have current : currRead = run.queue.readIdx := pops
      exact fifo.popped_eq power (current ▸ same)
    · simp [same] at ends

/-- In every interleaving of one producer with one consumer, started with both indices anywhere and
run past their wrap, what both rely on holds in every state. -/
theorem singleProducer_throughout (power : PowerOfTwo capacity) (buffer : Nat → α)
    (index : UInt64) (steps : List (QueueStep α 1)) :
    Throughout (SingleProducer capacity) (QueueRun.step capacity)
      (QueueRun.start buffer index) steps := by
  refine Throughout.of_guarded (Fifo.start capacity index buffer)
    (fun _ _ _ fifo one taken => fifo.step power one taken) ?_
    (Along.of_forall OnePush.single _ _)
  intro run fifo
  refine ⟨?_, fun _ => fifo.full_of_refused power, fifo.drained_of_missed power⟩
  rw [fifo.first]
  exact take_prefix _ _

/-- Two cells, both indices one below their wrap: three pushes, of which the last is refused, and
three pops, of which the last finds nothing. -/
theorem singleProducer_throughout_wrap :
    PowerOfTwo 2 ∧ Throughout (SingleProducer 2) (QueueRun.step 2)
      (QueueRun.start (fun _ => 0) (0 - 1) : QueueRun Nat 1)
      ((replicate 4 (.produce 0 7)) ++ replicate 4 (.produce 0 8) ++
        replicate 2 (.produce 0 9) ++ replicate 10 .consume) :=
  ⟨⟨1, by decide, rfl⟩, singleProducer_throughout ⟨1, by decide, rfl⟩ _ _ _⟩

end

end QueueRun

end FluxTrade
