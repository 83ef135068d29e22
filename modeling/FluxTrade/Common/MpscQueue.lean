import FluxTrade.Library.Execution
import FluxTrade.Library.Words
import FluxTrade.Domain

/-!
# The multi-producer queue, step by step

`MPSCQueue` numbers the cells of a ring: a cell that carries its own position is
free, one that carries the position after it holds a value. A producer claims a
position by moving the write index with a compare-exchange, writes the cell and
publishes it through the cell's number; the consumer releases a cell by moving
its number on by a lap. The steps of any number of producers and of one consumer
interleave freely, and a compare-exchange may fail for no reason.
-/

namespace FluxTrade

open Execution Words Function List

/-- `MPSCQueue::Cell`. -/
structure MPSCCell (α : Type*) where
  sequence : UInt64
  data : α

/-- `MPSCQueue`. -/
structure MPSCQueue (α : Type*) where
  buffer : Nat → MPSCCell α
  writeIdx : UInt64
  readIdx : UInt64

/-- Where a call of `push` stands, with its local variables. -/
inductive ClaimStage (α : Type*) where
  | idle
  /-- At the head of the loop. -/
  | loaded (value : α) (pos : UInt64)
  /-- Before the compare-exchange. -/
  | claiming (value : α) (pos : UInt64)
  /-- Before the position is loaded again. -/
  | reloading (value : α)
  | claimed (value : α) (pos : UInt64)
  | written (value : α) (pos : UInt64)
  deriving DecidableEq

/-- Where a call of `pop` stands, with its local variables. -/
inductive ReleaseStage (α : Type*) where
  | idle
  | loaded (pos : UInt64)
  | claiming (pos : UInt64)
  | reloading
  | claimed (pos : UInt64)
  | taken (pos : UInt64) (value : α)
  deriving DecidableEq

/-- A queue with its producers, its consumer and what their calls have done. -/
structure MpscRun (α : Type*) (producers : Nat) where
  queue : MPSCQueue α
  pushes : Fin producers → ClaimStage α
  pop : ReleaseStage α
  /-- Values in the order in which compare-exchanges claimed their positions. -/
  claims : List α
  /-- Position and value of each push that returned true, the first one first. -/
  accepted : List (Nat × α)
  /-- Values whose push returned false. -/
  refused : List α
  /-- Values that a pop returned, the first one first. -/
  popped : List α

/-- The next step of a producer, which begins a push if it has none under way, or of the consumer.
The flag makes a compare-exchange fail although the index has the expected value. -/
inductive MpscStep (α : Type*) (producers : Nat) where
  | produce (producer : Fin producers) (value : α) (spurious : Bool)
  | consume (spurious : Bool)

namespace MpscRun

variable {α : Type*} {producers : Nat}

/-- The queue as constructed: every cell carries its own position. -/
def start (data : Nat → α) : MpscRun α producers where
  queue := ⟨fun cell => ⟨UInt64.ofNat cell, data cell⟩, 0, 0⟩
  pushes := fun _ => .idle
  pop := .idle
  claims := []
  accepted := []
  refused := []
  popped := []

/-- One step of `MPSCQueue::push`. The value counts only where the call begins. -/
def produce (capacity : UInt64) (run : MpscRun α producers) (producer : Fin producers)
    (value : α) (spurious : Bool) : MpscRun α producers :=
  let stage (next : ClaimStage α) := update run.pushes producer next
  match run.pushes producer with
  | .idle => { run with pushes := stage (.loaded value run.queue.writeIdx) }
  | .loaded value pos =>
    let seq := (run.queue.buffer (masked capacity pos)).sequence
    let diff := seq.toInt64 - pos.toInt64
    if diff = 0 then { run with pushes := stage (.claiming value pos) }
    else if diff < 0 then
      { run with pushes := stage .idle, refused := run.refused ++ [value] }
    else { run with pushes := stage (.reloading value) }
  | .claiming value pos =>
    if run.queue.writeIdx = pos ∧ spurious = false then
      { run with
        queue := { run.queue with writeIdx := pos + 1 }
        pushes := stage (.claimed value pos)
        claims := run.claims ++ [value] }
    else { run with pushes := stage (.loaded value run.queue.writeIdx) }
  | .reloading value => { run with pushes := stage (.loaded value run.queue.writeIdx) }
  | .claimed value pos =>
    let cell := masked capacity pos
    { run with
      queue := { run.queue with
        buffer := update run.queue.buffer cell
          ⟨(run.queue.buffer cell).sequence, value⟩ }
      pushes := stage (.written value pos) }
  | .written value pos =>
    let cell := masked capacity pos
    { run with
      queue := { run.queue with
        buffer := update run.queue.buffer cell
          ⟨pos + 1, (run.queue.buffer cell).data⟩ }
      pushes := stage .idle
      accepted := run.accepted ++ [(pos.toNat, value)] }

/-- One step of `MPSCQueue::pop`. -/
def consume (capacity : UInt64) (run : MpscRun α producers) (spurious : Bool) :
    MpscRun α producers :=
  match run.pop with
  | .idle => { run with pop := .loaded run.queue.readIdx }
  | .loaded pos =>
    let seq := (run.queue.buffer (masked capacity pos)).sequence
    let diff := seq.toInt64 - (pos + 1).toInt64
    if diff = 0 then { run with pop := .claiming pos }
    else if diff < 0 then { run with pop := .idle }
    else { run with pop := .reloading }
  | .claiming pos =>
    if run.queue.readIdx = pos ∧ spurious = false then
      { run with queue := { run.queue with readIdx := pos + 1 }, pop := .claimed pos }
    else { run with pop := .loaded run.queue.readIdx }
  | .reloading => { run with pop := .loaded run.queue.readIdx }
  | .claimed pos =>
    { run with pop := .taken pos (run.queue.buffer (masked capacity pos)).data }
  | .taken pos value =>
    let cell := masked capacity pos
    { run with
      queue := { run.queue with
        buffer := update run.queue.buffer cell
          ⟨pos + capacity, (run.queue.buffer cell).data⟩ }
      pop := .idle
      popped := run.popped ++ [value] }

/-- One step of the interleaving. -/
def step (capacity : UInt64) (run : MpscRun α producers) :
    MpscStep α producers → Except Fault (MpscRun α producers)
  | .produce producer value spurious => .ok (run.produce capacity producer value spurious)
  | .consume spurious => .ok (run.consume capacity spurious)

/-! ## The invariant -/

/-- The push that claimed the position has returned true. -/
def Published (run : MpscRun α producers) (place : Nat) : Prop :=
  place ∈ run.accepted.map Prod.fst
  deriving Decidable

end MpscRun

/-- A push between its claim and its return holds the position. -/
def ClaimStage.Holds {α : Type*} (stage : ClaimStage α) (place : Nat) : Prop :=
  match stage with
  | .claimed _ pos => pos.toNat = place
  | .written _ pos => pos.toNat = place
  | _ => False

namespace MpscRun

variable {α : Type*} {producers : Nat}

/-- What a push that holds a position knows. -/
structure Holding (run : MpscRun α producers) (value : α) (pos : UInt64) : Prop where
  claim : run.claims[pos.toNat]? = some value
  unpublished : ¬run.Published pos.toNat

/-- What a push under way knows. -/
def PushKnows (capacity : UInt64) (run : MpscRun α producers) : ClaimStage α → Prop
  | .idle => True
  | .loaded _ pos => pos.toNat ≤ run.claims.length
  | .claiming _ pos => pos.toNat < run.popped.length + capacity.toNat
  | .reloading _ => True
  | .claimed value pos => run.Holding value pos
  | .written value pos => run.Holding value pos ∧
      (run.queue.buffer (masked capacity pos)).data = value

/-- What a pop under way knows. -/
def PopKnows (run : MpscRun α producers) : ReleaseStage α → Prop
  | .idle => run.queue.readIdx.toNat = run.popped.length
  | .loaded pos => run.queue.readIdx.toNat = run.popped.length ∧ pos.toNat = run.popped.length
  | .claiming pos => run.queue.readIdx.toNat = run.popped.length ∧
      pos.toNat = run.popped.length ∧ run.Published run.popped.length
  | .reloading => run.queue.readIdx.toNat = run.popped.length
  | .claimed pos => run.queue.readIdx.toNat = run.popped.length + 1 ∧
      pos.toNat = run.popped.length ∧ run.Published run.popped.length
  | .taken pos value => run.queue.readIdx.toNat = run.popped.length + 1 ∧
      pos.toNat = run.popped.length ∧ (run.popped.length, value) ∈ run.accepted

/-- The lap that starts at the first unreleased position is numbered by what is published, and the
published cells hold the claimed values. -/
structure Numbered (capacity : UInt64) (run : MpscRun α producers) : Prop where
  write : run.queue.writeIdx.toNat = run.claims.length
  room : run.claims.length ≤ run.popped.length + capacity.toNat
  first : run.popped = run.claims.take run.popped.length
  claimed : ∀ entry ∈ run.accepted, run.claims[entry.1]? = some entry.2
  once : (run.accepted.map Prod.fst).Nodup
  released : ∀ place, place < run.popped.length → run.Published place
  sequence : ∀ place, run.popped.length ≤ place → place < run.popped.length + capacity.toNat →
    (run.queue.buffer (place % capacity.toNat)).sequence.toNat =
      if run.Published place then place + 1 else place
  data : ∀ place, run.popped.length ≤ place → run.Published place →
    run.claims[place]? = some (run.queue.buffer (place % capacity.toNat)).data
  apart : ∀ left right place, (run.pushes left).Holds place → (run.pushes right).Holds place →
    left = right
  pushes : ∀ producer, PushKnows capacity run (run.pushes producer)
  pops : PopKnows run run.pop

section

variable {capacity : UInt64} {run next : MpscRun α producers}
variable {data : Nat → α} {place : Nat} {value : α} {pos : UInt64} {producer other : Fin producers}
  {stage : ClaimStage α} {pushes : Fin producers → ClaimStage α}

/-- An empty ring is numbered. -/
theorem Numbered.start (power : PowerOfTwo capacity) :
    Numbered capacity (start data : MpscRun α producers) where
  write := rfl
  room := Nat.zero_le _
  first := rfl
  claimed := fun _ member => absurd member not_mem_nil
  once := nodup_nil
  released := fun _ inside => absurd inside (Nat.not_lt_zero _)
  sequence := by
    intro place _ inside
    obtain ⟨bits, small, value⟩ := power
    have bound : 2 ^ bits < 2 ^ 64 := Nat.pow_lt_pow_right (by decide) small
    have near : place < capacity.toNat := by simpa [MpscRun.start] using inside
    have fits : place < 2 ^ 64 := by omega
    have fresh : ¬(MpscRun.start data : MpscRun α producers).Published place := by
      simp [Published, MpscRun.start]
    rw [if_neg fresh, Nat.mod_eq_of_lt near]
    exact Nat.mod_eq_of_lt fits
  data := fun _ _ published => absurd published (by simp [Published, MpscRun.start])
  apart := fun _ _ _ holds => absurd holds (by simp [MpscRun.start, ClaimStage.Holds])
  pushes := fun _ => trivial
  pops := rfl

section

variable (numbered : Numbered capacity run)
include numbered

/-- Only claims are popped. -/
theorem Numbered.popped_le :
    run.popped.length ≤ run.claims.length := by
  rw [numbered.first, length_take]
  exact Nat.min_le_right _ _

/-- Only claims are published. -/
theorem Numbered.published_lt (published : run.Published place) :
    place < run.claims.length := by
  obtain ⟨entry, member, rfl⟩ := mem_map.mp published
  exact (List.getElem?_eq_some_iff.mp (numbered.claimed entry member)).1

/-- A held position is claimed and not yet released. -/
theorem Numbered.holding_bounds (holding : run.Holding value pos) :
    run.popped.length ≤ pos.toNat ∧ pos.toNat < run.claims.length := by
  refine ⟨?_, (List.getElem?_eq_some_iff.mp holding.claim).1⟩
  by_contra early
  exact holding.unpublished (numbered.released _ (by omega))

/-- The holder of a position knows that it holds it. -/
theorem Numbered.holding (holds : (run.pushes producer).Holds place) :
    run.popped.length ≤ place ∧ place < run.claims.length ∧ ¬run.Published place := by
  have knows := numbered.pushes producer
  cases stage : run.pushes producer with
  | claimed value pos =>
    rw [stage] at knows holds
    obtain rfl : pos.toNat = place := holds
    have holding : run.Holding value pos := knows
    have bounds := numbered.holding_bounds holding
    exact ⟨bounds.1, bounds.2, holding.unpublished⟩
  | written value pos =>
    rw [stage] at knows holds
    obtain rfl : pos.toNat = place := holds
    have holding : run.Holding value pos := knows.1
    have bounds := numbered.holding_bounds holding
    exact ⟨bounds.1, bounds.2, holding.unpublished⟩
  | idle | loaded | claiming | reloading =>
    rw [stage] at holds
    exact absurd holds (by simp [ClaimStage.Holds])

/-- The number a producer reads belongs to the position of the current lap that shares its cell. -/
theorem Numbered.read_cell (power : PowerOfTwo capacity) (pos : UInt64) :
    ∃ place, run.popped.length ≤ place ∧ place < run.popped.length + capacity.toNat ∧
      place % capacity.toNat = pos.toNat % capacity.toNat ∧
      (run.queue.buffer (masked capacity pos)).sequence.toNat =
        if run.Published place then place + 1 else place := by
  obtain ⟨place, low, high, cell⟩ := exists_in_lap power.positive run.popped.length pos.toNat
  refine ⟨place, low, high, cell, ?_⟩
  rw [masked_eq_mod power, ← cell]
  exact numbered.sequence place low high

end

/-- A push that does not move keeps what it knows while claims and releases go on elsewhere. -/
theorem PushKnows.mono (knows : PushKnows capacity run stage) (claims : run.claims <+: next.claims)
    (popped : run.popped.length ≤ next.popped.length)
    (unpublished : ∀ place, stage.Holds place → ¬run.Published place → ¬next.Published place)
    (data : ∀ pos : UInt64, stage.Holds pos.toNat →
      (next.queue.buffer (masked capacity pos)).data =
        (run.queue.buffer (masked capacity pos)).data) :
    PushKnows capacity next stage := by
  have keep {value : α} {pos : UInt64} (here : stage.Holds pos.toNat)
      (holding : run.Holding value pos) : next.Holding value pos := by
    refine ⟨?_, unpublished _ here holding.unpublished⟩
    obtain ⟨inside, _⟩ := List.getElem?_eq_some_iff.mp holding.claim
    obtain ⟨later, rest⟩ := claims
    rw [← rest, List.getElem?_append_left inside]
    exact holding.claim
  cases stage with
  | idle => trivial
  | reloading value => trivial
  | loaded value pos => exact Nat.le_trans knows claims.length_le
  | claiming value pos =>
    have near : pos.toNat < run.popped.length + capacity.toNat := knows
    exact Nat.lt_of_lt_of_le near (Nat.add_le_add_right popped _)
  | claimed value pos => exact keep rfl knows
  | written value pos =>
    refine ⟨keep rfl knows.1, ?_⟩
    rw [data pos rfl]
    exact knows.2

/-- A push knows nothing of the stages of others. -/
theorem PushKnows.frame {refused : List α} (knows : PushKnows capacity run stage) :
    PushKnows capacity { run with pushes, refused } stage :=
  knows.mono (prefix_refl _) (Nat.le_refl _) (fun _ _ kept => kept) (fun _ _ => rfl)

/-! ## Steps of a push -/

/-- A new stage keeps the positions apart. -/
theorem apart_update
    (apart : ∀ left right place, (pushes left).Holds place → (pushes right).Holds place →
      left = right)
    (fresh : ∀ other, other ≠ producer → ∀ place, stage.Holds place → ¬(pushes other).Holds place)
    (left right : Fin producers) (place : Nat)
    (leftHolds : (update pushes producer stage left).Holds place)
    (rightHolds : (update pushes producer stage right).Holds place) : left = right := by
  by_cases leftHere : left = producer
  · by_cases rightHere : right = producer
    · rw [leftHere, rightHere]
    · rw [leftHere, update_self] at leftHolds
      rw [update_of_ne rightHere] at rightHolds
      exact absurd rightHolds (fresh right rightHere place leftHolds)
  · rw [update_of_ne leftHere] at leftHolds
    by_cases rightHere : right = producer
    · rw [rightHere, update_self] at rightHolds
      exact absurd leftHolds (fresh left leftHere place rightHolds)
    · rw [update_of_ne rightHere] at rightHolds
      exact apart left right place leftHolds rightHolds

/-- A new stage keeps the others' knowledge. -/
theorem knows_update (others : ∀ other, other ≠ producer → PushKnows capacity next (pushes other))
    (here : PushKnows capacity next stage) (candidate : Fin producers) :
    PushKnows capacity next (update pushes producer stage candidate) := by
  by_cases home : candidate = producer
  · rw [home, update_self]
    exact here
  · rw [update_of_ne home]
    exact others candidate home

/-- A push may move to any stage it knows enough for, if it holds no position there. -/
theorem Numbered.move (numbered : Numbered capacity run) (producer : Fin producers)
    (stage : ClaimStage α) (here : PushKnows capacity run stage)
    (free : ∀ place, ¬stage.Holds place) (refused : List α) :
    Numbered capacity
      { run with pushes := update run.pushes producer stage, refused } :=
  { numbered with
    apart := apart_update numbered.apart fun _ _ place holds => absurd holds (free place)
    pushes := knows_update (fun other _ => (numbered.pushes other).frame) here.frame }

/-- A free cell is numbered by the position that was loaded, so it is in the current lap. With one
cell the numbers of two laps would meet. -/
theorem Numbered.near_of_free (numbered : Numbered capacity run) (power : PowerOfTwo capacity)
    (two : 2 ≤ capacity.toNat) (free : (run.queue.buffer (masked capacity pos)).sequence = pos) :
    pos.toNat < run.popped.length + capacity.toNat := by
  obtain ⟨place, low, high, cell, number⟩ := numbered.read_cell power pos
  rw [free] at number
  by_cases published : run.Published place
  · rw [if_pos published] at number
    rw [number] at cell
    have shared : place = place + 1 :=
      eq_of_same_lap (Nat.le_refl place) (by omega) (by omega) (by omega) cell
    omega
  · rw [if_neg published] at number
    omega

/-- A compare-exchange claims the position after the last one. -/
theorem Numbered.claim (numbered : Numbered capacity run) {producer : Fin producers} {value : α}
    (near : pos.toNat < run.popped.length + capacity.toNat) (current : run.queue.writeIdx = pos)
    (small : run.claims.length + 1 < 2 ^ 63) :
    Numbered capacity
      { run with
        queue := { run.queue with writeIdx := pos + 1 }
        pushes := update run.pushes producer (.claimed value pos)
        claims := run.claims ++ [value] } := by
  have last : pos.toNat = run.claims.length := by
    rw [← current]
    exact numbered.write
  have longer : run.claims <+: run.claims ++ [value] := prefix_append _ _
  have unclaimed : ¬run.Published pos.toNat := by
    intro published
    have inside := numbered.published_lt published
    omega
  refine { numbered with
    write := ?_, room := ?_, first := ?_, claimed := ?_, data := ?_, apart := ?_, pushes := ?_ }
  · change (pos + 1).toNat = (run.claims ++ [value]).length
    rw [toNat_add_one (by omega), last, length_append, length_singleton]
  · change (run.claims ++ [value]).length ≤ run.popped.length + capacity.toNat
    rw [length_append, length_singleton]
    omega
  · change run.popped = (run.claims ++ [value]).take run.popped.length
    rw [take_append_of_le_length numbered.popped_le]
    exact numbered.first
  · intro entry member
    have old := numbered.claimed entry member
    obtain ⟨inside, _⟩ := List.getElem?_eq_some_iff.mp old
    change (run.claims ++ [value])[entry.1]? = some entry.2
    rw [List.getElem?_append_left inside]
    exact old
  · intro place low published
    have old := numbered.data place low published
    obtain ⟨inside, _⟩ := List.getElem?_eq_some_iff.mp old
    change (run.claims ++ [value])[place]? = _
    rw [List.getElem?_append_left inside]
    exact old
  · apply apart_update numbered.apart
    intro other _ place here holds
    obtain rfl : pos.toNat = place := here
    have bounds := numbered.holding holds
    omega
  · refine knows_update (fun other _ => ?_) ?_
    · exact (numbered.pushes other).mono longer (Nat.le_refl _) (fun _ _ kept => kept)
        (fun _ _ => rfl)
    · refine ⟨?_, unclaimed⟩
      change (run.claims ++ [value])[pos.toNat]? = some value
      rw [last, List.getElem?_concat_length]

/-- Positions of one lap have cells of their own. -/
theorem cell_ne (power : PowerOfTwo capacity) {first : Nat} (low : first ≤ pos.toNat)
    (high : pos.toNat < first + capacity.toNat) (placeLow : first ≤ place)
    (placeHigh : place < first + capacity.toNat) (apart : place ≠ pos.toNat) :
    place % capacity.toNat ≠ masked capacity pos := by
  rw [masked_eq_mod power]
  intro same
  exact apart (eq_of_same_lap placeLow placeHigh low high same)

/-- Two producers hold different positions. -/
theorem Numbered.place_ne (numbered : Numbered capacity run) {mine : Nat}
    (elsewhere : other ≠ producer) (holds : (run.pushes other).Holds place)
    (held : (run.pushes producer).Holds mine) : place ≠ mine := by
  intro same
  rw [← same] at held
  exact elsewhere (numbered.apart other producer place holds held)

/-- Two producers hold different cells. -/
theorem Numbered.held_cell_ne (numbered : Numbered capacity run) (power : PowerOfTwo capacity)
    {mine : UInt64} (elsewhere : other ≠ producer) (holds : (run.pushes other).Holds pos.toNat)
    (held : (run.pushes producer).Holds mine.toNat) :
    masked capacity pos ≠ masked capacity mine := by
  have room := numbered.room
  obtain ⟨low, high, _⟩ := numbered.holding held
  obtain ⟨otherLow, otherHigh, _⟩ := numbered.holding holds
  rw [masked_eq_mod power pos]
  exact cell_ne power low (by omega) otherLow (by omega)
    (numbered.place_ne elsewhere holds held)

/-- Writing the cell of a held position changes no published cell. -/
theorem Numbered.write_data (numbered : Numbered capacity run) (power : PowerOfTwo capacity)
    (stage : run.pushes producer = .claimed value pos) :
    Numbered capacity (run.produce capacity producer value false) := by
  have holding : run.Holding value pos := by
    have knows := numbered.pushes producer
    rw [stage] at knows
    exact knows
  have bounds := numbered.holding_bounds holding
  have room := numbered.room
  have held : (run.pushes producer).Holds pos.toNat := by
    rw [stage]
    exact rfl
  simp only [produce, stage]
  refine { numbered with sequence := ?_, data := ?_, apart := ?_, pushes := ?_ }
  · intro place low high
    have old := numbered.sequence place low high
    by_cases here : place % capacity.toNat = masked capacity pos
    · rw [here] at old ⊢
      simp only [update_self]
      exact old
    · simp only [update_of_ne here]
      exact old
  · intro place low published
    have inside := numbered.published_lt published
    have other : place ≠ pos.toNat := by
      rintro rfl
      exact holding.unpublished published
    have cell := cell_ne power bounds.1 (by omega) low (by omega) other
    simp only [update_of_ne cell]
    exact numbered.data place low published
  · apply apart_update numbered.apart
    intro other elsewhere place here holds
    obtain rfl : pos.toNat = place := here
    exact numbered.place_ne elsewhere holds held rfl
  · refine knows_update (fun other elsewhere => ?_)
      ⟨⟨holding.claim, holding.unpublished⟩, by simp⟩
    refine (numbered.pushes other).mono (prefix_refl _) (Nat.le_refl _)
      (fun _ _ kept => kept) ?_
    intro otherPos holds
    simp only [update_of_ne (numbered.held_cell_ne power elsewhere holds held)]

/-- The published positions after one more. -/
theorem published_append {entry : Nat × α} {accepted : List (Nat × α)} :
    place ∈ (accepted ++ [entry]).map Prod.fst ↔
      place ∈ accepted.map Prod.fst ∨ place = entry.1 := by
  simp

/-- A pop keeps what it knows when one more position is published. -/
theorem PopKnows.publish {stage : ReleaseStage α} (knows : PopKnows run stage)
    (popped : next.popped = run.popped) (read : next.queue.readIdx = run.queue.readIdx)
    (accepted : run.accepted <+: next.accepted) : PopKnows next stage := by
  have published {place : Nat} (old : run.Published place) : next.Published place :=
    (accepted.sublist.map Prod.fst).subset old
  cases stage with
  | idle => simpa only [PopKnows, popped, read] using knows
  | loaded pos => simpa only [PopKnows, popped, read] using knows
  | reloading => simpa only [PopKnows, popped, read] using knows
  | claiming pos =>
    simp only [PopKnows, popped, read] at knows ⊢
    exact ⟨knows.1, knows.2.1, published knows.2.2⟩
  | claimed pos =>
    simp only [PopKnows, popped, read] at knows ⊢
    exact ⟨knows.1, knows.2.1, published knows.2.2⟩
  | taken pos value =>
    simp only [PopKnows, popped, read] at knows ⊢
    exact ⟨knows.1, knows.2.1, accepted.subset knows.2.2⟩

section

variable (numbered : Numbered capacity run)
include numbered

/-- Storing the number of a written cell publishes it. -/
theorem Numbered.publish (power : PowerOfTwo capacity) (small : run.claims.length < 2 ^ 63)
    (stage : run.pushes producer = .written value pos) :
    Numbered capacity (run.produce capacity producer value false) := by
  have knows := numbered.pushes producer
  rw [stage] at knows
  obtain ⟨holding, stored⟩ := knows
  have bounds := numbered.holding_bounds holding
  have room := numbered.room
  have held : (run.pushes producer).Holds pos.toNat := by
    rw [stage]
    exact rfl
  have advanced : (pos + 1).toNat = pos.toNat + 1 := toNat_add_one (by omega)
  simp only [produce, stage]
  refine { numbered with
    claimed := ?_, once := ?_, released := ?_, sequence := ?_, data := ?_, apart := ?_
    pushes := ?_, pops := ?_ }
  · intro entry member
    rcases mem_append.mp member with old | new
    · exact numbered.claimed entry old
    · obtain rfl := mem_singleton.mp new
      exact holding.claim
  · change ((run.accepted ++ [(pos.toNat, value)]).map Prod.fst).Nodup
    rw [map_append, map_singleton, nodup_append]
    refine ⟨numbered.once, nodup_singleton _, ?_⟩
    intro place member other single same
    obtain rfl := mem_singleton.mp single
    have same : place = pos.toNat := same
    rw [same] at member
    exact holding.unpublished member
  · intro place inside
    exact published_append.mpr (.inl (numbered.released place inside))
  · intro place low high
    by_cases here : place = pos.toNat
    · have published : pos.toNat ∈ (run.accepted ++ [(pos.toNat, value)]).map Prod.fst :=
        published_append.mpr (.inr rfl)
      rw [here, ← masked_eq_mod power]
      split
      · simp only [update_self]
        exact advanced
      · rename_i absent
        exact absurd published absent
    · have cell := cell_ne power bounds.1 (by omega) low high here
      have same : place ∈ (run.accepted ++ [(pos.toNat, value)]).map Prod.fst ↔
          run.Published place := by
        rw [published_append]
        exact or_iff_left here
      simp only [Published, same, update_of_ne cell]
      exact numbered.sequence place low high
  · intro place low published
    by_cases here : place = pos.toNat
    · rw [here, ← masked_eq_mod power]
      simp only [update_self]
      rw [stored]
      exact holding.claim
    · have old : run.Published place := (published_append.mp published).resolve_right here
      have inside := numbered.published_lt old
      have cell := cell_ne power bounds.1 (by omega) low (by omega) here
      simp only [update_of_ne cell]
      exact numbered.data place low old
  · exact apart_update numbered.apart fun _ _ _ holds => holds.elim
  · refine knows_update (fun other elsewhere => ?_) trivial
    refine (numbered.pushes other).mono (prefix_refl _) (Nat.le_refl _) ?_ ?_
    · intro place holds kept published
      have different := numbered.place_ne elsewhere holds held
      exact kept ((published_append.mp published).resolve_right different)
    · intro otherPos holds
      simp only [update_of_ne (numbered.held_cell_ne power elsewhere holds held)]
  · exact numbered.pops.publish rfl rfl (prefix_append _ _)

/-- A step of a push keeps the numbers right. -/
theorem Numbered.produce (power : PowerOfTwo capacity) (two : 2 ≤ capacity.toNat) {spurious : Bool}
    (small : (run.produce capacity producer value spurious).claims.length < 2 ^ 63) :
    Numbered capacity (run.produce capacity producer value spurious) := by
  have knows := numbered.pushes producer
  have current : run.queue.writeIdx.toNat ≤ run.claims.length := Nat.le_of_eq numbered.write
  cases stage : run.pushes producer with
  | idle =>
    simp only [MpscRun.produce, stage]
    exact numbered.move producer (.loaded _ _) current (fun _ => id) run.refused
  | reloading value =>
    simp only [MpscRun.produce, stage]
    exact numbered.move producer (.loaded _ _) current (fun _ => id) run.refused
  | loaded value pos =>
    simp only [MpscRun.produce, stage]
    split
    · rename_i zero
      have same := signed_sub_eq_zero.mp zero
      exact numbered.move producer (.claiming _ _) (numbered.near_of_free power two same)
        (fun _ => id) run.refused
    · split
      · exact numbered.move producer .idle trivial (fun _ => id) _
      · exact numbered.move producer (.reloading _) trivial (fun _ => id) run.refused
  | claiming value pos =>
    rw [stage] at knows
    simp only [MpscRun.produce, stage] at small ⊢
    split
    · rename_i won
      rw [if_pos won] at small
      refine numbered.claim knows won.1 ?_
      simpa only [length_append, length_singleton] using small
    · exact numbered.move producer (.loaded _ _) current (fun _ => id) run.refused
  | claimed value pos =>
    have moved := numbered.write_data power stage
    simp only [MpscRun.produce, stage] at moved ⊢
    exact moved
  | written value pos =>
    have shorter : run.claims.length < 2 ^ 63 := by
      simpa only [MpscRun.produce, stage] using small
    have moved := numbered.publish power shorter stage
    simp only [MpscRun.produce, stage] at moved ⊢
    exact moved

/-! ## Steps of a pop -/

/-- A pop may move to any stage it knows enough for. -/
theorem Numbered.advance {stage : ReleaseStage α} {readIdx : UInt64}
    (here : PopKnows { run with queue := { run.queue with readIdx } } stage) :
    Numbered capacity { run with queue := { run.queue with readIdx }, pop := stage } :=
  { numbered with
    pushes := fun producer => (numbered.pushes producer).mono (prefix_refl _) (Nat.le_refl _)
      (fun _ _ kept => kept) (fun _ _ => rfl)
    pops := by cases stage <;> exact here }

variable (power : PowerOfTwo capacity) (small : run.claims.length < 2 ^ 63)
include power small

/-- The cell at the read index carries the next position exactly if it is published. -/
theorem Numbered.published_of_next (current : pos.toNat = run.popped.length) :
    (run.queue.buffer (masked capacity pos)).sequence = pos + 1 ↔
      run.Published run.popped.length := by
  have positive := power.positive
  have ordered := numbered.popped_le
  have number := numbered.sequence run.popped.length (Nat.le_refl _) (by omega)
  have advanced : (pos + 1).toNat = run.popped.length + 1 := by
    rw [toNat_add_one (by omega), current]
  rw [← UInt64.toNat_inj, advanced, masked_eq_mod power, current, number]
  by_cases published : run.Published run.popped.length
  · simp [published]
  · simp [published]

/-- Moving the number of a read cell on by a lap releases it. -/
theorem Numbered.release (stage : run.pop = .taken pos value) :
    Numbered capacity (run.consume capacity false) := by
  have knows := numbered.pops
  rw [stage] at knows
  obtain ⟨read, current, member⟩ := knows
  have published : run.Published run.popped.length := mem_map_of_mem member
  have claim : run.claims[run.popped.length]? = some value := numbered.claimed _ member
  have room := numbered.room
  have ordered := numbered.popped_le
  obtain ⟨bits, few, size⟩ := id power
  have bound : 2 ^ bits ≤ 2 ^ 63 := Nat.pow_le_pow_right (by decide) (by omega)
  have positive := Nat.two_pow_pos bits
  have lap : (pos + capacity).toNat = run.popped.length + capacity.toNat := by
    rw [UInt64.toNat_add, current]
    exact Nat.mod_eq_of_lt (by omega)
  simp only [consume, stage]
  refine { numbered with
    room := ?_, first := ?_, released := ?_, sequence := ?_, data := ?_, pushes := ?_, pops := ?_ }
  · simp only [length_append, length_singleton]
    omega
  · change run.popped ++ [value] = run.claims.take (run.popped ++ [value]).length
    rw [length_append, length_singleton, take_add_one, ← numbered.first, claim]
    rfl
  · intro place inside
    simp only [length_append, length_singleton] at inside
    by_cases last : place = run.popped.length
    · rw [last]
      exact published
    · exact numbered.released place (by omega)
  · intro place low high
    simp only [length_append, length_singleton] at low high
    by_cases last : place = run.popped.length + capacity.toNat
    · -- The released cell is the one of the position a lap ahead, which nobody has claimed.
      have fresh : ¬run.Published place := by
        intro other
        have inside := numbered.published_lt other
        omega
      split
      · rename_i other
        exact absurd other fresh
      · have cell : place % capacity.toNat = masked capacity pos := by
          rw [last, Nat.add_mod_right, masked_eq_mod power, current]
        simp only [cell, update_self]
        rw [last]
        exact lap
    · have cell := cell_ne power (Nat.le_of_eq current.symm) (by omega)
        (show run.popped.length ≤ place by omega) (by omega) (by omega)
      simp only [update_of_ne cell]
      exact numbered.sequence place (by omega) (by omega)
  · intro place low other
    simp only [length_append, length_singleton] at low
    have inside := numbered.published_lt other
    have cell := cell_ne power (Nat.le_of_eq current.symm) (by omega)
      (show run.popped.length ≤ place by omega) (by omega) (by omega)
    simp only [update_of_ne cell]
    exact numbered.data place (by omega) other
  · intro producer
    refine (numbered.pushes producer).mono (prefix_refl _) ?_ (fun _ _ kept => kept) ?_
    · simp only [length_append, length_singleton]
      omega
    · intro other _
      by_cases here : masked capacity other = masked capacity pos
      · simp only [here, update_self]
      · simp only [update_of_ne here]
  · simp only [PopKnows, length_append, length_singleton]
    exact read

/-- A step of a pop keeps the numbers right. -/
theorem Numbered.consume (spurious : Bool) :
    Numbered capacity (run.consume capacity spurious) := by
  have knows := numbered.pops
  cases stage : run.pop with
  | idle =>
    rw [stage] at knows
    simp only [MpscRun.consume, stage]
    exact numbered.advance ⟨knows, knows⟩
  | reloading =>
    rw [stage] at knows
    simp only [MpscRun.consume, stage]
    exact numbered.advance ⟨knows, knows⟩
  | loaded pos =>
    rw [stage] at knows
    obtain ⟨read, current⟩ := knows
    simp only [MpscRun.consume, stage]
    split
    · rename_i zero
      have published := (numbered.published_of_next power small current).mp
        (signed_sub_eq_zero.mp zero)
      exact numbered.advance ⟨read, current, published⟩
    · split
      · exact numbered.advance read
      · exact numbered.advance read
  | claiming pos =>
    rw [stage] at knows
    obtain ⟨read, current, published⟩ := knows
    simp only [MpscRun.consume, stage]
    split
    · have ordered := numbered.popped_le
      have advanced : (pos + 1).toNat = run.popped.length + 1 := by
        rw [toNat_add_one (by omega), current]
      exact numbered.advance ⟨advanced, current, published⟩
    · exact numbered.advance ⟨read, read⟩
  | claimed pos =>
    rw [stage] at knows
    obtain ⟨read, current, published⟩ := knows
    simp only [MpscRun.consume, stage]
    -- The value read is the one published for this position.
    have stored := numbered.data run.popped.length (Nat.le_refl _) published
    obtain ⟨entry, member, place⟩ := mem_map.mp published
    have claim := numbered.claimed entry member
    rw [place, stored] at claim
    have value := Option.some.inj claim
    refine numbered.advance ⟨read, current, ?_⟩
    rw [masked_eq_mod power, current, value, ← place]
    exact member
  | taken pos value =>
    have moved := numbered.release power small stage
    simp only [MpscRun.consume, stage] at moved ⊢
    exact moved

end

/-- Claims are never withdrawn. -/
theorem claims_step {input : MpscStep α producers} (taken : run.step capacity input = .ok next) :
    run.claims.length ≤ next.claims.length := by
  cases input with
  | produce producer value spurious =>
    cases taken
    unfold MpscRun.produce
    cases run.pushes producer <;> dsimp only
    · exact Nat.le_refl _
    · split
      · exact Nat.le_refl _
      · split <;> exact Nat.le_refl _
    · split
      · simp
      · exact Nat.le_refl _
    all_goals exact Nat.le_refl _
  | consume spurious =>
    cases taken
    unfold MpscRun.consume
    cases run.pop <;> dsimp only
    · exact Nat.le_refl _
    · split
      · exact Nat.le_refl _
      · split <;> exact Nat.le_refl _
    · split <;> exact Nat.le_refl _
    all_goals exact Nat.le_refl _

/-- Every interleaving keeps the numbers right while the write index is below 2^63. -/
theorem Numbered.of_run (power : PowerOfTwo capacity) (two : 2 ≤ capacity.toNat)
    {steps : List (MpscStep α producers)}
    (ran : runAll (step capacity) (MpscRun.start data) steps = .ok run)
    (small : run.claims.length < 2 ^ 63) : Numbered capacity run := by
  have kept : run.claims.length < 2 ^ 63 → Numbered capacity run := by
    apply @runAll_invariant _ _ _ _ (fun run => run.claims.length < 2 ^ 63 → Numbered capacity run)
      _ _ _ (fun _ => Numbered.start power) ?_ ran
    intro run input next numbered taken short
    have longer := claims_step taken
    have before := numbered (by omega)
    cases input with
    | produce producer value spurious =>
      cases taken
      exact before.produce power two short
    | consume spurious =>
      cases taken
      exact before.consume power (by omega) spurious
  exact kept small

/-! ## What the parties rely on -/

/-- The order of claims is the order of pops, and a pop returns what the push of its position
wrote. -/
structure MultiProducer (capacity : UInt64) (run : MpscRun α producers) : Prop where
  /-- Values come out in the order in which their positions were claimed. -/
  inOrder : run.popped <+: run.claims
  /-- A push that returned true has put its value at the position it claimed. -/
  placed : ∀ entry ∈ run.accepted, run.claims[entry.1]? = some entry.2
  /-- No two pushes have one position, so none is popped twice. -/
  once : (run.accepted.map Prod.fst).Nodup
  /-- Every value popped was written by the push of its position, which had returned true. -/
  written : ∀ place value, run.popped[place]? = some value → (place, value) ∈ run.accepted
  /-- A pop that reads the cell after all earlier claims are popped does not miss the value. -/
  next : ∀ value pos spurious, (run.popped.length, value) ∈ run.accepted →
    run.pop = .loaded pos → (run.consume capacity spurious).pop = .claiming pos

/-- A push returns false only at an allowed position, stated of the state in which it reads the
cell. -/
def RefusesOnly (capacity : UInt64) (run : MpscRun α producers) (allowed : UInt64 → Prop) : Prop :=
  ∀ producer value pos other spurious, run.pushes producer = .loaded value pos →
    (run.produce capacity producer other spurious).refused ≠ run.refused → allowed pos

/-- The value a lap before the position has not been released. -/
def Unreleased (capacity : UInt64) (run : MpscRun α producers) (pos : UInt64) : Prop :=
  run.popped.length + capacity.toNat ≤ pos.toNat

/-- The position was loaded so long ago that the signed difference to its cell's number can
overflow. -/
def Stale (capacity : UInt64) (run : MpscRun α producers) (pos : UInt64) : Prop :=
  pos.toNat + 2 ^ 63 ≤ run.popped.length + capacity.toNat

/-- The numbers give the guarantee. -/
theorem Numbered.multiProducer (numbered : Numbered capacity run) (power : PowerOfTwo capacity)
    (small : run.claims.length < 2 ^ 63) : MultiProducer capacity run where
  inOrder := by
    rw [numbered.first]
    exact take_prefix _ _
  placed := numbered.claimed
  once := numbered.once
  written := by
    intro place value popped
    obtain ⟨inside, _⟩ := List.getElem?_eq_some_iff.mp popped
    obtain ⟨entry, member, here⟩ := mem_map.mp (numbered.released place inside)
    have claim := numbered.claimed entry member
    have same : run.claims[place]? = some value := by
      rw [numbered.first, List.getElem?_take_of_lt inside] at popped
      exact popped
    rw [here, same] at claim
    rw [Option.some.inj claim, ← here]
    exact member
  next := by
    intro value pos spurious member stage
    have knows := numbered.pops
    rw [stage] at knows
    have published : run.Published run.popped.length := mem_map_of_mem member
    have number := (numbered.published_of_next power small knows.2).mpr published
    simp only [MpscRun.consume, stage, signed_sub_eq_zero.mpr number, if_true]

/-- A refused push has read a number of an earlier lap, or one ahead by half the range. -/
theorem Numbered.refusesOnly (numbered : Numbered capacity run) (power : PowerOfTwo capacity) :
    run.RefusesOnly capacity fun pos => run.Unreleased capacity pos ∨ run.Stale capacity pos := by
  intro producer value pos other spurious stage refused
  simp only [MpscRun.produce, stage] at refused
  obtain ⟨place, low, high, cell, number⟩ := numbered.read_cell power pos
  have upper : (run.queue.buffer (masked capacity pos)).sequence.toNat ≤ place + 1 := by
    rw [number]
    split <;> omega
  have lower : place ≤ (run.queue.buffer (masked capacity pos)).sequence.toNat := by
    rw [number]
    split <;> omega
  split at refused
  · exact absurd rfl refused
  · split at refused
    · rename_i negative
      rcases lt_or_far_of_signed_sub_neg negative with behind | ahead
      · left
        -- The number belongs to an earlier position of the same cell, so to an earlier lap.
        have divides := (Nat.modEq_iff_dvd' (show place ≤ pos.toNat by omega)).mp cell
        have lap := Nat.le_of_dvd (by omega) divides
        unfold Unreleased
        omega
      · right
        unfold Stale
        omega
    · exact absurd rfl refused

/-- In every interleaving, while the write index is below 2^63, values are popped in the order of
their claims, each as its push wrote it, and a push returns false only if the value a lap before
its position is unreleased or its position is stale. -/
theorem multiProducer_of_run (power : PowerOfTwo capacity) (two : 2 ≤ capacity.toNat)
    (data : Nat → α) (steps : List (MpscStep α producers))
    (ran : runAll (step capacity) (MpscRun.start data) steps = .ok run)
    (small : run.claims.length < 2 ^ 63) :
    MultiProducer capacity run ∧
      run.RefusesOnly capacity fun pos => run.Unreleased capacity pos ∨ run.Stale capacity pos :=
  have numbered := Numbered.of_run power two ran small
  ⟨numbered.multiProducer power small, numbered.refusesOnly power⟩

/-! ## Calls that run alone -/

/-- A push that runs alone while there is room returns true. -/
theorem Numbered.push_alone (numbered : Numbered capacity run) (power : PowerOfTwo capacity)
    (room : run.claims.length < run.popped.length + capacity.toNat)
    (idle : run.pushes producer = .idle) (value : α) :
    ∃ next, runAll (step capacity) run (replicate 5 (.produce producer value false)) =
        .ok next ∧
      next.pushes = run.pushes ∧ next.pop = run.pop ∧ next.popped = run.popped ∧
      next.claims = run.claims ++ [value] ∧
      next.accepted = run.accepted ++ [(run.claims.length, value)] := by
  have unpublished : ¬run.Published run.claims.length := fun published =>
    absurd (numbered.published_lt published) (Nat.lt_irrefl _)
  have number := numbered.sequence run.claims.length numbered.popped_le room
  rw [if_neg unpublished, ← numbered.write, ← masked_eq_mod power] at number
  have free := UInt64.toNat_inj.mp number
  have ran : runAll (step capacity) run (replicate 5 (.produce producer value false)) =
      .ok { run with
        queue := { run.queue with
          buffer := update run.queue.buffer (masked capacity run.queue.writeIdx)
            ⟨run.queue.writeIdx + 1, value⟩
          writeIdx := run.queue.writeIdx + 1 }
        pushes := update run.pushes producer .idle
        claims := run.claims ++ [value]
        accepted := run.accepted ++ [(run.queue.writeIdx.toNat, value)] } := by
    simp [replicate, runAll, step, MpscRun.produce, idle, free]
  refine ⟨_, ran, ?_, rfl, rfl, rfl, ?_⟩
  · change update run.pushes producer .idle = run.pushes
    rw [← idle, update_eq_self]
  · rw [numbered.write]

/-- A pop that runs alone while the next position is published returns a value. -/
theorem Numbered.pop_alone (numbered : Numbered capacity run) (power : PowerOfTwo capacity)
    (small : run.claims.length < 2 ^ 63) (published : run.Published run.popped.length)
    (idle : run.pop = .idle) :
    ∃ next, runAll (step capacity) run (replicate 5 (.consume false)) = .ok next ∧
      next.pushes = run.pushes ∧ next.pop = .idle ∧ next.claims = run.claims ∧
      next.popped.length = run.popped.length + 1 := by
  have read : run.queue.readIdx.toNat = run.popped.length := by
    have knows := numbered.pops
    rw [idle] at knows
    exact knows
  have number := (numbered.published_of_next power small read).mpr published
  have ran : runAll (step capacity) run (replicate 5 (.consume false)) =
      .ok { run with
        queue := { run.queue with
          buffer := update run.queue.buffer (masked capacity run.queue.readIdx)
            ⟨run.queue.readIdx + capacity,
              (run.queue.buffer (masked capacity run.queue.readIdx)).data⟩
          readIdx := run.queue.readIdx + 1 }
        pop := .idle
        popped := run.popped ++
          [(run.queue.buffer (masked capacity run.queue.readIdx)).data] } := by
    simp [replicate, runAll, step, MpscRun.consume, idle, number]
  exact ⟨_, ran, rfl, rfl, rfl, length_append⟩

end

/-! ## Concrete queues -/

/-- Two producers on two cells: the second overtakes the first, whose compare-exchange fails once
for no reason, and both values are popped in the order of their claims. -/
theorem multiProducer_of_run_overtaken :
    ∃ run : MpscRun Nat 2, runAll (step 2) (MpscRun.start fun _ => 0)
        (replicate 2 (.produce 0 7 false) ++ [.produce 0 7 true] ++
          replicate 5 (.produce 1 8 false) ++ replicate 6 (.produce 0 7 false) ++
          replicate 10 (.consume false)) = .ok run ∧
      run.popped = [8, 7] ∧ MultiProducer 2 run ∧
        run.RefusesOnly 2 fun pos => run.Unreleased 2 pos ∨ run.Stale 2 pos := by
  have returns : Returns (fun run : MpscRun Nat 2 => run.popped = [8, 7] ∧
      run.claims.length < 2 ^ 63)
      (runAll (step 2) (MpscRun.start fun _ => 0)
        (replicate 2 (.produce 0 7 false) ++ [.produce 0 7 true] ++
          replicate 5 (.produce 1 8 false) ++ replicate 6 (.produce 0 7 false) ++
          replicate 10 (.consume false))) := by
    decide +kernel
  obtain ⟨run, ran, popped, small⟩ := returns.exists
  exact ⟨run, ran, popped,
    multiProducer_of_run ⟨1, by decide, rfl⟩ (by decide) _ _ ran small⟩

/-- A producer stands still after loading position 0 while values pass through two cells. -/
theorem exists_stalled (count : Nat) (small : count < 2 ^ 63) :
    ∃ (steps : List (MpscStep Nat 2)) (run : MpscRun Nat 2),
      runAll (step 2) (MpscRun.start fun _ => 0) steps = .ok run ∧
      run.claims.length = count ∧ run.popped.length = count ∧
      run.pushes 0 = .loaded 7 0 ∧ run.pushes 1 = .idle ∧ run.pop = .idle := by
  have power : PowerOfTwo 2 := ⟨1, by decide, rfl⟩
  have two : 2 ≤ (2 : UInt64).toNat := by decide
  induction count with
  | zero => exact ⟨[.produce 0 7 false], _, rfl, rfl, rfl, rfl, rfl, rfl⟩
  | succ count ih =>
    obtain ⟨steps, run, ran, claims, popped, stalled, ready, quiet⟩ := ih (by omega)
    have numbered := Numbered.of_run power two ran (by omega)
    obtain ⟨pushed, pushRan, pushes, pop, samePopped, newClaims, accepted⟩ :=
      numbered.push_alone power (by omega) ready 8
    have reached : runAll (step 2) (MpscRun.start fun _ => 0)
        (steps ++ replicate 5 (.produce 1 8 false)) = .ok pushed := by
      rw [runAll_append, ran]
      exact pushRan
    have length : pushed.claims.length = count + 1 := by
      rw [newClaims, length_append, claims]
      rfl
    have published : pushed.Published pushed.popped.length := by
      rw [samePopped, popped, Published, accepted, claims]
      exact published_append.mpr (.inr rfl)
    have again := Numbered.of_run power two reached (by omega)
    obtain ⟨final, popRan, finalPushes, finalPop, finalClaims, finalPopped⟩ :=
      again.pop_alone power (by omega) published (pop.trans quiet)
    refine ⟨steps ++ replicate 5 (.produce 1 8 false) ++ replicate 5 (.consume false),
      final, ?_, ?_, ?_, ?_, ?_, finalPop⟩
    · rw [runAll_append, reached]
      exact popRan
    · rw [finalClaims]
      exact length
    · rw [finalPopped, samePopped, popped]
    · rw [finalPushes, pushes]
      exact stalled
    · rw [finalPushes, pushes]
      exact ready

/-- Both indices are at 2^63 - 1 and the queue is empty. The push that loaded position 0 reads the
number 2^63, whose signed value is negative, and returns false. -/
theorem stalled_push_refused :
    ∃ (steps : List (MpscStep Nat 2)) (run : MpscRun Nat 2),
      runAll (step 2) (MpscRun.start fun _ => 0) steps = .ok run ∧
      run.claims.length < 2 ^ 63 ∧ run.popped.length = run.claims.length ∧
      (run.produce 2 0 7 false).refused ≠ run.refused ∧
      ¬run.RefusesOnly 2 (run.Unreleased 2) := by
  have power : PowerOfTwo 2 := ⟨1, by decide, rfl⟩
  obtain ⟨steps, run, ran, claims, popped, stalled, _, _⟩ :=
    exists_stalled (2 ^ 63 - 1) (by decide)
  have numbered := Numbered.of_run power (by decide) ran (by omega)
  have fresh : ¬run.Published (2 ^ 63) := by
    intro published
    have inside := numbered.published_lt published
    omega
  have size : (2 : UInt64).toNat = 2 := rfl
  have number := numbered.sequence (2 ^ 63) (by omega) (by omega)
  rw [if_neg fresh] at number
  have cell : (run.queue.buffer (masked 2 0)).sequence = UInt64.ofNat (2 ^ 63) := by
    rw [← UInt64.toNat_inj]
    exact number
  have refused : (run.produce 2 0 7 false).refused ≠ run.refused := by
    have zero : ¬((UInt64.ofNat (2 ^ 63)).toInt64 - (0 : UInt64).toInt64 = 0) := by decide
    have negative : (UInt64.ofNat (2 ^ 63)).toInt64 - (0 : UInt64).toInt64 < 0 := by decide
    simp only [produce, stalled, cell, if_neg zero, if_pos negative]
    simp
  refine ⟨steps, run, ran, by omega, by omega, refused, ?_⟩
  intro only
  have full : run.popped.length + (2 : UInt64).toNat ≤ (0 : UInt64).toNat :=
    only 0 7 0 7 false stalled refused
  have nothing : (0 : UInt64).toNat = 0 := rfl
  omega

end MpscRun

end FluxTrade
