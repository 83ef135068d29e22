import Mathlib.Data.List.Count
import Mathlib.Data.Nat.ModEq
import Mathlib.Logic.Function.Basic

/-!
# Sliding windows

Events are listed by their times, the first one first, and times do not
decrease. A window is the span of a given length that ends at some time. A ring
of fixed size holds the latest events, each at its number modulo the size, so
the events of a window are counted by a look at one place of the ring.
-/

namespace SlidingWindow

variable {span now limit size : Nat} {times : List Nat}

/-- The events that are younger than the span. -/
def recent (span now : Nat) (times : List Nat) : Nat :=
  times.countP fun time => now - time < span

/-- The events of the window that ends at a time, later events left out. -/
def within (span stop : Nat) (times : List Nat) : Nat :=
  times.countP fun time => time ≤ stop ∧ stop - time < span

/-- The ring holds the latest events. -/
def Holds (size : Nat) (ring : Nat → Nat) (times : List Nat) : Prop :=
  ∀ place time, times[place]? = some time → times.length ≤ place + size →
    ring (place % size) = time

/-! ## Counting -/

/-- Events leave the window as time goes on. -/
theorem recent_anti {later : Nat} (order : now ≤ later) (times : List Nat) :
    recent span later times ≤ recent span now times := by
  apply List.countP_mono_left
  intro time _ young
  have bound := of_decide_eq_true young
  apply decide_eq_true
  omega

/-- Events of two stretches. -/
theorem recent_append (span now : Nat) (front back : List Nat) :
    recent span now (front ++ back) = recent span now front + recent span now back :=
  List.countP_append

/-- Fewer than `limit` events are in the window exactly if the event that lies `limit` back is
not. -/
theorem recent_lt_iff {oldest : Nat} (sorted : times.Pairwise (· ≤ ·))
    (positive : 0 < limit) (enough : limit ≤ times.length)
    (found : times[times.length - limit]? = some oldest) :
    recent span now times < limit ↔ span ≤ now - oldest := by
  obtain ⟨inside, isOldest⟩ := List.getElem?_eq_some_iff.mp found
  -- The events before the oldest one are no younger, and those after it no older.
  have split : times = times.take (times.length - limit) ++
      oldest :: times.drop (times.length - limit + 1) := by
    rw [← isOldest, ← List.drop_eq_getElem_cons inside, List.take_append_drop]
  generalize front_eq : times.take (times.length - limit) = front at split
  generalize back_eq : times.drop (times.length - limit + 1) = back at split
  have length : back.length = limit - 1 := by
    rw [← back_eq, List.length_drop]
    omega
  rw [split] at sorted ⊢
  obtain ⟨_, behind, across⟩ := List.pairwise_append.mp sorted
  have older (time : Nat) (member : time ∈ front) : time ≤ oldest :=
    across time member oldest List.mem_cons_self
  have younger (time : Nat) (member : time ∈ back) : oldest ≤ time :=
    (List.pairwise_cons.mp behind).1 time member
  constructor
  · intro few
    by_contra young
    have all : recent span now (oldest :: back) = (oldest :: back).length := by
      apply List.countP_eq_length.mpr
      intro time member
      apply decide_eq_true
      rcases List.mem_cons.mp member with rfl | later
      · omega
      · have order := younger time later
        omega
    rw [recent_append, all, List.length_cons, length] at few
    omega
  · intro old
    have none : recent span now (front ++ [oldest]) = 0 := by
      apply List.countP_eq_zero.mpr
      intro time member young
      have bound := of_decide_eq_true young
      rcases List.mem_append.mp member with early | last
      · have order := older time early
        omega
      · rw [List.mem_singleton.mp last] at bound
        omega
    have rest : recent span now back ≤ back.length := List.countP_le_length
    rw [List.append_cons, recent_append, none]
    omega

/-- Where fewer than `limit` events are in the window, one more leaves no window with more than
`limit` events. -/
theorem within_append_le (bounded : ∀ stop, within span stop times ≤ limit)
    (few : recent span now times < limit) (stop : Nat) :
    within span stop (times ++ [now]) ≤ limit := by
  have old := bounded stop
  rw [within, List.countP_append] at *
  by_cases early : stop < now
  · have outside : ([now].countP fun time => decide (time ≤ stop ∧ stop - time < span)) = 0 := by
      simp [Nat.not_le.mpr early]
    omega
  · have inside : ([now].countP fun time => decide (time ≤ stop ∧ stop - time < span)) ≤ 1 :=
      List.countP_le_length
    have fewer : (times.countP fun time => decide (time ≤ stop ∧ stop - time < span)) ≤
        recent span stop times := by
      apply List.countP_mono_left
      intro time _ both
      exact decide_eq_true (of_decide_eq_true both).2
    have later := @recent_anti span now stop (Nat.le_of_not_lt early) times
    omega

/-! ## The ring -/

/-- Nothing has happened. -/
theorem Holds.nil (size : Nat) (ring : Nat → Nat) : Holds size ring [] := by
  intro place time found
  cases found

/-- A new event takes the place of the oldest one. -/
theorem Holds.push {ring : Nat → Nat} (holds : Holds size ring times) (now : Nat) :
    Holds size (Function.update ring (times.length % size) now) (times ++ [now]) := by
  intro place time found latest
  rw [List.length_append, List.length_singleton] at latest
  by_cases last : place = times.length
  · rw [last, List.getElem?_concat_length] at found
    rw [last, Function.update_self]
    exact Option.some.inj found
  · obtain ⟨inside, _⟩ := List.getElem?_eq_some_iff.mp found
    rw [List.length_append, List.length_singleton] at inside
    have before : place < times.length := by omega
    have apart : place % size ≠ times.length % size := by
      intro same
      -- Two places of one ring are a multiple of its size apart.
      have multiple : size ∣ times.length - place := (Nat.modEq_iff_dvd' (by omega)).mp same
      have far := Nat.le_of_dvd (by omega) multiple
      omega
    rw [Function.update_of_ne apart]
    rw [List.getElem?_append_left before] at found
    exact holds place time found (by omega)

end SlidingWindow
