import Mathlib.Data.List.Infix

/-!
# Streams of frames

A stream is a sequence of frames, each of which tells its own length near its
front. A reader that takes whole frames from the front of what has arrived, and
keeps the rest, takes the frames of the stream in order and keeps a part of the
next one, however the stream arrives.
-/

namespace Framing

open List

variable {α : Type*} {size : List α → Option Nat}

/-- What is known of the length of the first frame stays so when more arrives. -/
def Stable (size : List α → Option Nat) : Prop :=
  ∀ bytes rest length, size bytes = some length → size (bytes ++ rest) = some length

/-- A frame that tells its own length. -/
structure Whole (size : List α → Option Nat) (frame : List α) : Prop where
  nonempty : frame ≠ []
  size_eq : size frame = some frame.length

/-- The first frame of what has arrived, with the rest, once all of it has arrived. -/
def next (size : List α → Option Nat) (bytes : List α) : Option (List α × List α) :=
  match size bytes with
  | none => none
  | some length =>
    if bytes.length < length then none else some (bytes.take length, bytes.drop length)

/-- A whole frame is taken. -/
theorem Whole.next_append {frame : List α} (whole : Whole size frame) (stable : Stable size)
    (rest : List α) : next size (frame ++ rest) = some (frame, rest) := by
  have known := stable frame rest frame.length whole.size_eq
  have enough : ¬(frame ++ rest).length < frame.length := by
    rw [length_append]
    omega
  rw [next, known]
  simp only [enough, if_false, take_left, drop_left]

/-- What has arrived of the first of the given frames, which is not all of it. -/
def Incomplete (residue : List α) : List (List α) → Prop
  | [] => residue = []
  | frame :: _ => residue <+: frame ∧ residue.length < frame.length

/-- A part is not taken. -/
theorem Incomplete.next_eq {residue : List α} {later : List (List α)}
    (incomplete : Incomplete residue later) (stable : Stable size)
    (whole : ∀ frame ∈ later, Whole size frame) : residue = [] ∨ next size residue = none := by
  cases later with
  | nil => exact .inl incomplete
  | cons frame later =>
    obtain ⟨⟨missing, joined⟩, short⟩ := incomplete
    right
    unfold next
    cases known : size residue with
    | none => rfl
    | some length =>
      have same := stable residue missing length known
      rw [joined, (whole frame mem_cons_self).size_eq] at same
      cases same
      simp only [short, if_true]

/-- The reader takes `frames` from the front of `bytes` and keeps `residue`. -/
inductive Cut (size : List α → Option Nat) : List α → List (List α) → List α → Prop
  | wait {residue} (stops : residue = [] ∨ next size residue = none) : Cut size residue [] residue
  | take {bytes frame rest frames residue} (nonempty : bytes ≠ [])
      (first : next size bytes = some (frame, rest)) (later : Cut size rest frames residue) :
      Cut size bytes (frame :: frames) residue

/-- What is taken is a frame. -/
theorem next_eq_some {bytes frame rest : List α} (first : next size bytes = some (frame, rest)) :
    bytes = frame ++ rest ∧ size bytes = some frame.length := by
  unfold next at first
  cases known : size bytes with
  | none =>
    rw [known] at first
    cases first
  | some length =>
    rw [known] at first
    by_cases short : bytes.length < length
    · simp only [short, if_true] at first
      cases first
    · simp only [short, if_false] at first
      cases first
      have full : min length bytes.length = length := by omega
      rw [length_take, full]
      exact ⟨(take_append_drop length bytes).symm, rfl⟩

/-- A cut leaves nothing out. -/
theorem Cut.flatten_append {bytes residue : List α} {frames : List (List α)}
    (cut : Cut size bytes frames residue) : frames.flatten ++ residue = bytes := by
  induction cut with
  | wait _ => rfl
  | take _ first _ ih => rw [flatten_cons, append_assoc, ih, (next_eq_some first).1]

/-- Whole frames followed by a part of the next one are cut where they end. -/
theorem cut_flatten {frames later : List (List α)} {residue : List α} (stable : Stable size)
    (whole : ∀ frame ∈ frames ++ later, Whole size frame) (incomplete : Incomplete residue later) :
    Cut size (frames.flatten ++ residue) frames residue := by
  induction frames with
  | nil => exact .wait (incomplete.next_eq stable whole)
  | cons frame frames ih =>
    have here := whole frame mem_cons_self
    rw [flatten_cons, append_assoc]
    apply Cut.take
    · simp [here.nonempty]
    · exact here.next_append stable _
    · exact ih fun other member => whole other (mem_cons_of_mem _ member)

/-- The reader comes to the bytes `rest` of `bytes`, in front of which it has taken whole frames. -/
inductive Reaches (size : List α → Option Nat) : List α → List α → Prop
  | here {bytes} : Reaches size bytes bytes
  | after {bytes frame rest last} (nonempty : bytes ≠ [])
      (first : next size bytes = some (frame, rest)) (later : Reaches size rest last) :
      Reaches size bytes last

/-- Every frame that the reader comes to has the property. -/
def Frames (size : List α → Option Nat) (property : List α → Prop) (bytes : List α) : Prop :=
  ∀ rest frame later, Reaches size bytes rest → rest ≠ [] → next size rest = some (frame, later) →
    property frame

/-- The frames of a cut are those that the reader comes to. -/
theorem Cut.frames {property : List α → Prop} {bytes residue : List α} {frames : List (List α)}
    (cut : Cut size bytes frames residue) (each : ∀ frame ∈ frames, property frame) :
    Frames size property bytes := by
  intro rest last later reached
  induction reached generalizing frames with
  | here =>
    intro nonempty taken
    cases cut with
    | wait stops =>
      rcases stops with empty | waits
      · exact absurd empty nonempty
      · rw [waits] at taken
        cases taken
    | take _ first _ =>
      rw [first] at taken
      cases taken
      exact each _ mem_cons_self
  | after nonempty taken _ ih =>
    cases cut with
    | wait stops =>
      rcases stops with empty | waits
      · exact absurd empty nonempty
      · rw [waits] at taken
        cases taken
    | take _ first behind =>
      rw [first] at taken
      cases taken
      exact ih behind fun frame member => each frame (mem_cons_of_mem _ member)

/-- Bytes are cut when no frame that the reader comes to is empty. -/
theorem Frames.exists_cut {property : List α → Prop} {bytes : List α}
    (each : Frames size property bytes) (nonempty : ∀ frame, property frame → frame ≠ []) :
    ∃ frames residue, Cut size bytes frames residue ∧ ∀ frame ∈ frames, property frame := by
  induction length : bytes.length using Nat.strong_induction_on generalizing bytes with
  | _ count ih =>
    by_cases empty : bytes = []
    · exact ⟨[], bytes, .wait (.inl empty), by simp⟩
    cases first : next size bytes with
    | none => exact ⟨[], bytes, .wait (.inr first), by simp⟩
    | some taken =>
      obtain ⟨frame, rest⟩ := taken
      have here : property frame := each bytes frame rest .here empty first
      have shorter : rest.length < count := by
        have joined := congrArg List.length (next_eq_some first).1
        have positive := length_pos_iff.mpr (nonempty frame here)
        rw [length_append] at joined
        omega
      have behind : Frames size property rest := by
        intro last other later reached
        exact each last other later (.after empty first reached)
      obtain ⟨frames, residue, cut, all⟩ := ih rest.length shorter behind rfl
      exact ⟨frame :: frames, residue, .take empty first cut, forall_mem_cons.mpr ⟨here, all⟩⟩

/-- There are at most as many nonempty frames as bytes. -/
theorem Cut.length_le {bytes residue : List α} {frames : List (List α)}
    (cut : Cut size bytes frames residue) (nonempty : ∀ frame ∈ frames, frame ≠ []) :
    frames.length ≤ bytes.length := by
  induction cut with
  | wait _ => exact Nat.zero_le _
  | take _ first _ ih =>
    have shorter := ih fun frame member => nonempty frame (mem_cons_of_mem _ member)
    have positive := length_pos_iff.mpr (nonempty _ mem_cons_self)
    rw [(next_eq_some first).1, length_append, length_cons]
    omega

/-- When all of a stream has arrived, no frame is incomplete. -/
theorem Incomplete.eq_nil {residue : List α} {later : List (List α)}
    (incomplete : Incomplete residue later) (all : later.flatten = residue) : later = [] := by
  cases later with
  | nil => rfl
  | cons frame later =>
    have short := incomplete.2
    rw [← all, flatten_cons, length_append] at short
    omega

/-- A part is short. -/
theorem Incomplete.length_lt {residue : List α} {later : List (List α)} {bound : Nat}
    (incomplete : Incomplete residue later) (small : ∀ frame ∈ later, frame.length ≤ bound)
    (positive : 0 < bound) : residue.length < bound := by
  cases later with
  | nil =>
    rw [show residue = [] from incomplete]
    exact positive
  | cons frame later => exact Nat.lt_of_lt_of_le incomplete.2 (small frame mem_cons_self)

/-- What has arrived of a stream are some of its frames and a part of the next one. -/
theorem exists_cut {frames : List (List α)} {seen unseen : List α}
    (stream : frames.flatten = seen ++ unseen) :
    ∃ taken later residue, frames = taken ++ later ∧ seen = taken.flatten ++ residue ∧
      Incomplete residue later := by
  induction frames generalizing seen with
  | nil =>
    have empty : seen = [] := (append_eq_nil_iff.mp stream.symm).1
    exact ⟨[], [], [], rfl, empty, rfl⟩
  | cons frame frames ih =>
    rw [flatten_cons] at stream
    by_cases short : seen.length < frame.length
    · have front : seen <+: frame :=
        prefix_of_prefix_length_le ⟨unseen, stream.symm⟩ (prefix_append _ _) (by omega)
      exact ⟨[], frame :: frames, seen, rfl, rfl, front, short⟩
    · have front : frame <+: seen :=
        prefix_of_prefix_length_le ⟨frames.flatten, stream⟩ (prefix_append _ _) (by omega)
      obtain ⟨after, rfl⟩ := front
      rw [append_assoc] at stream
      obtain ⟨taken, later, residue, split, joined, incomplete⟩ :=
        ih (append_cancel_left stream)
      refine ⟨frame :: taken, later, residue, ?_, ?_, incomplete⟩
      · rw [split, cons_append]
      · rw [joined, flatten_cons, append_assoc]

end Framing
