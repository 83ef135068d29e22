import Mathlib.Data.List.Induction

/-!
# Event traces

A trace lists events, the first one first. A rule says which event may follow
which past; a trace is justified when the rule admits every event after the
events before it. A trace is sifted when each of its events is kept or dropped as
it comes.

A direct-mapped memory has one place for many keys and keeps, for each place, the
latest key that was asked for there. It recognises a key that comes again exactly
if no other key of the same place has come in between.
-/

namespace Trace

variable {ε α : Type*} {rule : List ε → ε → Prop} {trace : List ε}

/-- Every event is admitted by those before it. -/
def Justified (rule : List ε → ε → Prop) (trace : List ε) : Prop :=
  ∀ early event late, trace = early ++ event :: late → rule early event

namespace Justified

/-- The empty trace. -/
theorem nil : Justified rule [] := by
  intro early event late split
  simp at split

/-- A rule that admits some events always admits a trace of such events. -/
theorem of_forall (admits : ∀ event ∈ trace, ∀ early, rule early event) :
    Justified rule trace := by
  rintro early event late rfl
  exact admits event (by simp) early

/-- The first part of a justified trace. -/
theorem front {front back : List ε} (justified : Justified rule (front ++ back)) :
    Justified rule front := by
  rintro early event late rfl
  exact justified early event (late ++ back) (by simp)

/-- One more event. -/
theorem snoc {event : ε} (justified : Justified rule trace) (admitted : rule trace event) :
    Justified rule (trace ++ [event]) := by
  intro early last late split
  rcases List.eq_nil_or_concat late with rfl | ⟨rest, final, rfl⟩
  · obtain ⟨rfl, same⟩ := List.append_inj' split rfl
    cases same
    exact admitted
  · have shorter : trace ++ [event] = (early ++ last :: rest) ++ [final] := by
      rw [split]
      simp
    exact justified early last rest (List.append_inj' shorter rfl).1

/-- One event that the rule does not admit. -/
theorem not_of_get {index : Nat} (wrong : ∃ inside : index < trace.length,
    ¬rule (trace.take index) (trace.get ⟨index, inside⟩)) : ¬Justified rule trace := by
  obtain ⟨inside, refused⟩ := wrong
  intro justified
  apply refused
  apply justified _ _ (trace.drop (index + 1))
  rw [List.get_eq_getElem, ← List.drop_eq_getElem_cons inside, List.take_append_drop]

/-- More events, one for each item of a list. -/
theorem append_map {items : List α} {event : α → ε} (justified : Justified rule trace)
    (admitted : ∀ front item back, items = front ++ item :: back →
      rule (trace ++ front.map event) (event item)) :
    Justified rule (trace ++ items.map event) := by
  induction items using List.reverseRecOn with
  | nil => simpa using justified
  | append_singleton front last ih =>
    rw [List.map_append, ← List.append_assoc]
    apply snoc
    · apply ih
      rintro ahead item behind rfl
      exact admitted ahead item (behind ++ [last]) (by simp)
    · exact admitted front last [] rfl

end Justified

/-- A trace with its kept and its dropped events. -/
inductive Sifted : List ε → List ε → List ε → Prop
  | nil : Sifted [] [] []
  | keep {trace kept dropped : List ε} (event : ε) (sifted : Sifted trace kept dropped) :
    Sifted (trace ++ [event]) (kept ++ [event]) dropped
  | drop {trace kept dropped : List ε} (event : ε) (sifted : Sifted trace kept dropped) :
    Sifted (trace ++ [event]) kept (dropped ++ [event])

namespace Sifted

variable {kept dropped : List ε}

/-- Kept events stay in order. -/
theorem sublist (sifted : Sifted trace kept dropped) : kept.Sublist trace := by
  induction sifted with
  | nil => exact List.Sublist.refl []
  | keep event _ ih => exact ih.append_right [event]
  | drop event _ ih => exact ih.trans (List.sublist_append_left _ _)

/-- No event is lost from sight. -/
theorem perm (sifted : Sifted trace kept dropped) : trace.Perm (kept ++ dropped) := by
  induction sifted with
  | nil => exact List.Perm.nil
  | @keep trace kept dropped event _ ih =>
    have behind : (dropped ++ [event]).Perm ([event] ++ dropped) := List.perm_append_comm
    rw [List.append_assoc]
    refine (ih.append_right [event]).trans ?_
    rw [List.append_assoc]
    exact behind.append_left kept
  | @drop trace kept dropped event _ ih =>
    rw [← List.append_assoc]
    exact ih.append_right [event]

/-- Nothing was dropped. -/
theorem eq_of_nil (sifted : Sifted trace kept dropped) (none : dropped = []) : kept = trace := by
  apply sifted.sublist.eq_of_length
  rw [sifted.perm.length_eq, none, List.append_nil]

end Sifted

end Trace

/-! ## Direct-mapped memories -/

namespace DirectMapped

variable {κ π : Type*} [DecidableEq π] (place : κ → π)

/-- The latest of some keys that falls on a place. -/
def latest (keys : List κ) (slot : π) : Option κ :=
  (keys.filter fun key => place key = slot).getLast?

variable {place} {keys : List κ} {key : κ} {slot : π}

/-- One more key takes its place. -/
theorem latest_append : latest place (keys ++ [key]) slot =
    if place key = slot then some key else latest place keys slot := by
  unfold latest
  rw [List.filter_append]
  by_cases same : place key = slot <;> simp [same]

/-- What a place holds has been asked for. -/
theorem mem_of_latest (held : latest place keys slot = some key) : key ∈ keys :=
  (List.mem_filter.mp (List.mem_of_getLast? held)).1

/-- A key that has come before is still held. -/
def Held (place : κ → π) (earlier : List κ) (key : κ) : Prop :=
  key ∈ earlier → latest place earlier (place key) = some key

/-- A key is recognised exactly if it came before, as long as it is held. -/
theorem latest_iff_mem :
    (latest place keys (place key) = some key ↔ key ∈ keys) ↔ Held place keys key :=
  ⟨fun exact => exact.mpr, fun held => ⟨mem_of_latest, held⟩⟩

/-- Keys of different places are always held. -/
theorem justified_held (apart : ∀ key ∈ keys, ∀ other ∈ keys, place other = place key →
    other = key) : Trace.Justified (Held place) keys := by
  rintro earlier key later rfl member
  have own : key ∈ earlier.filter fun other => place other = place key :=
    List.mem_filter.mpr ⟨member, by simp⟩
  obtain ⟨last, held⟩ := Option.isSome_iff_exists.mp
    (List.getLast?_isSome.mpr (List.ne_nil_of_mem own))
  obtain ⟨inside, same⟩ := List.mem_filter.mp (List.mem_of_getLast? held)
  rw [latest, held, apart key (List.mem_append_left _ member) last
    (List.mem_append_left _ inside) (of_decide_eq_true same)]

end DirectMapped
