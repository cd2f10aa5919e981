import Mathlib.Data.List.Nodup
/-
Simultaneous assignments: several moves read one store, and all of them write.

What a place holds afterwards does not depend on the order of the moves, as
long as no two of them write to one place.
-/

namespace CrashLogic

/-- One part of an assignment. It empties the place it reads, unless another
part writes there, and fills the place it writes from the store before. -/
structure Move (κ ν : Type) where
  source : Option κ
  target : Option κ
  value : (κ → Option ν) → Option ν

variable {κ ν : Type} [DecidableEq κ]

def assign (moves : List (Move κ ν)) (store : κ → Option ν) (place : κ) : Option ν :=
  match moves.find? fun move => move.target = some place with
  | some move => move.value store
  | none => if moves.any fun move => move.source = some place then none else store place

/-- No two moves write to one place. -/
def WritesOnce (moves : List (Move κ ν)) : Prop :=
  moves.Pairwise fun first second => ∀ place, first.target = some place →
    second.target ≠ some place

variable {moves : List (Move κ ν)} {store : κ → Option ν} {place : κ}

theorem find_target {move : Move κ ν} (once : WritesOnce moves) (among : move ∈ moves)
    (writes : move.target = some place) :
    moves.find? (fun each => each.target = some place) = some move := by
  induction moves with
  | nil => cases among
  | cons first rest ih =>
      obtain ⟨apart, later⟩ := List.pairwise_cons.mp once
      by_cases here : first.target = some place
      · rw [List.find?_cons_of_pos (by simpa using here)]
        rcases List.mem_cons.mp among with rfl | further
        · rfl
        · exact absurd writes (apart move further place here)
      · rw [List.find?_cons_of_neg (by simpa using here)]
        rcases List.mem_cons.mp among with rfl | further
        · exact absurd writes here
        · exact ih later further

/-- A place that is written holds what its move computes from the store before. -/
theorem assign_target {move : Move κ ν} (once : WritesOnce moves) (among : move ∈ moves)
    (writes : move.target = some place) : assign moves store place = move.value store := by
  unfold assign
  rw [find_target once among writes]

theorem find_unwritten (unwritten : ∀ move ∈ moves, move.target ≠ some place) :
    moves.find? (fun each => each.target = some place) = none := by
  apply List.find?_eq_none.mpr
  intro move among
  simpa using unwritten move among

/-- A place that is read and not written is empty. -/
theorem assign_source {move : Move κ ν} (unwritten : ∀ each ∈ moves, each.target ≠ some place)
    (among : move ∈ moves) (reads : move.source = some place) :
    assign moves store place = none := by
  unfold assign
  rw [find_unwritten unwritten]
  apply if_pos
  exact List.any_eq_true.mpr ⟨move, among, by simpa using reads⟩

/-- Stores that look the same to the moves, and at the place, do so afterwards. -/
theorem assign_congr {store' : κ → Option ν}
    (values : ∀ move ∈ moves, move.value store = move.value store')
    (here : store place = store' place) : assign moves store place = assign moves store' place := by
  unfold assign
  cases found : moves.find? fun each => each.target = some place with
  | none => rw [here]
  | some move => exact values move (List.mem_of_find?_eq_some found)

end CrashLogic
