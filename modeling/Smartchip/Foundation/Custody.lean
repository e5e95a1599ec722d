import Mathlib.Data.List.Perm.Basic
import Mathlib.Logic.Function.Basic

/-!
# Queues at many places

Items lie in queues, one for each place.  An item that leaves the queue of one place and
enters that of another is neither lost nor doubled.
-/

namespace Smartchip.Foundation

universe u v

variable {Place : Type u} {Item : Type v} [DecidableEq Place]
  {places : List Place} {que : Place → List Item} {place : Place} {item : Item}
  {new rest : List Item}

def heldBy (places : List Place) (que : Place → List Item) : List Item :=
  places.flatMap que

theorem mem_update_que {other : Place} (member : item ∈ Function.update que place new other) :
    (other = place ∧ item ∈ new) ∨ item ∈ que other := by
  by_cases same : other = place
  · subst same
    rw [Function.update_self] at member
    exact .inl ⟨rfl, member⟩
  · rw [Function.update_of_ne same] at member
    exact .inr member

theorem heldBy_split (que : Place → List Item) (listed : place ∈ places) :
    (heldBy places que).Perm (que place ++ heldBy (places.erase place) que) := by
  have first := (List.perm_cons_erase listed).flatMap_right que
  simpa [heldBy] using first

theorem heldBy_update_absent (absent : place ∉ places) :
    heldBy places (Function.update que place new) = heldBy places que := by
  unfold heldBy
  induction places with
  | nil => rfl
  | cons first others ih =>
      simp only [List.mem_cons, not_or] at absent
      simp [ih absent.2, Function.update_of_ne (Ne.symm absent.1)]

theorem heldBy_update (once : places.Nodup) (listed : place ∈ places) :
    (heldBy places (Function.update que place new)).Perm
      (new ++ heldBy (places.erase place) que) := by
  have absent : place ∉ places.erase place := once.not_mem_erase
  have split := heldBy_split (Function.update que place new) listed
  rwa [Function.update_self, heldBy_update_absent absent] at split

/-- An item enters a queue. -/
theorem heldBy_put (once : places.Nodup) (listed : place ∈ places)
    (enters : new.Perm (item :: que place)) :
    (heldBy places (Function.update que place new)).Perm (item :: heldBy places que) := by
  calc
    (heldBy places (Function.update que place new)).Perm
        (new ++ heldBy (places.erase place) que) := heldBy_update once listed
    List.Perm _ (item :: (que place ++ heldBy (places.erase place) que)) :=
        enters.append_right _
    List.Perm _ (item :: heldBy places que) := (heldBy_split que listed).symm.cons item

/-- An item leaves a queue. -/
theorem heldBy_take (once : places.Nodup) (listed : place ∈ places)
    (leaves : que place = item :: rest) :
    (item :: heldBy places (Function.update que place rest)).Perm (heldBy places que) := by
  have back : Function.update (Function.update que place rest) place (item :: rest) = que := by
    rw [Function.update_idem, ← leaves, Function.update_eq_self]
  have enters : (item :: rest).Perm (item :: Function.update que place rest place) := by
    simp
  have put := heldBy_put once listed enters
  rw [back] at put
  exact put.symm

end Smartchip.Foundation
