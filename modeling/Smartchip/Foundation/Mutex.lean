import Mathlib.Logic.Function.Basic

/-!
# A lock between sites

A site runs one thread at a time.  A thread waits for the lock, takes it once and gives it
back with its last step.
-/

namespace Smartchip.Foundation

universe u v

inductive LockAct where
  | take
  | unlock
  deriving DecidableEq

/-- Where a thread is: it has ended, it waits for the lock, it has the lock. -/
inductive Stage where
  | off
  | waiting
  | holding
  deriving DecidableEq

/-- A step of a thread, given whether the lock is free. -/
inductive Moves (free : Prop) : Stage → Option LockAct → Stage → Prop
  | stay (stage : Stage) (running : stage ≠ .off) : Moves free stage none stage
  | take (open_ : free) : Moves free .waiting (some .take) .holding
  | unlock : Moves free .holding (some .unlock) .off

/-- A step that starts and ends behind the wait and before the end. -/
theorem Moves.inside {free : Prop} {before after : Stage} {act : Option LockAct}
    (starts : before = .holding) (ends : after = .holding) (quiet : act = none) :
    Moves free before act after := by
  subst starts ends quiet
  exact .stay .holding nofun

section Owner

variable {Site : Type u} {Thread : Type v} {owner : Option (Site × Thread)}
  {stage : Site → Option (Thread × Stage)} {n : Site} {t : Thread} {before after : Stage}
  {act : Option LockAct} {next : Option (Thread × Stage)}

/-- The owner of the lock is the thread of its site that has passed its wait. -/
def Owned (owner : Option (Site × Thread)) (stage : Site → Option (Thread × Stage)) : Prop :=
  ∀ n t, owner = some (n, t) ↔ stage n = some (t, .holding)

def ownerAfter (owner : Option (Site × Thread)) (thread : Site × Thread) :
    Option LockAct → Option (Site × Thread)
  | none => owner
  | some .take => some thread
  | some .unlock => none

/-- What a change at one site means for the lock. -/
theorem owned_update [DecidableEq Site] (owned : Owned owner stage)
    {owner' : Option (Site × Thread)} (own : ∀ t, owner' = some (n, t) ↔ next = some (t, .holding))
    (others : ∀ other t, other ≠ n → (owner' = some (other, t) ↔ owner = some (other, t))) :
    Owned owner' (Function.update stage n next) := by
  intro other t
  by_cases same : other = n
  · subst same
    rw [Function.update_self]
    exact own t
  · rw [Function.update_of_ne same, others other t same]
    exact owned other t

/-- No thread of the site is past its wait, before and after. -/
theorem Owned.aside [DecidableEq Site] (owned : Owned owner stage)
    (fresh : ∀ t, stage n ≠ some (t, .holding)) (still : ∀ t, next ≠ some (t, .holding)) :
    Owned owner (Function.update stage n next) := by
  refine owned_update owned (fun t => ?_) fun other t _ => Iff.rfl
  simp [still, owned n t, fresh]

/-- A step of the thread of a site.  Behind its end the site may run another one. -/
theorem Owned.moves [DecidableEq Site] (owned : Owned owner stage)
    (here : stage n = some (t, before)) (moves : Moves (owner = none) before act after)
    (runs : after ≠ .off → next = some (t, after))
    (ends : after = .off → ∀ u, next ≠ some (u, .holding)) :
    Owned (ownerAfter owner (n, t) act) (Function.update stage n next) := by
  cases moves with
  | stay stays running =>
      rw [runs running, ← here, Function.update_eq_self]
      exact owned
  | take free =>
      refine owned_update owned (fun u => ?_) fun other u elsewhere => ?_
      · simp [ownerAfter, runs]
      · simp [ownerAfter, free, Ne.symm elsewhere]
  | unlock =>
      have holds := (owned n t).mpr here
      refine owned_update owned (fun u => ?_) fun other u elsewhere => ?_
      · simp [ownerAfter, ends rfl u]
      · simp [ownerAfter, holds, Ne.symm elsewhere]

end Owner

end Smartchip.Foundation
