import Mathlib.Data.List.Basic

/-!
# What a piece of code touches

The reads of a buffer, the unsigned differences that go below zero and the pointers that
are freed, as a list in the order of the code.
-/

namespace Smartchip.Foundation

inductive Touch where
  | read (offset n : Nat)
  | below
  | free (initialised : Bool)

/-- Nothing goes wrong in a buffer of this size. -/
def Touch.Ok (size : Nat) : Touch → Prop
  | read offset n => offset + n ≤ size
  | below => False
  | free initialised => initialised = true

instance (size : Nat) : DecidablePred (Touch.Ok size)
  | .read _ _ => inferInstanceAs (Decidable (_ ≤ _))
  | .below => .isFalse id
  | .free _ => inferInstanceAs (Decidable (_ = _))

def Within (size : Nat) (touches : List Touch) : Prop := ∀ touch ∈ touches, touch.Ok size

instance (size : Nat) (touches : List Touch) : Decidable (Within size touches) :=
  inferInstanceAs (Decidable (∀ touch ∈ touches, touch.Ok size))

section Within

variable {size : Nat} {touches others : List Touch}

@[simp] theorem within_nil : Within size [] := nofun

@[simp] theorem within_cons {touch : Touch} :
    Within size (touch :: touches) ↔ touch.Ok size ∧ Within size touches := by
  simp [Within]

@[simp] theorem within_append :
    Within size (touches ++ others) ↔ Within size touches ∧ Within size others := by
  simp [Within, or_imp, forall_and]

@[simp] theorem ok_read {offset n : Nat} :
    (Touch.read offset n).Ok size ↔ offset + n ≤ size := Iff.rfl

@[simp] theorem not_ok_below : ¬ Touch.below.Ok size := id

@[simp] theorem ok_free {initialised : Bool} :
    (Touch.free initialised).Ok size ↔ initialised = true := Iff.rfl

theorem within_ite {p : Prop} [Decidable p] :
    Within size (if p then touches else others) ↔
      (p → Within size touches) ∧ (¬ p → Within size others) := by
  split_ifs with holds <;> simp [holds]

end Within

end Smartchip.Foundation
