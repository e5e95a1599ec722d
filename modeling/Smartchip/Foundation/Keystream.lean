import Mathlib.Data.List.Basic

/-!
# Additive stream ciphers

A generator gives one byte at a time and the data are combined with its output
by exclusive or.  Encryption and decryption are the same pass.
-/

namespace Smartchip.Foundation

universe u

variable {State : Type u}

/-- Combine the data with the generator's output; the state is carried on. -/
def keystreamXor (next : State → UInt8 × State) :
    State → List UInt8 → List UInt8 × State
  | state, [] => ([], state)
  | state, byte :: rest =>
      let tail := keystreamXor next (next state).2 rest
      ((byte ^^^ (next state).1) :: tail.1, tail.2)

variable (next : State → UInt8 × State)

@[simp] theorem length_keystreamXor (state : State) (data : List UInt8) :
    (keystreamXor next state data).1.length = data.length := by
  induction data generalizing state with
  | nil => rfl
  | cons byte rest ih => simp [keystreamXor, ih]

theorem keystreamXor_append (state : State) (first second : List UInt8) :
    keystreamXor next state (first ++ second) =
      ((keystreamXor next state first).1 ++
          (keystreamXor next (keystreamXor next state first).2 second).1,
        (keystreamXor next (keystreamXor next state first).2 second).2) := by
  induction first generalizing state with
  | nil => rfl
  | cons byte rest ih => simp [keystreamXor, ih]

theorem keystreamXor_involutive (state : State) (data : List UInt8) :
    (keystreamXor next state (keystreamXor next state data).1).1 = data := by
  induction data generalizing state with
  | nil => rfl
  | cons byte rest ih =>
      simp only [keystreamXor, ih, List.cons.injEq, and_true]
      rw [UInt8.xor_assoc, UInt8.xor_self, UInt8.xor_zero]

end Smartchip.Foundation
