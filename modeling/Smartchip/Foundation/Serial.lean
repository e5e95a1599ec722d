import Mathlib.Tactic.Linarith

/-!
# Circular sequence numbers

Counters of modulus `2 * half` are compared by the sign of their circular
difference.  The comparison is not transitive on the residues; it is the order
of the integers whenever the two unbounded counters behind the residues are
less than half the modulus apart.
-/

namespace Smartchip.Foundation

/-- The difference of two counters, moved into `[0, 2 * half)`. -/
def circularSub (half a b : ℤ) : ℤ := (a - b) % (2 * half)

def CircularLess (half a b : ℤ) : Prop := half ≤ circularSub half a b

/-- The counter congruent to `residue` that lies within `half` of `base`. -/
def liftNear (half base residue : ℤ) : ℤ :=
  if circularSub half residue base < half then
    base + circularSub half residue base
  else base + circularSub half residue base - 2 * half

theorem circularSub_nonneg {half : ℤ} (positive : 0 < half) (a b : ℤ) :
    0 ≤ circularSub half a b :=
  Int.emod_nonneg _ (by omega)

theorem circularSub_lt {half : ℤ} (positive : 0 < half) (a b : ℤ) :
    circularSub half a b < 2 * half :=
  Int.emod_lt_of_pos _ (by omega)

theorem circularSub_of_le {half a b : ℤ} (lower : b ≤ a)
    (upper : a - b < 2 * half) : circularSub half a b = a - b :=
  Int.emod_eq_of_lt (by omega) upper

theorem circularSub_of_lt {half a b : ℤ} (lower : a < b)
    (upper : b - a ≤ 2 * half) : circularSub half a b = a - b + 2 * half := by
  rw [circularSub, ← Int.add_emod_right]
  exact Int.emod_eq_of_lt (by omega) (by omega)

theorem circularSub_emod (half a b : ℤ) :
    circularSub half (a % (2 * half)) (b % (2 * half)) =
      circularSub half a b := by
  simp [circularSub, Int.emod_sub_emod, Int.sub_emod_emod]

theorem circularLess_iff {half a b : ℤ} (lower : -half ≤ a - b)
    (upper : a - b < half) : CircularLess half a b ↔ a < b := by
  unfold CircularLess
  by_cases order : a < b
  · rw [circularSub_of_lt order (by omega)]
    constructor
    · intro _
      exact order
    · intro _
      omega
  · rw [circularSub_of_le (by omega) (by omega)]
    constructor
    · intro _
      omega
    · intro less
      exact absurd less order

theorem liftNear_lower {half : ℤ} (positive : 0 < half) (base residue : ℤ) :
    base - half ≤ liftNear half base residue := by
  have nonneg := circularSub_nonneg positive residue base
  unfold liftNear
  split <;> omega

theorem liftNear_upper {half : ℤ} (positive : 0 < half) (base residue : ℤ) :
    liftNear half base residue < base + half := by
  have bound := circularSub_lt positive residue base
  unfold liftNear
  split <;> omega

theorem liftNear_emod (half base residue : ℤ) :
    liftNear half base residue % (2 * half) = residue % (2 * half) := by
  have shifted : (base + circularSub half residue base) % (2 * half) =
      residue % (2 * half) := by
    unfold circularSub
    rw [Int.add_emod_emod]
    congr 1
    omega
  unfold liftNear
  split
  · exact shifted
  · rw [Int.sub_emod_right]
    exact shifted

end Smartchip.Foundation
