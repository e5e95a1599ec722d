import Mathlib.Data.List.Basic

/-!
# Fields of a word

A field is a run of bits in a word. Its mask has exactly these bits, and the lowest bit of the mask
says how far a value is shifted to get there.
-/

namespace Smartchip.Foundation

/-- `width` bits of a word of `n` bits, from bit `low` on. -/
structure BitField (n : Nat) where
  low : Nat
  width : Nat
  inhabited : 0 < width
  inside : low + width ≤ n

namespace BitField

variable {n m : Nat} (field : BitField n)

def mask : BitVec n := (BitVec.allOnes n >>> (n - field.width)) <<< field.low

/-- What of a word has room in the field. -/
def truncate (data : BitVec n) : BitVec n := data &&& (BitVec.allOnes n >>> (n - field.width))

/-- The same bits of a wider word. -/
def widen (wider : n ≤ m) : BitField m :=
  ⟨field.low, field.width, field.inhabited, Nat.le_trans field.inside wider⟩

@[simp] theorem getLsbD_mask (i : Nat) :
    field.mask.getLsbD i = decide (field.low ≤ i ∧ i < field.low + field.width) := by
  have inside := field.inside
  rw [Bool.eq_iff_iff]
  simp only [mask, BitVec.getLsbD_shiftLeft, BitVec.getLsbD_ushiftRight, BitVec.getLsbD_allOnes,
    Bool.and_eq_true, Bool.not_eq_true', decide_eq_true_eq, decide_eq_false_iff_not]
  omega

@[simp] theorem getElem_mask (i : Nat) (within : i < n) :
    field.mask[i] = decide (field.low ≤ i ∧ i < field.low + field.width) := by
  rw [← BitVec.getLsbD_eq_getElem within, getLsbD_mask]

@[simp] theorem getLsbD_truncate (data : BitVec n) (i : Nat) :
    (field.truncate data).getLsbD i = (data.getLsbD i && decide (i < field.width)) := by
  have inside := field.inside
  have room : decide (n - field.width + i < n) = decide (i < field.width) := by
    simp only [decide_eq_decide]
    omega
  simp [truncate, room]

/-- The shift of a field is the place of the first bit of its mask. -/
theorem first_bit : (List.range n).find? (fun i => field.mask.getLsbD i) = some field.low := by
  have inhabited := field.inhabited
  have inside := field.inside
  rw [List.find?_range_eq_some]
  simp only [getLsbD_mask, List.mem_range, Bool.not_eq_true', decide_eq_true_eq,
    decide_eq_false_iff_not]
  refine ⟨by omega, by omega, ?_⟩
  intro j before
  omega

/-- A value put beside the kept bits of a word changes these exactly where it sets one more. -/
theorem merge_outside_iff (old data mask : BitVec n) :
    (old &&& ~~~mask ||| data) &&& ~~~mask = old &&& ~~~mask ↔
      data &&& ~~~mask &&& ~~~old = 0#n := by
  constructor
  · intro same
    apply BitVec.eq_of_getLsbD_eq
    intro i inside
    have bit := congrArg (fun word => word.getLsbD i) same
    simp only [BitVec.getLsbD_and, BitVec.getLsbD_or, BitVec.getLsbD_not, inside] at bit
    simp only [BitVec.getLsbD_and, BitVec.getLsbD_not, BitVec.getLsbD_zero, inside]
    revert bit
    cases old.getLsbD i <;> cases data.getLsbD i <;> cases mask.getLsbD i <;> simp
  · intro none
    apply BitVec.eq_of_getLsbD_eq
    intro i inside
    have bit := congrArg (fun word => word.getLsbD i) none
    simp only [BitVec.getLsbD_and, BitVec.getLsbD_not, BitVec.getLsbD_zero, inside] at bit
    simp only [BitVec.getLsbD_and, BitVec.getLsbD_or, BitVec.getLsbD_not, inside]
    revert bit
    cases old.getLsbD i <;> cases data.getLsbD i <;> cases mask.getLsbD i <;> simp

/-- A value that is cut to the mask leaves the other bits as they are. -/
theorem merge_outside (old data mask : BitVec n) :
    (old &&& ~~~mask ||| data &&& mask) &&& ~~~mask = old &&& ~~~mask := by
  apply (merge_outside_iff old (data &&& mask) mask).mpr
  apply BitVec.eq_of_getLsbD_eq
  intro i inside
  simp only [BitVec.getLsbD_and, BitVec.getLsbD_not, BitVec.getLsbD_zero, inside]
  cases mask.getLsbD i <;> simp

/-- What is put into a field is read back from it, whatever is above it. -/
theorem merge_inside (old data : BitVec n) :
    ((old &&& ~~~field.mask ||| data <<< field.low) &&& field.mask) >>> field.low =
      field.truncate data := by
  have inside := field.inside
  apply BitVec.eq_of_getLsbD_eq
  intro i _
  simp only [BitVec.getLsbD_ushiftRight, BitVec.getLsbD_and, BitVec.getLsbD_or, BitVec.getLsbD_not,
    BitVec.getLsbD_shiftLeft, getLsbD_mask, getLsbD_truncate]
  rcases Nat.lt_or_ge i field.width with within | above
  · have room : field.low + i < n := by omega
    simp [within, room]
  · simp [Nat.not_lt.mpr above]

/-- A field of a word is the same field of the word cut to fewer bits. -/
theorem and_widen_mask (wider : n ≤ m) (word : BitVec m) :
    (word.setWidth n).setWidth m &&& (field.widen wider).mask =
      word &&& (field.widen wider).mask := by
  have inside := field.inside
  apply BitVec.eq_of_getLsbD_eq
  intro i within
  simp only [BitVec.getLsbD_and, BitVec.getLsbD_setWidth, getLsbD_mask, within]
  rcases Nat.lt_or_ge i n with inner | outer
  · simp [inner]
  · have above : ¬ i < (field.widen wider).low + (field.widen wider).width := by
      simp only [widen]
      omega
    simp [above]

theorem setWidth_widen_mask (wider : n ≤ m) :
    (field.widen wider).mask.setWidth n = field.mask := by
  apply BitVec.eq_of_getLsbD_eq
  intro i within
  simp only [BitVec.getLsbD_setWidth, getLsbD_mask, widen, within, decide_true, Bool.true_and]

end BitField

end Smartchip.Foundation
