import Mathlib.Data.List.Basic

/-!
# Shift registers

A word into which bits are shifted from below holds the newest bits of a list, which has the newest
bit first.  Its population count is the number of bits set among these.
-/

namespace Smartchip.Foundation

variable {w : Nat}

def Records (word : BitVec w) (bits : List Bool) : Prop :=
  ∀ j, j < w → word.getLsbD j = bits.getD j false

theorem records_zero : Records (0#w) [] := by
  intro j _
  simp

theorem Records.shiftConcat {word : BitVec w} {bits : List Bool} (records : Records word bits)
    (bit : Bool) : Records (word.shiftConcat bit) (bit :: bits) := by
  intro j inside
  rw [BitVec.getLsbD_shiftConcat]
  cases j with
  | zero => simp [inside]
  | succ j =>
      have older := records j (by omega)
      simpa [inside] using older

theorem count_take_succ (bits : List Bool) (n : Nat) :
    (bits.take (n + 1)).count true = (bits.take n).count true + (bits.getD n false).toNat := by
  induction bits generalizing n with
  | nil => simp
  | cons bit bits ih =>
      cases n with
      | zero => cases bit <;> simp
      | succ n =>
          rw [List.take_succ_cons, List.count_cons, ih, List.take_succ_cons, List.count_cons]
          simp only [List.getD_cons_succ]
          omega

/-- The newest bit comes in and the oldest goes out. -/
theorem count_take_cons (bit : Bool) (bits : List Bool) (n : Nat) :
    ((bit :: bits).take (n + 1)).count true + (bits.getD n false).toNat =
      (bits.take (n + 1)).count true + bit.toNat := by
  have newest : ((bit :: bits).take (n + 1)).count true = (bits.take n).count true + bit.toNat := by
    cases bit <;> simp
  rw [newest, count_take_succ]
  omega

theorem count_take_le (bits : List Bool) (n : Nat) : (bits.take n).count true ≤ n :=
  Nat.le_trans List.count_le_length (List.length_take_le n bits)

theorem Records.cpopNatRec {word : BitVec w} {bits : List Bool} (records : Records word bits)
    {n : Nat} (inside : n ≤ w) : word.cpopNatRec n 0 = (bits.take n).count true := by
  induction n with
  | zero => simp
  | succ n ih =>
      rw [BitVec.cpopNatRec_succ, BitVec.cpopNatRec_eq, ih (by omega), records n inside,
        count_take_succ]
      omega

theorem Records.cpop {word : BitVec w} {bits : List Bool} (records : Records word bits) :
    word.cpop.toNat = (bits.take w).count true := by
  have small : word.cpopNatRec w 0 < 2 ^ w :=
    Nat.lt_of_le_of_lt (BitVec.cpopNatRec_zero_le word w) Nat.lt_two_pow_self
  rw [BitVec.cpop, BitVec.toNat_ofNat, Nat.mod_eq_of_lt small, records.cpopNatRec (Nat.le_refl w)]

end Smartchip.Foundation
