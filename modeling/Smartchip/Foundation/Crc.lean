import Mathlib.Data.Nat.Bitwise

/-!
# Cyclic redundancy checks

A check of 32 bits whose register moves to the right, defined bit by bit, and
the same check with a table of the remainders of the 256 bytes.
-/

namespace Smartchip.Foundation

/-- One bit leaves the register; the polynomial is added when it was set. -/
def crcShift (poly crc : BitVec 32) : BitVec 32 :=
  if crc.getLsbD 0 then (crc >>> 1) ^^^ poly else crc >>> 1

def crcShifts (poly : BitVec 32) : Nat → BitVec 32 → BitVec 32
  | 0, crc => crc
  | n + 1, crc => crcShift poly (crcShifts poly n crc)

def crcByte (poly crc : BitVec 32) (byte : BitVec 8) : BitVec 32 :=
  crcShifts poly 8 (crc ^^^ byte.setWidth 32)

/-- The check of a whole message, from and to the inverted register. -/
def crc32 (poly : BitVec 32) (bytes : List (BitVec 8)) : BitVec 32 :=
  ~~~(bytes.foldl (crcByte poly) 0xffffffff#32)

variable (poly : BitVec 32)

theorem xor_cancel_both (a b p : BitVec 32) : a ^^^ p ^^^ (b ^^^ p) = a ^^^ b := by
  rw [BitVec.xor_assoc a p, ← BitVec.xor_assoc p b, BitVec.xor_comm p b,
    BitVec.xor_assoc b, BitVec.xor_self, BitVec.xor_zero]

theorem crcShift_xor (a b : BitVec 32) :
    crcShift poly (a ^^^ b) = crcShift poly a ^^^ crcShift poly b := by
  simp only [crcShift, BitVec.getLsbD_xor, BitVec.ushiftRight_xor_distrib]
  cases a.getLsbD 0 <;> cases b.getLsbD 0 <;> simp
  · rw [BitVec.xor_assoc]
  · rw [BitVec.xor_assoc, BitVec.xor_assoc, BitVec.xor_comm poly]
  · exact (xor_cancel_both _ _ _).symm

theorem crcShifts_xor (n : Nat) (a b : BitVec 32) :
    crcShifts poly n (a ^^^ b) = crcShifts poly n a ^^^ crcShifts poly n b := by
  induction n with
  | zero => rfl
  | succ n ih => simp only [crcShifts, ih, crcShift_xor]

/-- Bits above the ones that leave the register only move down. -/
theorem crcShifts_high {crc : BitVec 32} {k : Nat}
    (clear : ∀ i, i < k → crc.getLsbD i = false) :
    crcShifts poly k crc = crc >>> k := by
  induction k with
  | zero => simp [crcShifts]
  | succ k ih =>
      have moved := ih fun i inside => clear i (by omega)
      have bit : (crc >>> k).getLsbD 0 = false := by
        simpa using clear k (by omega)
      rw [crcShifts, moved, crcShift, bit, BitVec.shiftRight_add]
      simp

theorem split_low (crc : BitVec 32) :
    crc = (crc.setWidth 8).setWidth 32 ^^^ ((crc >>> 8) <<< 8) := by
  apply BitVec.eq_of_getLsbD_eq
  intro i inside
  simp only [BitVec.getLsbD_xor, BitVec.getLsbD_setWidth, BitVec.getLsbD_shiftLeft,
    BitVec.getLsbD_ushiftRight, inside, decide_true, Bool.true_and]
  by_cases low : i < 8
  · simp [low]
  · simp [low, show 8 + (i - 8) = i by omega]

/-- A byte at a time: the low byte is looked up, the rest moves down. -/
theorem crcShifts_eight (crc : BitVec 32) :
    crcShifts poly 8 crc =
      crcShifts poly 8 ((crc.setWidth 8).setWidth 32) ^^^ (crc >>> 8) := by
  have high : crcShifts poly 8 ((crc >>> 8) <<< 8) = ((crc >>> 8) <<< 8) >>> 8 := by
    apply crcShifts_high
    intro i inside
    simp [inside]
  have back : ((crc >>> 8) <<< 8) >>> 8 = crc >>> 8 := by
    apply BitVec.eq_of_getLsbD_eq
    intro i inside
    simp only [BitVec.getLsbD_ushiftRight, BitVec.getLsbD_shiftLeft]
    by_cases low : 8 + i < 32
    · simp [low]
    · simp [low, BitVec.getLsbD_of_ge crc (8 + i) (by omega)]
  conv => lhs; rw [split_low crc]
  rw [crcShifts_xor, high, back]

theorem crcByte_table (crc : BitVec 32) (byte : BitVec 8) :
    crcByte poly crc byte =
      crcShifts poly 8 (((crc ^^^ byte.setWidth 32).setWidth 8).setWidth 32) ^^^
        (crc >>> 8) := by
  have above : byte.setWidth 32 >>> 8 = 0#32 := by
    apply BitVec.eq_of_getLsbD_eq
    intro i inside
    simp
  rw [crcByte, crcShifts_eight, BitVec.ushiftRight_xor_distrib, above, BitVec.xor_zero]

/-- A fold with any table that holds the remainders of the bytes is the check. -/
theorem crc32_table (table : BitVec 8 → BitVec 32)
    (holds : ∀ byte, table byte = crcShifts poly 8 (byte.setWidth 32))
    (bytes : List (BitVec 8)) :
    ~~~(bytes.foldl (fun (crc : BitVec 32) (byte : BitVec 8) =>
      table ((crc ^^^ byte.setWidth 32).setWidth 8) ^^^ (crc >>> 8)) 0xffffffff#32) =
      crc32 poly bytes := by
  have step : (fun (crc : BitVec 32) (byte : BitVec 8) =>
      table ((crc ^^^ byte.setWidth 32).setWidth 8) ^^^ (crc >>> 8)) = crcByte poly := by
    funext crc byte
    rw [crcByte_table, holds]
  rw [step, crc32]

/-! ## Bit by bit -/

/-- One bit of a message: it is compared with the one that leaves the register. -/
def crcBit (poly crc : BitVec 32) (bit : Bool) : BitVec 32 :=
  if crc.getLsbD 0 != bit then (crc >>> 1) ^^^ poly else crc >>> 1

/-- The bits of a byte, lowest first. -/
def lowestFirst (byte : BitVec 8) : List Bool := (List.range 8).map byte.getLsbD

/-- The check bit by bit, from and to the inverted register. -/
def crcBits (poly : BitVec 32) (bits : List Bool) : BitVec 32 :=
  ~~~(bits.foldl (crcBit poly) 0xffffffff#32)

theorem crcBit_eq (crc : BitVec 32) (bit : Bool) :
    crcBit poly crc bit = crcShift poly (crc ^^^ (BitVec.ofBool bit).setWidth 32) := by
  have low : ((BitVec.ofBool bit).setWidth 32).getLsbD 0 = bit := by cases bit <;> rfl
  have rest : (BitVec.ofBool bit).setWidth 32 >>> 1 = 0#32 := by cases bit <;> rfl
  simp only [crcBit, crcShift, BitVec.getLsbD_xor, low, BitVec.ushiftRight_xor_distrib, rest,
    BitVec.xor_zero]

/-- The bits of a word are put in one after the other, each before it is needed. -/
theorem crcShifts_bits (crc word : BitVec 32) {n : Nat} (few : n ≤ 32) :
    ((List.range n).map word.getLsbD).foldl (crcBit poly) crc =
      crcShifts poly n (crc ^^^ (word.setWidth n).setWidth 32) := by
  induction n with
  | zero =>
      have none : (word.setWidth 0).setWidth 32 = 0#32 := by
        apply BitVec.eq_of_getLsbD_eq
        intro i inside
        simp
      simp [crcShifts, none]
  | succ n ih =>
      have bit : crcShifts poly n ((BitVec.ofBool (word.getLsbD n)).setWidth 32 <<< n) =
          (BitVec.ofBool (word.getLsbD n)).setWidth 32 := by
        rw [crcShifts_high]
        · apply BitVec.eq_of_getLsbD_eq
          intro i inside
          simp only [BitVec.getLsbD_ushiftRight, BitVec.getLsbD_shiftLeft,
            BitVec.getLsbD_setWidth, BitVec.getLsbD_ofBool]
          cases word.getLsbD n <;> simp
          omega
        · intro i inside
          simp [inside]
      have split : (word.setWidth (n + 1)).setWidth 32 =
          (word.setWidth n).setWidth 32 ^^^
            (BitVec.ofBool (word.getLsbD n)).setWidth 32 <<< n := by
        apply BitVec.eq_of_getLsbD_eq
        intro i inside
        simp only [BitVec.getLsbD_xor, BitVec.getLsbD_shiftLeft, BitVec.getLsbD_setWidth,
          BitVec.getLsbD_ofBool]
        obtain below | rfl | above := Nat.lt_trichotomy i n
        · simp [below, show i < n + 1 by omega]
        · simp [inside]
        · simp [show ¬ i < n by omega, show ¬ i < n + 1 by omega, show ¬ i - n = 0 by omega]
      rw [List.range_succ, List.map_append, List.foldl_append, ih (by omega)]
      simp only [List.map_cons, List.map_nil, List.foldl_cons, List.foldl_nil, crcBit_eq, split,
        crcShifts]
      have joined := crcShifts_xor poly n (crc ^^^ (word.setWidth n).setWidth 32)
        ((BitVec.ofBool (word.getLsbD n)).setWidth 32 <<< n)
      rw [bit] at joined
      rw [← BitVec.xor_assoc, joined]

theorem crcByte_bits (crc : BitVec 32) (byte : BitVec 8) :
    (lowestFirst byte).foldl (crcBit poly) crc = crcByte poly crc byte := by
  have same : lowestFirst byte = (List.range 8).map (byte.setWidth 32).getLsbD := by
    apply List.map_congr_left
    intro i inside
    simp [show i < 32 by simp at inside; omega]
  have whole : ((byte.setWidth 32).setWidth 8).setWidth 32 = byte.setWidth 32 := by
    simp
  rw [same, crcShifts_bits poly crc _ (by omega), whole, crcByte]

theorem crc32_bits (bytes : List (BitVec 8)) :
    crc32 poly bytes = crcBits poly (bytes.flatMap lowestFirst) := by
  rw [crc32, crcBits, List.foldl_flatMap]
  simp only [crcByte_bits]

end Smartchip.Foundation
