import Mathlib.Data.Fintype.EquivFin
import Smartchip.Crypto.Aes
import Smartchip.Foundation.Substitution

/-!
# Decryption undoes encryption

The tables are looked at in five places, each over the 256 bytes.  From there on the two ciphers are
a network of substitution and mixing and its inverse, and the rest is about the key schedules.
-/

namespace Smartchip.Crypto

open Smartchip.Foundation

/-! ## Words and bytes -/

def spread (x : BitVec 8) (k : Nat) : Word := x.setWidth 32 <<< k

theorem getLsbD_byteAt (w : Word) (k i : Nat) (inside : i < 8) :
    (byteAt w k).getLsbD i = w.getLsbD (k + i) := by
  simp [byteAt, inside]

theorem getLsbD_spread (x : BitVec 8) (k i : Nat) (inside : i < 32) :
    (spread x k).getLsbD i = (decide (k ≤ i) && x.getLsbD (i - k)) := by
  simp only [spread, BitVec.getLsbD_shiftLeft, BitVec.getLsbD_setWidth]
  grind

theorem getLsbD_wlRotr (w : Word) (k i : Nat) (small : k < 32) (inside : i < 32) :
    (wlRotr w k).getLsbD i = w.getLsbD ((k + i) % 32) := by
  simp only [wlRotr, BitVec.getLsbD_or, BitVec.getLsbD_ushiftRight, BitVec.getLsbD_shiftLeft]
  by_cases wraps : 32 ≤ k + i
  · have big : w.getLsbD (k + i) = false := BitVec.getLsbD_of_ge w (k + i) wraps
    simp [big, inside, show (k + i) % 32 = i - (32 - k) by omega, show ¬ i < 32 - k by omega]
  · simp [inside, Nat.mod_eq_of_lt (Nat.lt_of_not_le wraps), show i < 32 - k by omega]

theorem byteAt_xor (v w : Word) (k : Nat) : byteAt (v ^^^ w) k = byteAt v k ^^^ byteAt w k := by
  apply BitVec.eq_of_getLsbD_eq
  intro i inside
  simp only [BitVec.getLsbD_xor, getLsbD_byteAt _ _ _ inside]

theorem wlRotr_xor (v w : Word) {k : Nat} (small : k < 32) :
    wlRotr (v ^^^ w) k = wlRotr v k ^^^ wlRotr w k := by
  apply BitVec.eq_of_getLsbD_eq
  intro i inside
  simp only [BitVec.getLsbD_xor, getLsbD_wlRotr _ _ _ small inside]

theorem byteAt_spread (x : BitVec 8) {j k : Nat} (place : j + 8 ≤ 32)
    (apart : j + 8 ≤ k ∨ k + 8 ≤ j) :
    byteAt (spread x k) j = 0 := by
  apply BitVec.eq_of_getLsbD_eq
  intro i inside
  rw [getLsbD_byteAt _ _ _ inside, getLsbD_spread _ _ _ (by omega)]
  obtain below | above := apart
  · simp [show ¬ k ≤ j + i by omega]
  · simp [BitVec.getLsbD_of_ge x (j + i - k) (by omega)]

theorem byteAt_spread_self (x : BitVec 8) {k : Nat} (place : k + 8 ≤ 32) :
    byteAt (spread x k) k = x := by
  apply BitVec.eq_of_getLsbD_eq
  intro i inside
  rw [getLsbD_byteAt _ _ _ inside, getLsbD_spread _ _ _ (by omega)]
  simp

theorem wlRotr_spread (x : BitVec 8) {k : Nat} (small : k ≤ 24) :
    wlRotr (spread x 24) k = spread x (24 - k) := by
  apply BitVec.eq_of_getLsbD_eq
  intro i inside
  rw [getLsbD_wlRotr _ _ _ (by omega) inside, getLsbD_spread _ _ _ (by omega),
    getLsbD_spread _ _ _ inside]
  by_cases wraps : 32 ≤ k + i
  · rw [BitVec.getLsbD_of_ge x (i - (24 - k)) (by omega), show (k + i) % 32 = k + i - 32 by omega]
    simp [show ¬ 24 ≤ k + i - 32 by omega]
  · rw [Nat.mod_eq_of_lt (by omega)]
    by_cases low : 24 ≤ k + i
    · simp [low, show 24 - k ≤ i by omega, show k + i - 24 = i - (24 - k) by omega]
    · simp [low, show ¬ 24 - k ≤ i by omega]

theorem wlRotr_wlRotr (w : Word) {j k : Nat} (small : j + k < 32) :
    wlRotr (wlRotr w j) k = wlRotr w (j + k) := by
  apply BitVec.eq_of_getLsbD_eq
  intro i inside
  rw [getLsbD_wlRotr _ _ _ (by omega) inside, getLsbD_wlRotr _ _ _ (by omega) (by omega),
    getLsbD_wlRotr _ _ _ small inside]
  congr 1
  omega

theorem wlRotr_full (w : Word) : wlRotr (wlRotr w 24) 8 = w := by
  apply BitVec.eq_of_getLsbD_eq
  intro i inside
  rw [getLsbD_wlRotr _ _ _ (by omega) inside, getLsbD_wlRotr _ _ _ (by omega) (by omega)]
  congr 1
  omega

theorem byteAt_wlRotr (w : Word) {j : Nat} (place : j + 16 ≤ 32) :
    byteAt (wlRotr w 8) j = byteAt w (j + 8) := by
  apply BitVec.eq_of_getLsbD_eq
  intro i inside
  rw [getLsbD_byteAt _ _ _ inside, getLsbD_wlRotr _ _ _ (by omega) (by omega),
    getLsbD_byteAt _ _ _ inside]
  congr 1
  omega

theorem byteAt_wlRotr_top (w : Word) : byteAt (wlRotr w 8) 24 = byteAt w 0 := by
  apply BitVec.eq_of_getLsbD_eq
  intro i inside
  rw [getLsbD_byteAt _ _ _ inside, getLsbD_wlRotr _ _ _ (by omega) (by omega),
    getLsbD_byteAt _ _ _ inside]
  congr 1
  omega

/-- A word from its bytes. -/
def pack (a b c d : BitVec 8) : Word := spread a 24 ^^^ spread b 16 ^^^ spread c 8 ^^^ spread d 0

section Pack

variable (a b c d : BitVec 8)

@[simp] theorem byteAt_pack_24 : byteAt (pack a b c d) 24 = a := by
  simp [pack, byteAt_xor, byteAt_spread, byteAt_spread_self]

@[simp] theorem byteAt_pack_16 : byteAt (pack a b c d) 16 = b := by
  simp [pack, byteAt_xor, byteAt_spread, byteAt_spread_self]

@[simp] theorem byteAt_pack_8 : byteAt (pack a b c d) 8 = c := by
  simp [pack, byteAt_xor, byteAt_spread, byteAt_spread_self]

@[simp] theorem byteAt_pack_0 : byteAt (pack a b c d) 0 = d := by
  simp [pack, byteAt_xor, byteAt_spread, byteAt_spread_self]

end Pack

/-- Each bit of a word is in one byte. -/
theorem pack_bytes (w : Word) :
    pack (byteAt w 24) (byteAt w 16) (byteAt w 8) (byteAt w 0) = w := by
  apply BitVec.eq_of_getLsbD_eq
  intro i inside
  have placed (k : Nat) : (spread (byteAt w k) k).getLsbD i =
      (decide (k ≤ i ∧ i < k + 8) && w.getLsbD i) := by
    rw [getLsbD_spread _ _ _ inside]
    by_cases low : k ≤ i
    · by_cases high : i < k + 8
      · rw [getLsbD_byteAt _ _ _ (by omega), show k + (i - k) = i by omega]
        simp [low, high]
      · simp [high, BitVec.getLsbD_of_ge (byteAt w k) (i - k) (by omega)]
    · simp [low]
  simp only [pack, BitVec.getLsbD_xor, placed]
  obtain first | second | third | fourth :
      i < 8 ∨ (8 ≤ i ∧ i < 16) ∨ (16 ≤ i ∧ i < 24) ∨ 24 ≤ i := by omega
  · simp [first, show ¬ 8 ≤ i by omega, show ¬ 16 ≤ i by omega, show ¬ 24 ≤ i by omega]
  · simp [second, show ¬ i < 8 by omega, show ¬ 16 ≤ i by omega, show ¬ 24 ≤ i by omega]
  · simp [third, show ¬ i < 8 by omega, show ¬ i < 16 by omega, show ¬ 24 ≤ i by omega]
  · simp [fourth, inside, show ¬ i < 8 by omega, show ¬ i < 16 by omega, show ¬ i < 24 by omega]

/-! ## The tables -/

/-- The substitution, as `TE4` reads it. -/
def sbox (x : BitVec 8) : BitVec 8 := byteAt (te4 x) 0

theorem forall_byte {P : BitVec 8 → Prop} (each : ∀ x : Fin 256, P (BitVec.ofFin x))
    (x : BitVec 8) : P x := each x.toFin

@[simp] theorem td4sAt_sbox : ∀ x : BitVec 8, td4sAt (sbox x) = x :=
  forall_byte (by decide +kernel)

instance finiteBitVec {n : Nat} : Finite (BitVec n) :=
  Finite.of_injective BitVec.toFin fun _ _ => BitVec.eq_of_toFin_eq

/-- A left inverse of a function on finitely many bytes is a right inverse. -/
@[simp] theorem sbox_td4sAt (x : BitVec 8) : sbox (td4sAt x) = x := by
  have injective : Function.Injective sbox :=
    Function.LeftInverse.injective (g := td4sAt) td4sAt_sbox
  obtain ⟨y, rfl⟩ := Finite.surjective_of_injective injective x
  rw [td4sAt_sbox]

/-- The two middle bytes of an entry are the substitution itself. -/
theorem te0At_middle : ∀ x : BitVec 8,
    te0At x <<< 8 &&& 0xff000000 = spread (sbox x) 24 ∧
      te0At x &&& 0x00ff0000 = spread (sbox x) 16 ∧
      te0At x &&& 0x0000ff00 = spread (sbox x) 8 ∧
      te0At x >>> 8 &&& 0x000000ff = spread (sbox x) 0 :=
  forall_byte (by decide +kernel)

theorem unmixKey_te0At : ∀ x : BitVec 8, unmixKey (te0At x) = spread (sbox x) 24 :=
  forall_byte (by decide +kernel)

/-- What a byte adds to a word whose mixing is undone. -/
def unmixByte (x : BitVec 8) : Word := td0At (sbox x)

/-- The sum over the bits that are set. -/
def bitSum (f : Nat → Word) (x : BitVec 8) (bits : List Nat) : Word :=
  bits.foldr (fun i w => (if x.getLsbD i then f i else 0) ^^^ w) 0

/-- `unmixByte` of the bytes with one bit. -/
def unmixBits : List Word :=
  [0x0e090d0b, 0x1c121a16, 0x3824342c, 0x70486858, 0xe090d0b0, 0xdb3bbb7b, 0xad766df6, 0x41ecdaf7]

theorem unmixByte_eq_bitSum : ∀ x : BitVec 8,
    unmixByte x = bitSum (fun i => unmixBits.getD i 0) x (List.range 8) :=
  forall_byte (by decide +kernel)

theorem bitSum_xor (f : Nat → Word) (x y : BitVec 8) (bits : List Nat) :
    bitSum f (x ^^^ y) bits = bitSum f x bits ^^^ bitSum f y bits := by
  induction bits with
  | nil => simp [bitSum]
  | cons i bits ih =>
      have both : (if (x ^^^ y).getLsbD i then f i else 0) =
          (if x.getLsbD i then f i else 0) ^^^ (if y.getLsbD i then f i else 0) := by
        cases hx : x.getLsbD i <;> cases hy : y.getLsbD i <;> simp [hx, hy]
      simp only [bitSum, List.foldr_cons] at ih ⊢
      rw [ih, both]
      ac_rfl

theorem unmixByte_xor (x y : BitVec 8) : unmixByte (x ^^^ y) = unmixByte x ^^^ unmixByte y := by
  simp only [unmixByte_eq_bitSum (x ^^^ y), unmixByte_eq_bitSum x, unmixByte_eq_bitSum y,
    bitSum_xor]

/-! ## Mixing -/

theorem unmixKey_eq (w : Word) :
    unmixKey w = unmixByte (byteAt w 24) ^^^ wlRotr (unmixByte (byteAt w 16)) 8 ^^^
      wlRotr (unmixByte (byteAt w 8)) 16 ^^^ wlRotr (unmixByte (byteAt w 0)) 24 := rfl

theorem unmixKey_xor (v w : Word) : unmixKey (v ^^^ w) = unmixKey v ^^^ unmixKey w := by
  have small : 8 < 32 ∧ 16 < 32 ∧ 24 < 32 := by omega
  simp only [unmixKey_eq, byteAt_xor, unmixByte_xor, wlRotr_xor _ _ small.1,
    wlRotr_xor _ _ small.2.1, wlRotr_xor _ _ small.2.2]
  ac_rfl

theorem unmixKey_wlRotr_8 (w : Word) : unmixKey (wlRotr w 8) = wlRotr (unmixKey w) 8 := by
  have small : 8 < 32 := by omega
  rw [unmixKey_eq, unmixKey_eq, byteAt_wlRotr_top, byteAt_wlRotr w (by omega),
    byteAt_wlRotr w (by omega), byteAt_wlRotr w (by omega)]
  simp only [wlRotr_xor _ _ small, wlRotr_full]
  rw [wlRotr_wlRotr _ (by omega), wlRotr_wlRotr _ (by omega)]
  ac_rfl

theorem unmixKey_wlRotr (w : Word) (n : Nat) (small : 8 * n < 32) :
    unmixKey (wlRotr w (8 * n)) = wlRotr (unmixKey w) (8 * n) := by
  induction n with
  | zero => simp [wlRotr]
  | succ n ih =>
      rw [Nat.mul_succ] at small ⊢
      rw [← wlRotr_wlRotr w small, unmixKey_wlRotr_8, ih (by omega), wlRotr_wlRotr _ small]

/-- The column of a round before its key is added, as a function of the substituted bytes. -/
def mixWord (w : Word) : Word :=
  te0At (td4sAt (byteAt w 24)) ^^^ wlRotr (te0At (td4sAt (byteAt w 16))) 8 ^^^
    wlRotr (te0At (td4sAt (byteAt w 8))) 16 ^^^ wlRotr (te0At (td4sAt (byteAt w 0))) 24

theorem unmixKey_mixWord (w : Word) : unmixKey (mixWord w) = w := by
  have first := unmixKey_wlRotr (te0At (td4sAt (byteAt w 16))) 1 (by omega)
  have second := unmixKey_wlRotr (te0At (td4sAt (byteAt w 8))) 2 (by omega)
  have third := unmixKey_wlRotr (te0At (td4sAt (byteAt w 0))) 3 (by omega)
  simp only [Nat.reduceMul] at first second third
  simp only [mixWord, unmixKey_xor, first, second, third, unmixKey_te0At, sbox_td4sAt]
  rw [wlRotr_spread _ (by omega), wlRotr_spread _ (by omega), wlRotr_spread _ (by omega)]
  exact pack_bytes w

/-- Again a left inverse on finitely many words. -/
theorem mixWord_unmixKey (w : Word) : mixWord (unmixKey w) = w := by
  have injective : Function.Injective mixWord :=
    Function.LeftInverse.injective (g := unmixKey) unmixKey_mixWord
  obtain ⟨v, rfl⟩ := Finite.surjective_of_injective injective w
  rw [unmixKey_mixWord]

/-! ## Columns -/

namespace Columns

def add (s k : Columns) : Columns := ⟨s.s0 ^^^ k.s0, s.s1 ^^^ k.s1, s.s2 ^^^ k.s2, s.s3 ^^^ k.s3⟩

def map (f : Word → Word) (s : Columns) : Columns := ⟨f s.s0, f s.s1, f s.s2, f s.s3⟩

/-- Substitution, and each row of the block moved by its number. -/
def substitute (s : Columns) : Columns where
  s0 := pack (sbox (byteAt s.s0 24)) (sbox (byteAt s.s1 16)) (sbox (byteAt s.s2 8))
    (sbox (byteAt s.s3 0))
  s1 := pack (sbox (byteAt s.s1 24)) (sbox (byteAt s.s2 16)) (sbox (byteAt s.s3 8))
    (sbox (byteAt s.s0 0))
  s2 := pack (sbox (byteAt s.s2 24)) (sbox (byteAt s.s3 16)) (sbox (byteAt s.s0 8))
    (sbox (byteAt s.s1 0))
  s3 := pack (sbox (byteAt s.s3 24)) (sbox (byteAt s.s0 16)) (sbox (byteAt s.s1 8))
    (sbox (byteAt s.s2 0))

def restore (s : Columns) : Columns where
  s0 := pack (td4sAt (byteAt s.s0 24)) (td4sAt (byteAt s.s3 16)) (td4sAt (byteAt s.s2 8))
    (td4sAt (byteAt s.s1 0))
  s1 := pack (td4sAt (byteAt s.s1 24)) (td4sAt (byteAt s.s0 16)) (td4sAt (byteAt s.s3 8))
    (td4sAt (byteAt s.s2 0))
  s2 := pack (td4sAt (byteAt s.s2 24)) (td4sAt (byteAt s.s1 16)) (td4sAt (byteAt s.s0 8))
    (td4sAt (byteAt s.s3 0))
  s3 := pack (td4sAt (byteAt s.s3 24)) (td4sAt (byteAt s.s2 16)) (td4sAt (byteAt s.s1 8))
    (td4sAt (byteAt s.s0 0))

theorem add_add (s k : Columns) : (s.add k).add k = s := by
  simp only [add, BitVec.xor_assoc, BitVec.xor_self, BitVec.xor_zero]

theorem restore_substitute (s : Columns) : s.substitute.restore = s := by
  simp [restore, substitute, pack_bytes]

theorem substitute_restore (s : Columns) : s.restore.substitute = s := by
  simp [restore, substitute, pack_bytes]

/-- The cipher without its tables and its bytes. -/
def network : Network Columns where
  add := add
  sub := substitute
  unsub := restore
  mix := map mixWord
  unmix := map unmixKey
  add_add := add_add
  unsub_sub := restore_substitute
  sub_unsub := substitute_restore
  unmix_mix := fun s => by simp [map, unmixKey_mixWord]
  mix_unmix := fun s => by simp [map, mixWord_unmixKey]
  unmix_add := fun s k => by simp [map, add, unmixKey_xor]

end Columns

/-! ## A round is a round of the network -/

/-- The four words of a round key. -/
def RoundKeys.row (rk : RoundKeys) (i : Nat) : Columns :=
  ⟨rk.word (4 * i), rk.word (4 * i + 1), rk.word (4 * i + 2), rk.word (4 * i + 3)⟩

theorem encRound_eq (rk : RoundKeys) (i : Nat) (s : Columns) :
    encRound rk i s = (s.substitute.map mixWord).add (rk.row i) := by
  simp [encRound, Columns.add, Columns.map, Columns.substitute, mixWord, RoundKeys.row, te0, te1,
    te2, te3]

theorem decRound_eq (rk : RoundKeys) (i : Nat) (s : Columns) :
    decRound rk i s = (s.restore.map unmixKey).add (rk.row i) := by
  simp [decRound, Columns.add, Columns.map, Columns.restore, unmixKey_eq, unmixByte,
    RoundKeys.row, td0, td1, td2, td3]

theorem encFinal_eq (rk : RoundKeys) (t : Columns) :
    encFinal rk t = t.substitute.add (rk.row 0) := by
  have top (x) := (te0At_middle x).1
  have second (x) := (te0At_middle x).2.1
  have third (x) := (te0At_middle x).2.2.1
  have last (x) := (te0At_middle x).2.2.2
  simp only [encFinal, te41, te42, te43, te44, top, second, third, last]
  rfl

theorem decFinal_eq (rk : RoundKeys) (t : Columns) :
    decFinal rk t = t.restore.add (rk.row 0) := by
  simp [decFinal, td41, td42, td43, td44, Columns.add, Columns.restore, pack, spread,
    RoundKeys.row]

theorem row_drop (rk : RoundKeys) (i n : Nat) :
    RoundKeys.row (rk.drop (4 * n)) i = rk.row (i + n) := by
  simp only [RoundKeys.row, RoundKeys.word, List.getD_eq_getElem?_getD, List.getElem?_drop]
  grind

/-- What is left of the round keys behind the loop begins with the last one. -/
theorem row_drop_rounds (rk : RoundKeys) (r : Nat) :
    RoundKeys.row (rk.drop (8 * (r + 1))) 0 = rk.row (2 * (r + 1)) := by
  have moved := row_drop rk 0 (2 * (r + 1))
  rw [Nat.zero_add, show 4 * (2 * (r + 1)) = 8 * (r + 1) by omega] at moved
  exact moved

/-- The loop over two rounds at a time runs through the round keys one by one. -/
theorem roundLoop_eq {round : RoundKeys → Nat → Columns → Columns}
    {f : Columns → Columns → Columns} (eq : ∀ rk i s, round rk i s = f s (rk.row i)) (r : Nat)
    (rk : RoundKeys) (s : Columns) :
    roundLoop round (r + 1) rk s =
      (rk.drop (8 * (r + 1)), ((List.range' 1 (2 * r + 1)).map rk.row).foldl f s) := by
  induction r generalizing rk s with
  | zero => simp [roundLoop, eq]
  | succ r ih =>
      have shifted : ∀ i, RoundKeys.row (rk.drop 8) i = rk.row (i + 2) := fun i =>
        row_drop rk i 2
      have later : (List.range' 1 (2 * r + 1)).map (RoundKeys.row (rk.drop 8)) =
          (List.range' 3 (2 * r + 1)).map rk.row := by
        rw [← List.map_add_range' (a := 2) 1 (2 * r + 1) 1, List.map_map]
        apply List.map_congr_left
        intro i _
        rw [shifted, Nat.add_comm]
        rfl
      have split : List.range' 1 (2 * (r + 1) + 1) = 1 :: 2 :: List.range' 3 (2 * r + 1) := by
        rw [show 2 * (r + 1) + 1 = 2 * r + 1 + 1 + 1 by omega, List.range'_succ, List.range'_succ]
      rw [roundLoop]
      simp only [Nat.add_one_ne_zero, if_false]
      rw [ih, later, split, List.drop_drop, eq, eq, shifted]
      simp only [List.map_cons, List.foldl_cons, Prod.mk.injEq, and_true]
      congr 1
      omega

/-! ## Blocks and columns -/

def loadColumns (block : List UInt8) : Columns :=
  ⟨obatinUint32 block 0, obatinUint32 block 4, obatinUint32 block 8, obatinUint32 block 12⟩

theorem obatinUint32_eq (pt : List UInt8) (pos : Nat) :
    obatinUint32 pt pos = pack (pt.getD pos 0).toBitVec (pt.getD (pos + 1) 0).toBitVec
      (pt.getD (pos + 2) 0).toBitVec (pt.getD (pos + 3) 0).toBitVec := by
  simp [obatinUint32, wordByte, pack, spread]

theorem tilkToU32_eq (st : Word) :
    tilkToU32 st = [⟨byteAt st 24⟩, ⟨byteAt st 16⟩, ⟨byteAt st 8⟩, ⟨byteAt st 0⟩] := by
  simp [tilkToU32, byteAt]

theorem loadColumns_storeBlock (s : Columns) : loadColumns (storeBlock s) = s := by
  simp [loadColumns, storeBlock, obatinUint32_eq, tilkToU32_eq, pack_bytes]

theorem storeBlock_loadColumns {block : List UInt8} (full : block.length = 16) :
    storeBlock (loadColumns block) = block := by
  match block, full with
  | [b0, b1, b2, b3, b4, b5, b6, b7, b8, b9, b10, b11, b12, b13, b14, b15], _ =>
      simp [loadColumns, storeBlock, obatinUint32_eq, tilkToU32_eq]

/-- The round keys between the first and the last. -/
def RoundKeys.middle (rk : RoundKeys) (nr : Nat) : List Columns :=
  (List.range' 1 (nr - 1)).map rk.row

theorem aesEncryptRijndael_eq (rk : RoundKeys) (r : Nat) (pt : List UInt8) :
    aesEncryptRijndael rk (2 * (r + 1)) pt =
      storeBlock (Columns.network.encrypt (rk.row 0) (rk.middle (2 * (r + 1)))
        (rk.row (2 * (r + 1))) (loadColumns pt)) := by
  rw [aesEncryptRijndael, Nat.mul_div_cancel_left _ (by omega : 0 < 2), roundLoop_eq encRound_eq]
  simp only [encFinal_eq, row_drop_rounds]
  rfl

theorem aesDecRijndael_eq (rk : RoundKeys) (r : Nat) (ct : List UInt8) :
    aesDecRijndael rk (2 * (r + 1)) ct =
      storeBlock (Columns.network.decrypt (rk.row 0) (rk.middle (2 * (r + 1)))
        (rk.row (2 * (r + 1))) (loadColumns ct)) := by
  rw [aesDecRijndael, Nat.mul_div_cancel_left _ (by omega : 0 < 2), roundLoop_eq decRound_eq]
  simp only [decFinal_eq, row_drop_rounds]
  rfl

/-! ## The key schedules -/

namespace RoundKeys

variable (rk : RoundKeys)

@[simp] theorem length_put (pos : Nat) (w : Word) : (rk.put pos w).length = rk.length :=
  List.length_set

theorem word_put {pos : Nat} (inside : pos < rk.length) (w : Word) (i : Nat) :
    (rk.put pos w).word i = if i = pos then w else rk.word i := by
  simp only [put, word, List.getD_eq_getElem?_getD, List.getElem?_set]
  grind

@[simp] theorem length_swap (i j : Nat) : (rk.swap i j).length = rk.length := by simp [swap]

theorem word_swap {i j : Nat} (first : i < rk.length) (second : j < rk.length) (k : Nat) :
    (rk.swap i j).word k = if k = j then rk.word i else if k = i then rk.word j else rk.word k := by
  rw [swap, word_put _ (by simpa using second), word_put _ first]

@[simp] theorem length_swapRows (i j : Nat) : (rk.swapRows i j).length = rk.length := by
  simp [swapRows]

/-- The exchange of two round keys, as far as it has come. -/
def swapFirst (i j n : Nat) : RoundKeys :=
  (List.range n).foldl (fun rk c => rk.swap (i + c) (j + c)) rk

theorem swapFirst_succ (i j n : Nat) :
    rk.swapFirst i j (n + 1) = (rk.swapFirst i j n).swap (i + n) (j + n) := by
  simp [swapFirst, List.range_succ]

theorem length_swapFirst (i j n : Nat) : (rk.swapFirst i j n).length = rk.length := by
  induction n with
  | zero => rfl
  | succ n ih => rw [swapFirst_succ, length_swap, ih]

theorem word_swapFirst {i j n : Nat} (apart : i + n ≤ j) (inside : j + n ≤ rk.length) (k : Nat) :
    (rk.swapFirst i j n).word k =
      if i ≤ k ∧ k < i + n then rk.word (k - i + j)
      else if j ≤ k ∧ k < j + n then rk.word (k - j + i) else rk.word k := by
  induction n generalizing k with
  | zero => grind [swapFirst]
  | succ n ih =>
      have length := rk.length_swapFirst i j n
      rw [swapFirst_succ, word_swap _ (by omega) (by omega)]
      simp only [ih (by omega) (by omega)]
      grind

theorem row_swapRows {a b : Nat} (apart : a < b) (inside : 4 * b + 4 ≤ rk.length) (r : Nat) :
    (rk.swapRows (4 * a) (4 * b)).row r =
      if r = a then rk.row b else if r = b then rk.row a else rk.row r := by
  have words := rk.word_swapFirst (i := 4 * a) (j := 4 * b) (n := 4) (by omega) inside
  have eq : rk.swapRows (4 * a) (4 * b) = rk.swapFirst (4 * a) (4 * b) 4 := rfl
  have placed (c : Nat) (column : c < 4) : (rk.swapRows (4 * a) (4 * b)).word (4 * r + c) =
      rk.word (4 * (if r = a then b else if r = b then a else r) + c) := by
    rw [eq, words]
    by_cases low : r = a
    · rw [if_pos (by omega), if_pos low]
      congr 1
      omega
    · by_cases high : r = b
      · rw [if_neg (by omega), if_pos (by omega), if_neg low, if_pos high]
        congr 1
        omega
      · rw [if_neg (by omega), if_neg (by omega), if_neg low, if_neg high]
  simp only [row, placed 1 (by omega), placed 2 (by omega), placed 3 (by omega)]
  rw [show 4 * r = 4 * r + 0 from rfl, placed 0 (by omega)]
  split_ifs <;> rfl

theorem length_reverseKeys (i j : Nat) : (reverseKeys rk i j).length = rk.length := by
  fun_induction reverseKeys rk i j with
  | case1 rk i j _ ih => rw [ih, length_swapRows]
  | case2 => rfl

/-- The round keys from the first to the last position are the other way round. -/
theorem row_reverseKeys {a b : Nat} (inside : 4 * b + 4 ≤ rk.length) (r : Nat) :
    (reverseKeys rk (4 * a) (4 * b)).row r =
      if a ≤ r ∧ r ≤ b then rk.row (a + b - r) else rk.row r := by
  induction size : b - a using Nat.strong_induction_on generalizing a b rk with
  | _ size ih =>
      rw [reverseKeys]
      by_cases apart : a < b
      · have inner := ih (b - 1 - (a + 1)) (by omega) (rk.swapRows (4 * a) (4 * b)) (a := a + 1)
          (b := b - 1) (by rw [length_swapRows]; omega) rfl
        rw [if_pos (by omega), show 4 * a + 4 = 4 * (a + 1) by omega,
          show 4 * b - 4 = 4 * (b - 1) by omega, inner, row_swapRows _ apart inside,
          row_swapRows _ apart inside]
        grind
      · rw [if_neg (by omega)]
        by_cases same : a = r ∧ r = b
        · rw [if_pos (by omega), show a + b - r = r by omega]
        · split_ifs
          · congr 1
            omega
          · rfl

theorem length_unmixRow (i : Nat) : (unmixRow rk i).length = rk.length := by
  simp [unmixRow, List.range_succ]

/-- The first words of a round key are unmixed. -/
def unmixFirst (i n : Nat) : RoundKeys :=
  (List.range n).foldl (fun rk j => rk.put (4 * i + j) (unmixKey (rk.word (4 * i + j)))) rk

theorem unmixFirst_succ (i n : Nat) :
    rk.unmixFirst i (n + 1) =
      (rk.unmixFirst i n).put (4 * i + n) (unmixKey ((rk.unmixFirst i n).word (4 * i + n))) := by
  simp [unmixFirst, List.range_succ]

theorem length_unmixFirst (i n : Nat) : (rk.unmixFirst i n).length = rk.length := by
  induction n with
  | zero => rfl
  | succ n ih => rw [unmixFirst_succ, length_put, ih]

theorem word_unmixFirst {i n : Nat} (inside : 4 * i + n ≤ rk.length) (k : Nat) :
    (rk.unmixFirst i n).word k =
      if 4 * i ≤ k ∧ k < 4 * i + n then unmixKey (rk.word k) else rk.word k := by
  induction n generalizing k with
  | zero => grind [unmixFirst]
  | succ n ih =>
      have length := rk.length_unmixFirst i n
      rw [unmixFirst_succ, word_put _ (by omega)]
      simp only [ih (by omega)]
      grind

theorem row_unmixRow {i : Nat} (inside : 4 * i + 4 ≤ rk.length) (r : Nat) :
    (unmixRow rk i).row r = if r = i then (rk.row r).map unmixKey else rk.row r := by
  have placed (c : Nat) (column : c < 4) : (unmixRow rk i).word (4 * r + c) =
      if r = i then unmixKey (rk.word (4 * r + c)) else rk.word (4 * r + c) := by
    have words := rk.word_unmixFirst inside (4 * r + c)
    have eq : unmixRow rk i = rk.unmixFirst i 4 := rfl
    rw [eq, words]
    grind
  simp only [row, placed 1 (by omega), placed 2 (by omega), placed 3 (by omega)]
  rw [show 4 * r = 4 * r + 0 from rfl, placed 0 (by omega)]
  split_ifs <;> rfl

theorem length_unmixRows (rows : List Nat) :
    (rows.foldl unmixRow rk).length = rk.length := by
  induction rows generalizing rk with
  | nil => rfl
  | cons i rows ih => rw [List.foldl_cons, ih, length_unmixRow]

theorem row_unmixRows (start n : Nat) (inside : 4 * (start + n) ≤ rk.length) (r : Nat) :
    ((List.range' start n).foldl unmixRow rk).row r =
      if start ≤ r ∧ r < start + n then (rk.row r).map unmixKey else rk.row r := by
  induction n generalizing start rk with
  | zero => grind
  | succ n ih =>
      rw [List.range'_succ, List.foldl_cons, ih _ _ (by rw [length_unmixRow]; omega),
        row_unmixRow _ (by omega)]
      grind

/-- The keys of the inverse cipher: the other way round, and unmixed but for the first and the
last. -/
theorem row_decryption (nr : Nat) (inside : 4 * nr + 4 ≤ rk.length) (r : Nat) (within : r ≤ nr) :
    ((List.range' 1 (nr - 1)).foldl unmixRow (reverseKeys rk 0 (4 * nr))).row r =
      if 1 ≤ r ∧ r < nr then (rk.row (nr - r)).map unmixKey else rk.row (nr - r) := by
  have reversed := rk.row_reverseKeys (a := 0) inside r
  rw [if_pos ⟨by omega, within⟩, Nat.mul_zero, Nat.zero_add] at reversed
  rw [row_unmixRows _ _ _ (by rw [length_reverseKeys]; omega), reversed]
  grind

end RoundKeys

/-- The middle keys of the inverse cipher. -/
theorem middle_decryption (rk dk : RoundKeys) (nr : Nat)
    (row : ∀ r, 1 ≤ r → r < nr → dk.row r = (rk.row (nr - r)).map unmixKey) :
    dk.middle nr = (rk.middle nr).reverse.map (Columns.map unmixKey) := by
  apply List.ext_getElem
  · simp [RoundKeys.middle]
  · intro i inside _
    have within : i < nr - 1 := by simpa [RoundKeys.middle] using inside
    have placed := row (i + 1) (by omega) (by omega)
    simp only [RoundKeys.middle, List.getElem_map, List.getElem_reverse, List.getElem_range',
      List.length_map, List.length_range', Nat.one_mul, Nat.add_comm 1, placed]
    congr 2
    omega

theorem length_foldl {rows : List Nat} {f : RoundKeys → Nat → RoundKeys}
    (kept : ∀ rk i, (f rk i).length = rk.length) (rk : RoundKeys) :
    (rows.foldl f rk).length = rk.length := by
  induction rows generalizing rk with
  | nil => rfl
  | cons i rows ih => rw [List.foldl_cons, ih, kept]

theorem length_expand128 (rk : RoundKeys) (i : Nat) : (expand128 rk i).length = rk.length := by
  simp [expand128, RoundKeys.xor]

theorem length_expand192 (rk : RoundKeys) (i : Nat) : (expand192 rk i).length = rk.length := by
  unfold expand192
  dsimp only
  split <;> simp [RoundKeys.xor]

theorem length_expand256 (rk : RoundKeys) (i : Nat) : (expand256 rk i).length = rk.length := by
  unfold expand256
  dsimp only
  split <;> simp [RoundKeys.xor]

theorem length_loadKey (rk : RoundKeys) (cipherKey : List UInt8) (words : Nat) :
    (loadKey rk cipherKey words).length = rk.length :=
  length_foldl (fun rk _ => rk.length_put _ _) rk

/-- The lengths of a key, each with the number of rounds. -/
def keyRounds (bytes : Nat) : Option Nat :=
  if bytes = 16 then some 10
  else if bytes = 24 then some 12
  else if bytes = 32 then some 14
  else none

theorem keyRounds_even {bytes nr : Nat} (rounds : keyRounds bytes = some nr) :
    ∃ r, nr = 2 * (r + 1) ∧ nr ≤ 14 := by
  unfold keyRounds at rounds
  split_ifs at rounds <;> cases rounds
  · exact ⟨4, rfl, by omega⟩
  · exact ⟨5, rfl, by omega⟩
  · exact ⟨6, rfl, by omega⟩

/-- The key schedule ends exactly for these lengths, and writes inside what it is given. -/
theorem aesKeysetupencRijndael_spec (rk : RoundKeys) (key : List UInt8) :
    ∃ after : RoundKeys, after.length = rk.length ∧
      aesKeysetupencRijndael rk key (8 * key.length) =
        (keyRounds key.length).map fun nr => (after, nr) := by
  unfold aesKeysetupencRijndael keyRounds
  by_cases short : key.length = 16
  · refine ⟨_, ?_, by rw [if_pos (by omega), if_pos short]; rfl⟩
    rw [length_foldl length_expand128, length_loadKey]
  · rw [if_neg (by omega : ¬ 8 * key.length = 128), if_neg short]
    by_cases middle : key.length = 24
    · refine ⟨_, ?_, by rw [if_pos (by omega), if_pos middle]; rfl⟩
      rw [length_foldl length_expand192, length_loadKey]
    · rw [if_neg (by omega : ¬ 8 * key.length = 192), if_neg middle]
      by_cases long : key.length = 32
      · refine ⟨_, ?_, by rw [if_pos (by omega), if_pos long]; rfl⟩
        rw [length_foldl length_expand256, length_loadKey]
      · exact ⟨rk, rfl, by rw [if_neg (by omega), if_neg long]; rfl⟩

/-! ## The two contexts of a key -/

theorem row_put_nr {rk : RoundKeys} (length : rk.length = aesPrivNrPos + 1) (w : Word) {r : Nat}
    (within : r ≤ 14) : (rk.put aesPrivNrPos w).row r = rk.row r := by
  have inside : aesPrivNrPos < rk.length := by omega
  have top : aesPrivNrPos = 60 := rfl
  simp only [RoundKeys.row, RoundKeys.word_put rk inside]
  rw [if_neg (by omega), if_neg (by omega), if_neg (by omega), if_neg (by omega)]

theorem word_put_nr {rk : RoundKeys} (length : rk.length = aesPrivNrPos + 1) {nr : Nat}
    (small : nr ≤ 14) :
    ((rk.put aesPrivNrPos (BitVec.ofNat 32 nr)).word aesPrivNrPos).toNat = nr := by
  rw [RoundKeys.word_put rk (by omega), if_pos rfl, BitVec.toNat_ofNat]
  omega

theorem middle_put_nr {rk : RoundKeys} (length : rk.length = aesPrivNrPos + 1) (w : Word) {nr : Nat}
    (small : nr ≤ 14) : (rk.put aesPrivNrPos w).middle nr = rk.middle nr := by
  apply List.map_congr_left
  intro r member
  rw [List.mem_range'_1] at member
  exact row_put_nr length w (by omega)

/-- The two contexts of a key are the network and its inverse under the same round keys. -/
theorem contexts {key : List UInt8} {nr : Nat} (rounds : keyRounds key.length = some nr) :
    ∃ (enc dec : RoundKeys) (first last : Columns) (keys : List Columns),
      aesInitEnc key = some enc ∧ aesDecInit key = some dec ∧
      (∀ block, aesEnc enc block =
        storeBlock (Columns.network.encrypt first keys last (loadColumns block))) ∧
      ∀ block, aesDec dec block = storeBlock (Columns.network.decrypt last
        (keys.reverse.map Columns.network.unmix) first (loadColumns block)) := by
  obtain ⟨r, even, small⟩ := keyRounds_even rounds
  obtain ⟨rk, length, setup⟩ := aesKeysetupencRijndael_spec newContext key
  rw [rounds, Option.map_some] at setup
  have size : rk.length = aesPrivNrPos + 1 := by rw [length, newContext, List.length_replicate]
  have enough : 4 * nr + 4 ≤ rk.length := by
    rw [size, aesPrivNrPos]
    omega
  let dk := (List.range' 1 (nr - 1)).foldl unmixRow (reverseKeys rk 0 (4 * nr))
  have dk_size : dk.length = aesPrivNrPos + 1 := by
    rw [RoundKeys.length_unmixRows, RoundKeys.length_reverseKeys, size]
  have rows := rk.row_decryption nr enough
  have dk_middle : dk.middle nr = (rk.middle nr).reverse.map Columns.network.unmix :=
    middle_decryption rk dk nr fun r low high => by rw [rows r (by omega), if_pos ⟨low, high⟩]
  have dk_first : dk.row 0 = rk.row nr := by
    rw [rows 0 (by omega), if_neg (by omega), Nat.sub_zero]
  have dk_last : dk.row nr = rk.row 0 := by
    rw [rows nr (Nat.le_refl nr), if_neg (by omega), Nat.sub_self]
  refine ⟨rk.put aesPrivNrPos (BitVec.ofNat 32 nr), dk.put aesPrivNrPos (BitVec.ofNat 32 nr),
    rk.row 0, rk.row nr, rk.middle nr, by simp [aesInitEnc, setup],
    by simp [aesDecInit, aesKeysetupdecRijndael, setup, dk], fun block => ?_, fun block => ?_⟩
  · rw [aesEnc, word_put_nr size small]
    subst even
    rw [aesEncryptRijndael_eq, row_put_nr size _ (by omega), row_put_nr size _ small,
      middle_put_nr size _ small]
  · rw [aesDec, word_put_nr dk_size small]
    subst even
    rw [aesDecRijndael_eq, row_put_nr dk_size _ (by omega), row_put_nr dk_size _ small,
      middle_put_nr dk_size _ small, dk_middle, dk_first, dk_last]

@[simp] theorem length_storeBlock (s : Columns) : (storeBlock s).length = 16 := rfl

theorem keyRounds_isSome {bytes : Nat} :
    (∃ nr, keyRounds bytes = some nr) ↔ bytes = 16 ∨ bytes = 24 ∨ bytes = 32 := by
  unfold keyRounds
  split_ifs with short middle long
  · simp [short]
  · simp [middle]
  · simp [long]
  · simp [short, middle, long]

/-- Two contexts that undo each other. -/
structure Inverse (enc dec : RoundKeys) : Prop where
  aesDec_aesEnc : ∀ block : List UInt8, block.length = 16 → aesDec dec (aesEnc enc block) = block
  aesEnc_aesDec : ∀ block : List UInt8, block.length = 16 → aesEnc enc (aesDec dec block) = block

theorem inverse_contexts {key : List UInt8}
    (size : key.length = 16 ∨ key.length = 24 ∨ key.length = 32) :
    ∃ enc dec, aesInitEnc key = some enc ∧ aesDecInit key = some dec ∧ Inverse enc dec := by
  obtain ⟨nr, rounds⟩ := keyRounds_isSome.mpr size
  obtain ⟨enc, dec, first, last, keys, made, unmade, encrypts, decrypts⟩ := contexts rounds
  refine ⟨enc, dec, made, unmade, fun block full => ?_, fun block full => ?_⟩
  · rw [encrypts, decrypts, loadColumns_storeBlock, Network.decrypt_encrypt,
      storeBlock_loadColumns full]
  · rw [decrypts, encrypts, loadColumns_storeBlock, Network.encrypt_decrypt,
      storeBlock_loadColumns full]

theorem no_contexts {key : List UInt8}
    (size : ¬(key.length = 16 ∨ key.length = 24 ∨ key.length = 32)) :
    aesInitEnc key = none ∧ aesDecInit key = none := by
  obtain ⟨rk, -, setup⟩ := aesKeysetupencRijndael_spec newContext key
  have refused : keyRounds key.length = none := by
    by_contra some_rounds
    exact size (keyRounds_isSome.mp (Option.ne_none_iff_exists'.mp some_rounds))
  rw [refused, Option.map_none] at setup
  constructor
  · simp [aesInitEnc, setup]
  · simp [aesDecInit, aesKeysetupdecRijndael, setup]

/-- Both contexts are made exactly for a key of 16, 24 or 32 bytes, and then decryption and
encryption of a block undo each other. -/
theorem aes_inverse (key : List UInt8) :
    (key.length = 16 ∨ key.length = 24 ∨ key.length = 32) ∧
        (∃ enc dec, aesInitEnc key = some enc ∧ aesDecInit key = some dec ∧ Inverse enc dec) ∨
      ¬(key.length = 16 ∨ key.length = 24 ∨ key.length = 32) ∧
        aesInitEnc key = none ∧ aesDecInit key = none := by
  by_cases size : key.length = 16 ∨ key.length = 24 ∨ key.length = 32
  · exact .inl ⟨size, inverse_contexts size⟩
  · exact .inr ⟨size, no_contexts size⟩

example : (aesInitEnc ((List.range 16).map UInt8.ofNat)).map
    (fun ctx => aesEnc ctx ((List.range 16).map fun i => UInt8.ofNat (0x11 * i))) =
      some [0x69, 0xc4, 0xe0, 0xd8, 0x6a, 0x7b, 0x04, 0x30, 0xd8, 0xcd, 0xb7, 0x80, 0x70, 0xb4,
        0xc5, 0x5a] := by
  decide +kernel

end Smartchip.Crypto
