import Smartchip.Sec.Cipher
import Mathlib.Tactic.IntervalCases

/-!
# The Michael function

The MIC of a whole message on words of 32 bits, and that the context of `nic/sec.c`, which takes
bytes one by one, computes it however the message is cut.
-/

namespace Smartchip.Sec

open Smartchip.Foundation

/-! ## The function -/

/-- Four bytes, the lowest first, as a word. -/
def word (b0 b1 b2 b3 : UInt8) : BitVec 32 :=
  b3.toBitVec ++ b2.toBitVec ++ b1.toBitVec ++ b0.toBitVec

/-- The bytes of both halves of a word are exchanged. -/
def xswap (w : BitVec 32) : BitVec 32 :=
  w.extractLsb' 16 8 ++ w.extractLsb' 24 8 ++ w.extractLsb' 0 8 ++ w.extractLsb' 8 8

/-- One word of the message. -/
def michaelRound (state : BitVec 32 × BitVec 32) (w : BitVec 32) : BitVec 32 × BitVec 32 :=
  let l := state.1 ^^^ w
  let r := state.2 ^^^ l.rotateLeft 17
  let l := l + r
  let r := r ^^^ xswap l
  let l := l + r
  let r := r ^^^ l.rotateLeft 3
  let l := l + r
  let r := r ^^^ l.rotateRight 2
  (l + r, r)

def michaelWords : List UInt8 → List (BitVec 32)
  | b0 :: b1 :: b2 :: b3 :: rest => word b0 b1 b2 b3 :: michaelWords rest
  | _ => []

/-- A byte `0x5a` and four to seven zeros, which make whole words of a message. -/
def michaelPadded (message : List UInt8) : List UInt8 :=
  message ++ 0x5a :: List.replicate (7 - message.length % 4) 0

def michael (k0 k1 : BitVec 32) (message : List UInt8) : BitVec 32 × BitVec 32 :=
  (michaelWords (michaelPadded message)).foldl michaelRound (k0, k1)

/-- The MIC of a message as it is sent. -/
def michaelMic (key : Vector UInt8 8) (message : List UInt8) : List UInt8 :=
  let mic := michael (word key[0] key[1] key[2] key[3]) (word key[4] key[5] key[6] key[7]) message
  le32 ⟨mic.1⟩ ++ le32 ⟨mic.2⟩

/-! ## Words -/

/-- What the shifts of four bytes make is the word. -/
theorem word_shifted (b0 b1 b2 b3 : UInt8) :
    b0.toUInt32 ||| b1.toUInt32 <<< 8 ||| b2.toUInt32 <<< 16 ||| b3.toUInt32 <<< 24 =
      ⟨word b0 b1 b2 b3⟩ := by
  apply UInt32.toBitVec_inj.mp
  apply BitVec.eq_of_getLsbD_eq
  intro i inside
  simp only [UInt32.toBitVec_or, UInt32.toBitVec_shiftLeft, UInt8.toBitVec_toUInt32, word,
    BitVec.getLsbD_or, BitVec.getLsbD_append, BitVec.getLsbD_setWidth, BitVec.shiftLeft_eq',
    UInt32.toBitVec_ofNat, BitVec.getLsbD_shiftLeft]
  interval_cases i <;> simp

theorem rol32_17 (w : UInt32) : (rol32 w 17).toBitVec = w.toBitVec.rotateLeft 17 := by
  apply BitVec.eq_of_getLsbD_eq
  intro i inside
  simp only [rol32, BitVec.getLsbD_rotateLeft]
  interval_cases i <;> simp

theorem rol32_3 (w : UInt32) : (rol32 w 3).toBitVec = w.toBitVec.rotateLeft 3 := by
  apply BitVec.eq_of_getLsbD_eq
  intro i inside
  simp only [rol32, BitVec.getLsbD_rotateLeft]
  interval_cases i <;> simp

theorem ror32_2 (w : UInt32) : (ror32 w 2).toBitVec = w.toBitVec.rotateRight 2 := by
  apply BitVec.eq_of_getLsbD_eq
  intro i inside
  simp only [ror32, rol32, BitVec.getLsbD_rotateRight]
  interval_cases i <;> simp

theorem halves_exchanged (w : UInt32) :
    (((w &&& 0xff00ff00) >>> 8) ||| ((w &&& 0x00ff00ff) <<< 8)).toBitVec = xswap w.toBitVec := by
  apply BitVec.eq_of_getLsbD_eq
  intro i inside
  simp only [xswap, BitVec.getLsbD_append, BitVec.getLsbD_extractLsb']
  interval_cases i <;> simp

/-- A block of the source is a round on the word it has gathered. -/
theorem micBlock_round (mic : MicData) :
    micBlock mic =
      { mic with
        l := ⟨(michaelRound (mic.l.toBitVec, mic.r.toBitVec) mic.m.toBitVec).1⟩
        r := ⟨(michaelRound (mic.l.toBitVec, mic.r.toBitVec) mic.m.toBitVec).2⟩
        m := 0
        nBytesInM := 0 } := by
  simp only [micBlock, MicData.mk.injEq, true_and, and_true]
  constructor <;> apply UInt32.toBitVec_inj.mp <;>
    simp [michaelRound, rol32_17, rol32_3, ror32_2, halves_exchanged, -UInt32.toBitVec_or]

/-! ## Bytes one by one -/

section Append

variable (mic : MicData)

theorem wfSecMicAppend_append (first second : List UInt8) :
    wfSecMicAppend mic (first ++ second) = wfSecMicAppend (wfSecMicAppend mic first) second := by
  simp [wfSecMicAppend]

/-- Chunks are appended as the message they make. -/
theorem foldl_wfSecMicAppend (chunks : List (List UInt8)) :
    chunks.foldl wfSecMicAppend mic = wfSecMicAppend mic chunks.flatten := by
  induction chunks generalizing mic with
  | nil => rfl
  | cons chunk chunks ih =>
      simp [ih, wfSecMicAppend_append]

variable {mic}

theorem nBytesInM_byte (few : mic.nBytesInM.toNat < 4) (b : UInt8) :
    (micAppendByte mic b).nBytesInM.toNat = (mic.nBytesInM.toNat + 1) % 4 := by
  have more : (mic.nBytesInM + 1).toNat = mic.nBytesInM.toNat + 1 := by
    simp only [UInt32.toNat_add, UInt32.toNat_one]
    omega
  have whole : (4 : UInt32) ≤ mic.nBytesInM + 1 ↔ mic.nBytesInM.toNat = 3 := by
    rw [UInt32.le_iff_toNat_le, more]
    simp only [UInt32.toNat_ofNat]
    omega
  simp only [micAppendByte, whole]
  split
  · simp [micBlock, *]
  · rw [more]
    omega

/-- How many bytes of the message wait in the partial word. -/
theorem nBytesInM_append (few : mic.nBytesInM.toNat < 4) (src : List UInt8) :
    (wfSecMicAppend mic src).nBytesInM.toNat = (mic.nBytesInM.toNat + src.length) % 4 := by
  induction src generalizing mic with
  | nil => simp [wfSecMicAppend, Nat.mod_eq_of_lt few]
  | cons b src ih =>
      have one := nBytesInM_byte few b
      have rest := @ih (micAppendByte mic b) (by omega)
      simp only [List.length_cons]
      rw [wfSecMicAppend, List.foldl_cons, ← wfSecMicAppend, rest, one]
      omega

/-- Between two words of the message nothing waits. -/
def MicData.Fresh (mic : MicData) : Prop := mic.m = 0 ∧ mic.nBytesInM = 0

/-- The context after some words. -/
def MicData.after (mic : MicData) (words : List (BitVec 32)) : MicData :=
  let state := words.foldl michaelRound (mic.l.toBitVec, mic.r.toBitVec)
  { mic with l := ⟨state.1⟩, r := ⟨state.2⟩ }

/-- Four bytes between two words are one more word. -/
theorem append_word (fresh : mic.Fresh) (b0 b1 b2 b3 : UInt8) :
    wfSecMicAppend mic [b0, b1, b2, b3] = mic.after [word b0 b1 b2 b3] := by
  obtain ⟨k0, k1, l, r, m, nBytesInM⟩ := mic
  obtain ⟨rfl, rfl⟩ := fresh
  have gathered := congrArg UInt32.toBitVec (word_shifted b0 b1 b2 b3)
  simp at gathered
  simp [wfSecMicAppend, micAppendByte, micBlock_round, MicData.after, gathered]

/-- A message of whole words is appended as these words. -/
theorem append_words (fresh : mic.Fresh) (message : List UInt8) (whole : message.length % 4 = 0) :
    wfSecMicAppend mic message = mic.after (michaelWords message) := by
  induction message using michaelWords.induct generalizing mic with
  | case1 b0 b1 b2 b3 rest ih =>
      have first := append_word fresh b0 b1 b2 b3
      have split : b0 :: b1 :: b2 :: b3 :: rest = [b0, b1, b2, b3] ++ rest := rfl
      rw [split, wfSecMicAppend_append, first, ih]
      · rfl
      · exact fresh
      · simp only [List.length_cons] at whole
        omega
  | case2 message short =>
      rcases message with _ | ⟨b0, _ | ⟨b1, _ | ⟨b2, _ | ⟨b3, rest⟩⟩⟩⟩
      · rfl
      · simp at whole
      · simp at whole
      · simp at whole
      · exact (short b0 b1 b2 b3 rest rfl).elim

/-- The last loop makes a whole word, and its fuel is enough. -/
theorem micPad_eq (few : mic.nBytesInM.toNat < 4) {fuel : Nat}
    (enough : (4 - mic.nBytesInM.toNat) % 4 < fuel) :
    micPad fuel mic =
      wfSecMicAppend mic (List.replicate ((4 - mic.nBytesInM.toNat) % 4) 0) := by
  induction fuel generalizing mic with
  | zero => omega
  | succ fuel ih =>
      rcases Decidable.em (mic.nBytesInM = 0) with whole | part
      · simp [micPad, whole, wfSecMicAppend]
      · have some : mic.nBytesInM.toNat ≠ 0 := by
          intro zero
          exact part (UInt32.toNat_inj.mp zero)
        have one := nBytesInM_byte few 0
        have count : (4 - mic.nBytesInM.toNat) % 4 =
            (4 - (micAppendByte mic 0).nBytesInM.toNat) % 4 + 1 := by
          omega
        rw [micPad, if_pos part, ih (by omega) (by omega), count, List.replicate_succ]
        rfl

end Append

/-! ## The MIC -/

/-- The context that `wf_sec_get_mic` leaves. -/
def clearedMic (mic : MicData) : MicData :=
  clrSecmic (micPad 4 (wfSecMicAppend mic [0x5a, 0, 0, 0, 0]))

theorem wfSecMicSetKey_eq (key : Vector UInt8 8) :
    wfSecMicSetKey key.toList =
      ⟨⟨word key[0] key[1] key[2] key[3]⟩, ⟨word key[4] key[5] key[6] key[7]⟩,
        ⟨word key[0] key[1] key[2] key[3]⟩, ⟨word key[4] key[5] key[6] key[7]⟩, 0, 0⟩ := by
  have byte (i : Nat) (inside : i < 8) : key.toList.getD i 0 = key[i] := by
    simp [List.getD, inside]
  have low : getUsecmic key.toList = ⟨word key[0] key[1] key[2] key[3]⟩ := by
    rw [getUsecmic, byte 0, byte 1, byte 2, byte 3, word_shifted]
  have high : getUsecmic (key.toList.drop 4) = ⟨word key[4] key[5] key[6] key[7]⟩ := by
    have behind (i : Nat) (inside : 4 + i < 8) : (key.toList.drop 4).getD i 0 = key[4 + i] := by
      rw [← byte (4 + i) inside]
      simp [List.getD]
    rw [getUsecmic, behind 0, behind 1, behind 2, behind 3, word_shifted]
  simp [wfSecMicSetKey, clrSecmic, low, high]

theorem setKey_fresh (key : Vector UInt8 8) : (wfSecMicSetKey key.toList).Fresh :=
  ⟨rfl, rfl⟩

/-- What is padded by `wf_sec_get_mic` is the padded message. -/
theorem pad_append (key : Vector UInt8 8) (message : List UInt8) :
    micPad 4 (wfSecMicAppend (wfSecMicAppend (wfSecMicSetKey key.toList) message)
        [0x5a, 0, 0, 0, 0]) =
      wfSecMicAppend (wfSecMicSetKey key.toList) (michaelPadded message) := by
  have few : (wfSecMicSetKey key.toList).nBytesInM.toNat < 4 := by
    rw [(setKey_fresh key).2]
    decide
  have count := nBytesInM_append few (message ++ [0x5a, 0, 0, 0, 0])
  rw [(setKey_fresh key).2, UInt32.toNat_zero, Nat.zero_add, List.length_append] at count
  simp only [List.length_cons, List.length_nil] at count
  rw [← wfSecMicAppend_append, micPad_eq (by omega) (by omega), ← wfSecMicAppend_append]
  have zeros : [(0x5a : UInt8), 0, 0, 0, 0] = 0x5a :: List.replicate 4 0 := rfl
  have more : 4 + (4 - (wfSecMicAppend (wfSecMicSetKey key.toList)
      (message ++ [0x5a, 0, 0, 0, 0])).nBytesInM.toNat) % 4 = 7 - message.length % 4 := by
    omega
  rw [michaelPadded, ← more, ← List.replicate_append_replicate, List.append_assoc, zeros]
  rfl

theorem length_michaelPadded (message : List UInt8) :
    (michaelPadded message).length % 4 = 0 := by
  simp only [michaelPadded, List.length_append, List.length_cons, List.length_replicate]
  omega

/-- What `wf_sec_get_mic` gives for a message, and the context it leaves. -/
theorem mic_of_message (key : Vector UInt8 8) (message : List UInt8) :
    wfSecGetMic (wfSecMicAppend (wfSecMicSetKey key.toList) message) = michaelMic key message ∧
      clearedMic (wfSecMicAppend (wfSecMicSetKey key.toList) message) =
        wfSecMicSetKey key.toList := by
  have whole := append_words (setKey_fresh key) (michaelPadded message)
    (length_michaelPadded message)
  constructor
  · rw [wfSecGetMic, pad_append, whole, wfSecMicSetKey_eq]
    rfl
  · rw [clearedMic, pad_append, whole, wfSecMicSetKey_eq]
    rfl

/-- The MIC of a message in chunks is that of the message, and the context is keyed again, so
that this is true of every message after it. -/
theorem mic_of_chunks (key : Vector UInt8 8) (chunks : List (List UInt8)) :
    wfSecGetMic (chunks.foldl wfSecMicAppend (wfSecMicSetKey key.toList)) =
        michaelMic key chunks.flatten ∧
      clearedMic (chunks.foldl wfSecMicAppend (wfSecMicSetKey key.toList)) =
        wfSecMicSetKey key.toList ∧
      ∀ later : List (List UInt8),
        wfSecGetMic (later.foldl wfSecMicAppend
          (clearedMic (chunks.foldl wfSecMicAppend (wfSecMicSetKey key.toList)))) =
            michaelMic key later.flatten := by
  obtain ⟨mic, keyed⟩ := mic_of_message key chunks.flatten
  rw [foldl_wfSecMicAppend]
  refine ⟨mic, keyed, ?_⟩
  intro later
  rw [keyed, foldl_wfSecMicAppend]
  exact (mic_of_message key later.flatten).1

end Smartchip.Sec
