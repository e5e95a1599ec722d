import Mathlib.Data.List.DropRight
import Smartchip.Foundation.Memory
import Smartchip.Hif.Aggregate

/-!
# Download of the firmware

`hif_write_firmware` of `os/linux/hif/hif.c` with `CONFIG_RICHV200`.  The image is rounded up to
words and sent in blocks, each behind a descriptor; the last block ends with a checksum.
-/

namespace Smartchip.Hif

open Smartchip.Foundation

/-! ## Words of a descriptor -/

def ofLe32 (a b c d : UInt8) : UInt32 :=
  UInt32.ofNat (a.toNat + 256 * b.toNat + 65536 * c.toNat + 16777216 * d.toNat)

def readLe32 (mem : Mem) (addr : Nat) : UInt32 :=
  ofLe32 (mem addr) (mem (addr + 1)) (mem (addr + 2)) (mem (addr + 3))

/-- `wf_set_bits_to_le_u32` on the word itself. -/
def setBits (word : UInt32) (bitOffset bitLen : Nat) (value : UInt32) : UInt32 :=
  if bitOffset = 0 ∧ bitLen = 32 then value
  else
    let mask : UInt32 := UInt32.ofNat (2 ^ bitLen - 1)
    (word &&& ~~~(mask <<< UInt32.ofNat bitOffset)) |||
      ((value &&& mask) <<< UInt32.ofNat bitOffset)

def wfSetBitsToLeU32 (mem : Mem) (pstart bitOffset bitLen : Nat) (value : UInt32) : Mem :=
  mem.write pstart (le32 (setBits (readLe32 mem pstart) bitOffset bitLen value))

/-! ## The blocks -/

def txdescOffset : Nat := 20

def txdescPackLen : Nat := 4

def firmwareBlockSize : Nat := 512 - txdescOffset - txdescPackLen

def typeFw : UInt32 := 1

def ioTxdescChksum (mem : Mem) : Mem :=
  wfSetBitsToLeU32 mem 16 16 16 (chksumOf mem 9).toUInt32

def ioFirmwareChksum (firmware : Mem) (len : Nat) : UInt16 := chksumOf firmware (len / 2)

/-- What is handed to `hif_io_write`. -/
structure FwWrite where
  desc : Mem
  len : Nat

/-- The first word of the descriptor, in a buffer that has been cleared. -/
def fwHeader (which : UInt8) (first last : Bool) : Mem :=
  let desc : Mem := fun _ => 0
  let desc := wfSetBitsToLeU32 desc 0 0 2 typeFw
  let desc := if first then wfSetBitsToLeU32 desc 0 11 1 1 else desc
  let desc := if last then wfSetBitsToLeU32 desc 0 10 1 1 else desc
  let desc := wfSetBitsToLeU32 desc 0 12 1 which.toUInt32
  -- `HWSEQ_EN`
  wfSetBitsToLeU32 desc 0 18 1 1

/-- One block, from `send_size` on. -/
def fwBlock (firmware : Mem) (which : UInt8) (alignLen : Nat) (first last : Bool)
    (sendSize sendOnce : Nat) : FwWrite :=
  let desc := (fwHeader which first last).write txdescOffset (firmware.read sendSize sendOnce)
  let sendLen := txdescOffset + sendOnce
  if last then
    let checksum := ioFirmwareChksum firmware alignLen
    let desc := wfSetBitsToLeU32 desc sendLen 0 32 checksum.toUInt32
    let desc := wfSetBitsToLeU32 desc 8 0 16 (UInt32.ofNat (sendOnce + txdescPackLen))
    ⟨ioTxdescChksum desc, sendLen + txdescPackLen⟩
  else
    let desc := wfSetBitsToLeU32 desc 8 0 16 (UInt32.ofNat sendOnce)
    ⟨ioTxdescChksum desc, sendLen⟩

/-! ## The loop -/

/-- `reads`, for the specification, are the parts of the image that were read. -/
structure FwLoop where
  i : UInt16
  sendSize : UInt32
  remainSize : UInt32
  sent : List FwWrite
  reads : List (Nat × Nat)

/-- The sizes are of 32 bits. -/
def alignUp (len : UInt32) : UInt32 := (len + 3) / 4 * 4

def blockSize32 : UInt32 := UInt32.ofNat firmwareBlockSize

/-- An image that fills its last block gets another word. -/
def fwAlignLen (len : UInt32) : UInt32 :=
  if alignUp len % blockSize32 ≠ 0 then alignUp len else alignUp len + 4

def fwBlockNum (len : UInt32) : UInt32 := alignUp len / blockSize32 + 1

def fwTurn (firmware : Mem) (which : UInt8) (len : UInt32) (s : FwLoop) : FwLoop :=
  let last : Bool := s.i.toUInt32 = fwBlockNum len - 1
  let sendOnce := if s.remainSize > blockSize32 then blockSize32 else s.remainSize
  let write := fwBlock firmware which (fwAlignLen len).toNat (s.i = 0) last s.sendSize.toNat
    sendOnce.toNat
  let sent := if last then sendOnce + UInt32.ofNat txdescPackLen else sendOnce
  { i := s.i + 1
    sendSize := s.sendSize + sent
    remainSize := s.remainSize - sent
    sent := s.sent ++ [write]
    reads := s.reads ++ (s.sendSize.toNat, sendOnce.toNat) ::
      if last then [(0, (fwAlignLen len).toNat / 2 * 2)] else [] }

/-- What the function depends on besides its arguments: whether the device has been removed,
whether there is memory, which writes succeed, and what `wf_hif_bulk_fw_post` has put into
`fw_buffer` before the wait is over. -/
structure FwLink where
  devRemoved : Bool
  memory : Bool
  written : Nat → Bool
  reply : Option (List UInt8)

/-- Behind the last block. -/
def fwReply (reply : Option (List UInt8)) : Int :=
  match reply with
  | none => -1
  | some prxDesc =>
      if prxDesc.length ≠ 20 then -1
      else if (prxDesc.getD 0 0 &&& 0x03).toUInt32 ≠ typeFw then -1
      else if le16At prxDesc 4 &&& 0x3FFF ≠ 4 then -1
      else if prxDesc.getD 16 0 ≠ 0 then -1
      else 0

/-- `i` has 16 bits, the number of blocks 32. -/
def fwLoop (link : FwLink) (firmware : Mem) (which : UInt8) (len : UInt32) :
    Nat → FwLoop → Option (Int × FwLoop)
  | 0, _ => none
  | fuel + 1, s =>
      if s.i.toUInt32 < fwBlockNum len then
        let s' := fwTurn firmware which len s
        if link.written s.sent.length then fwLoop link firmware which len fuel s'
        else some (-1, s')
      else some (fwReply link.reply, s)

def fwStart (len : UInt32) : FwLoop := ⟨0, 0, fwAlignLen len, [], []⟩

def hifWriteFirmware (link : FwLink) (firmware : Mem) (which : UInt8) (len : UInt32)
    (fuel : Nat) : Option (Int × FwLoop) :=
  if link.devRemoved ∨ link.memory = false then some (-1, fwStart len)
  else fwLoop link firmware which len fuel (fwStart len)

/-! ## The sizes -/

section Sizes

variable {len : UInt32}

theorem alignUp_toNat (len : UInt32) :
    (alignUp len).toNat = (len.toNat + 3) % 2 ^ 32 / 4 * 4 := by
  have bound := len.toNat_lt
  simp only [alignUp, UInt32.toNat_mul, UInt32.toNat_div, UInt32.toNat_add, UInt32.reduceToNat]
  omega

theorem blockSize32_toNat : blockSize32.toNat = 488 := by
  decide

theorem fwAlignLen_toNat (len : UInt32) :
    (fwAlignLen len).toNat =
      if (alignUp len).toNat % 488 ≠ 0 then (alignUp len).toNat
      else (alignUp len).toNat + 4 := by
  have up := alignUp_toNat len
  have zero : alignUp len % blockSize32 ≠ 0 ↔ (alignUp len).toNat % 488 ≠ 0 := by
    rw [ne_eq, ← UInt32.toNat_inj, UInt32.toNat_mod, blockSize32_toNat]
    rfl
  unfold fwAlignLen
  by_cases whole : (alignUp len).toNat % 488 ≠ 0
  · rw [if_pos whole, if_pos (zero.mpr whole)]
  · have four : (4 : UInt32).toNat = 4 := rfl
    rw [if_neg whole, if_neg (mt zero.mp whole), UInt32.toNat_add, four]
    omega

theorem fwBlockNum_toNat (len : UInt32) :
    (fwBlockNum len).toNat = (alignUp len).toNat / 488 + 1 := by
  have bound := (alignUp len).toNat_lt
  simp only [fwBlockNum, UInt32.toNat_add, UInt32.toNat_div, blockSize32_toNat,
    UInt32.reduceToNat]
  omega

/-- The last block is neither empty nor full. -/
theorem fwAlignLen_split (len : UInt32) :
    ∃ r, 0 < r ∧ r ≤ 484 ∧ r % 4 = 0 ∧
      (fwAlignLen len).toNat = 488 * ((fwBlockNum len).toNat - 1) + r := by
  have up := alignUp_toNat len
  rw [fwAlignLen_toNat, fwBlockNum_toNat]
  by_cases whole : (alignUp len).toNat % 488 ≠ 0
  · refine ⟨(alignUp len).toNat % 488, by omega, by omega, by omega, ?_⟩
    rw [if_pos whole]
    omega
  · refine ⟨4, by omega, by omega, by omega, ?_⟩
    rw [if_neg whole]
    omega

/-- Nothing is added to the image when it consists of words and does not fill its blocks. -/
theorem fwAlignLen_eq_iff (len : UInt32) :
    (fwAlignLen len).toNat = len.toNat ↔ len.toNat % 4 = 0 ∧ len.toNat % 488 ≠ 0 := by
  have bound := len.toNat_lt
  have up := alignUp_toNat len
  have words : (alignUp len).toNat = len.toNat ↔ len.toNat % 4 = 0 := by omega
  rw [fwAlignLen_toNat]
  by_cases whole : (alignUp len).toNat % 488 ≠ 0
  · rw [if_pos whole, words]
    constructor
    · intro four
      exact ⟨four, words.mpr four ▸ whole⟩
    · exact And.left
  · rw [if_neg whole]
    constructor
    · omega
    · rintro ⟨four, blocks⟩
      rw [words.mpr four] at whole
      exact absurd blocks whole

end Sizes

/-! ## The turns -/

section Turns

variable {link : FwLink} {firmware : Mem} {which : UInt8} {len : UInt32} {s : FwLoop}
  {j fuel : Nat}

/-- How many bytes of the image a block has. -/
def sendOnceAt (len : UInt32) (j : Nat) : Nat :=
  min 488 ((fwAlignLen len).toNat - 488 * j)

def isLast (len : UInt32) (j : Nat) : Bool := j + 1 = (fwBlockNum len).toNat

def blockAt (firmware : Mem) (which : UInt8) (len : UInt32) (j : Nat) : FwWrite :=
  fwBlock firmware which (fwAlignLen len).toNat (j = 0) (isLast len j) (488 * j)
    (sendOnceAt len j)

def readsAt (len : UInt32) (j : Nat) : List (Nat × Nat) :=
  (488 * j, sendOnceAt len j) ::
    if isLast len j then [(0, (fwAlignLen len).toNat / 2 * 2)] else []

/-- Behind `j` turns of few blocks. -/
structure Reached (firmware : Mem) (which : UInt8) (len : UInt32) (j : Nat) (s : FwLoop) :
    Prop where
  i : s.i.toNat = j
  sizes : j < (fwBlockNum len).toNat → s.sendSize.toNat = 488 * j ∧
    s.remainSize.toNat = (fwAlignLen len).toNat - 488 * j
  sent : s.sent = (List.range j).map (blockAt firmware which len)
  reads : s.reads = (List.range j).flatMap (readsAt len)

theorem i_lt_iff (s : FwLoop) (len : UInt32) :
    s.i.toUInt32 < fwBlockNum len ↔ s.i.toNat < (fwBlockNum len).toNat := by
  rw [UInt32.lt_iff_toNat_lt, UInt16.toNat_toUInt32]

theorem i_last_iff (s : FwLoop) (len : UInt32) :
    s.i.toUInt32 = fwBlockNum len - 1 ↔ s.i.toNat + 1 = (fwBlockNum len).toNat := by
  have some := fwBlockNum_toNat len
  have bound := (fwBlockNum len).toNat_lt
  have small := s.i.toNat_lt
  rw [← UInt32.toNat_inj, UInt32.toNat_sub, UInt16.toNat_toUInt32]
  have one : (1 : UInt32).toNat = 1 := rfl
  rw [one]
  omega

theorem sendOnce_toNat {remain : UInt32} :
    (if remain > blockSize32 then blockSize32 else remain).toNat = min 488 remain.toNat := by
  have size := blockSize32_toNat
  by_cases more : remain > blockSize32
  · have less := UInt32.lt_iff_toNat_lt.mp more
    rw [if_pos more]
    omega
  · have less := mt UInt32.lt_iff_toNat_lt.mpr more
    rw [if_neg more]
    omega

theorem Reached.start (firmware : Mem) (which : UInt8) (len : UInt32) :
    Reached firmware which len 0 (fwStart len) :=
  ⟨rfl, fun _ => ⟨rfl, rfl⟩, rfl, rfl⟩

theorem Reached.turn (reached : Reached firmware which len j s)
    (more : j < (fwBlockNum len).toNat) (few : (fwBlockNum len).toNat < 2 ^ 16) :
    Reached firmware which len (j + 1) (fwTurn firmware which len s) := by
  obtain ⟨sendSize, remain⟩ := reached.sizes more
  obtain ⟨r, some, short, -, split⟩ := fwAlignLen_split len
  have once : (if s.remainSize > blockSize32 then blockSize32 else s.remainSize).toNat =
      sendOnceAt len j := by
    rw [sendOnce_toNat, remain, sendOnceAt]
  have last : (decide (s.i.toUInt32 = fwBlockNum len - 1)) = isLast len j := by
    rw [isLast, decide_eq_decide, i_last_iff, reached.i]
  have first : (decide (s.i = 0)) = decide (j = 0) := by
    rw [decide_eq_decide, ← UInt16.toNat_inj, reached.i]
    rfl
  constructor
  · have index := reached.i
    have one : (1 : UInt16).toNat = 1 := rfl
    simp only [fwTurn, UInt16.toNat_add, one]
    omega
  · intro further
    have notLast : isLast len j = false := by
      simp only [isLast, decide_eq_false_iff_not]
      omega
    have full : sendOnceAt len j = 488 := by
      unfold sendOnceAt
      omega
    have bound := (fwAlignLen len).toNat_lt
    simp only [fwTurn, last, notLast, Bool.false_eq_true, if_false, UInt32.toNat_add,
      UInt32.toNat_sub, once, full, sendSize, remain]
    omega
  · simp only [fwTurn, last, first, once, sendSize, reached.sent]
    rw [List.range_succ, List.map_append]
    rfl
  · simp only [fwTurn, last, once, sendSize, reached.reads]
    rw [List.range_succ, List.flatMap_append]
    simp [readsAt]

theorem fwLoop_turn (written : ∀ n, link.written n = true)
    (more : s.i.toNat < (fwBlockNum len).toNat) :
    fwLoop link firmware which len (fuel + 1) s =
      fwLoop link firmware which len fuel (fwTurn firmware which len s) := by
  rw [fwLoop, if_pos ((i_lt_iff s len).mpr more)]
  simp [written]

theorem fwLoop_ends (full : (fwBlockNum len).toNat ≤ s.i.toNat) :
    fwLoop link firmware which len (fuel + 1) s = some (fwReply link.reply, s) := by
  rw [fwLoop, if_neg]
  rw [i_lt_iff]
  omega

theorem Reached.loop (reached : Reached firmware which len j s)
    (le : j ≤ (fwBlockNum len).toNat) (few : (fwBlockNum len).toNat < 2 ^ 16)
    (written : ∀ n, link.written n = true) (enough : (fwBlockNum len).toNat - j < fuel) :
    ∃ s', fwLoop link firmware which len fuel s = some (fwReply link.reply, s') ∧
      Reached firmware which len (fwBlockNum len).toNat s' := by
  induction fuel generalizing j s with
  | zero => omega
  | succ fuel ih =>
      have index := reached.i
      by_cases more : j < (fwBlockNum len).toNat
      · rw [fwLoop_turn written (by omega)]
        exact ih (reached.turn more few) more (by omega)
      · obtain rfl : j = (fwBlockNum len).toNat := by omega
        rw [fwLoop_ends (by omega)]
        exact ⟨s, rfl, reached⟩

/-- Whatever the fuel, the loop ends behind the last block. -/
theorem Reached.ends (reached : Reached firmware which len j s)
    (le : j ≤ (fwBlockNum len).toNat) (few : (fwBlockNum len).toNat < 2 ^ 16)
    (written : ∀ n, link.written n = true) {ret : Int} {s' : FwLoop}
    (returns : fwLoop link firmware which len fuel s = some (ret, s')) :
    Reached firmware which len (fwBlockNum len).toNat s' := by
  induction fuel generalizing j s with
  | zero => simp [fwLoop] at returns
  | succ fuel ih =>
      have index := reached.i
      by_cases more : j < (fwBlockNum len).toNat
      · rw [fwLoop_turn written (by omega)] at returns
        exact ih (reached.turn more few) more returns
      · obtain rfl : j = (fwBlockNum len).toNat := by omega
        rw [fwLoop_ends (by omega), Option.some.injEq, Prod.mk.injEq] at returns
        exact returns.2 ▸ reached

/-- The index never comes to so many blocks. -/
theorem fwLoop_never (many : 2 ^ 16 ≤ (fwBlockNum len).toNat)
    (written : ∀ n, link.written n = true) :
    fwLoop link firmware which len fuel s = none := by
  induction fuel generalizing s with
  | zero => rfl
  | succ fuel ih =>
      have small := s.i.toNat_lt
      rw [fwLoop_turn written (by omega), ih]

end Turns

/-! ## One block -/

section Blocks

variable {mem : Mem} {pstart start n : Nat} {value : UInt32}

theorem readLe32_congr {other : Mem} {addr : Nat}
    (same : mem.read addr 4 = other.read addr 4) : readLe32 mem addr = readLe32 other addr := by
  rw [Mem.read_eq_iff] at same
  have zero := same 0 (by omega)
  rw [Nat.add_zero] at zero
  simp only [readLe32, zero, same 1 (by omega), same 2 (by omega), same 3 (by omega)]

theorem readLe32_write_self (mem : Mem) (addr : Nat) (value : UInt32) :
    readLe32 (mem.write addr (le32 value)) addr = value := by
  have bound := value.toNat_lt
  have byte : ∀ i < 4, some (mem.write addr (le32 value) (addr + i)) = (le32 value)[i]? :=
    fun i inside => Mem.write_inside mem addr inside
  have zero := byte 0 (by omega)
  have one := byte 1 (by omega)
  have two := byte 2 (by omega)
  have three := byte 3 (by omega)
  simp only [le32, Nat.add_zero, List.getElem?_cons_zero, List.getElem?_cons_succ,
    Option.some.injEq] at zero one two three
  simp only [readLe32, le32, zero, one, two, three]
  apply UInt32.toNat_inj.mp
  simp only [ofLe32, UInt32.toNat_ofNat', UInt8.toNat_ofNat']
  omega

theorem read_wfSetBits (bitOffset bitLen : Nat)
    (apart : start + n ≤ pstart ∨ pstart + 4 ≤ start) :
    (wfSetBitsToLeU32 mem pstart bitOffset bitLen value).read start n = mem.read start n :=
  Mem.read_write_apart mem apart

theorem readLe32_wfSetBits (mem : Mem) (pstart bitOffset bitLen : Nat) (value : UInt32) :
    readLe32 (wfSetBitsToLeU32 mem pstart bitOffset bitLen value) pstart =
      setBits (readLe32 mem pstart) bitOffset bitLen value :=
  readLe32_write_self mem pstart _

/-! ### The descriptor -/

/-- The flags of a block, and the length that it gives for what follows the descriptor. -/
def FwWrite.first (w : FwWrite) : Bool := (readLe32 w.desc 0 >>> 11) &&& 1 = 1

def FwWrite.last (w : FwWrite) : Bool := (readLe32 w.desc 0 >>> 10) &&& 1 = 1

def FwWrite.pktLen (w : FwWrite) : Nat := (readLe32 w.desc 8 &&& 0xffff).toNat

/-- The bytes behind the descriptor. -/
def FwWrite.body (w : FwWrite) : List UInt8 := w.desc.read txdescOffset (w.len - txdescOffset)

/-- The first word of the descriptor. -/
def firstWord (which : UInt8) (first last : Bool) : UInt32 :=
  let word := setBits 0 0 2 typeFw
  let word := if first then setBits word 11 1 1 else word
  let word := if last then setBits word 10 1 1 else word
  setBits (setBits word 12 1 which.toUInt32) 18 1 1

theorem readLe32_fwHeader (which : UInt8) (first last : Bool) :
    readLe32 (fwHeader which first last) 0 = firstWord which first last := by
  have clear : readLe32 (fun _ => 0) 0 = 0 := rfl
  cases first <;> cases last <;> simp [fwHeader, firstWord, readLe32_wfSetBits, clear]

theorem read_fwHeader (which : UInt8) (first last : Bool) (behind : 4 ≤ start) :
    (fwHeader which first last).read start n = Mem.read (fun _ => 0) start n := by
  have set : ∀ (mem : Mem) (bitOffset bitLen : Nat) (value : UInt32),
      (wfSetBitsToLeU32 mem 0 bitOffset bitLen value).read start n = mem.read start n :=
    fun mem bitOffset bitLen value => read_wfSetBits bitOffset bitLen (.inr behind)
  cases first <;> cases last <;> simp [fwHeader, set]

theorem and_one_cases (word : UInt32) : word &&& 1 = 0 ∨ word &&& 1 = 1 := by
  rw [← UInt32.toNat_inj, ← UInt32.toNat_inj, UInt32.toNat_and]
  have one : (1 : UInt32).toNat = 1 := rfl
  have zero : (0 : UInt32).toNat = 0 := rfl
  rw [one, zero, Nat.and_one_is_mod]
  omega

/-- Which firmware it is does not touch the flags. -/
theorem firstWord_flags (which : UInt8) (first last : Bool) :
    ((firstWord which first last >>> 11) &&& 1 = 1 ↔ first = true) ∧
      ((firstWord which first last >>> 10) &&& 1 = 1 ↔ last = true) := by
  have value : ∀ word : UInt32, setBits word 12 1 which.toUInt32 =
      setBits word 12 1 (which.toUInt32 &&& 1) := by
    intro word
    have mask : UInt32.ofNat (2 ^ 1 - 1) = 1 := rfl
    simp only [setBits, mask, UInt32.and_assoc, UInt32.and_self]
    rfl
  unfold firstWord
  simp only [value]
  rcases and_one_cases which.toUInt32 with bit | bit <;> rw [bit] <;>
    cases first <;> cases last <;> decide

/-! ### The whole block -/

variable {firmware : Mem} {which : UInt8} {first last : Bool}
  {alignLen sendSize sendOnce : Nat}

/-- `io_txdesc_chksum` and the length leave the rest of the block as it is. -/
theorem read_completed (apart : start + n ≤ 8 ∨ txdescOffset ≤ start) :
    (ioTxdescChksum (wfSetBitsToLeU32 mem 8 0 16 value)).read start n = mem.read start n := by
  unfold txdescOffset at apart
  unfold ioTxdescChksum
  rw [read_wfSetBits 16 16 (by omega), read_wfSetBits 0 16 (by omega)]

theorem pktLen_completed {len : Nat} (clear : mem.read 8 4 = Mem.read (fun _ => 0) 8 4) :
    FwWrite.pktLen ⟨ioTxdescChksum (wfSetBitsToLeU32 mem 8 0 16 (UInt32.ofNat n)), len⟩ =
      n % 2 ^ 16 := by
  have behind : readLe32 (ioTxdescChksum (wfSetBitsToLeU32 mem 8 0 16 (UInt32.ofNat n))) 8 =
      readLe32 (wfSetBitsToLeU32 mem 8 0 16 (UInt32.ofNat n)) 8 :=
    readLe32_congr (read_wfSetBits 16 16 (.inl (by omega)))
  have zero : readLe32 mem 8 = 0 := readLe32_congr clear
  have mask : (0xffff : UInt32).toNat = 2 ^ 16 - 1 := rfl
  have field : ∀ v : UInt32, setBits 0 0 16 v &&& 0xffff = v &&& 0xffff := by
    intro v
    simp [setBits, UInt32.and_assoc]
  unfold FwWrite.pktLen
  rw [behind, readLe32_wfSetBits, zero, field, UInt32.toNat_and, mask,
    Nat.and_two_pow_sub_one_eq_mod, UInt32.toNat_ofNat']
  omega

/-- What follows the descriptor. -/
def fwBody (firmware : Mem) (alignLen : Nat) (last : Bool) (sendSize sendOnce : Nat) :
    List UInt8 :=
  firmware.read sendSize sendOnce ++
    if last then le32 (ioFirmwareChksum firmware alignLen).toUInt32 else []

theorem length_fwBody (firmware : Mem) (alignLen : Nat) (last : Bool)
    (sendSize sendOnce : Nat) :
    (fwBody firmware alignLen last sendSize sendOnce).length =
      sendOnce + if last then txdescPackLen else 0 := by
  cases last <;> simp [fwBody, txdescPackLen]

theorem fwBlock_eq {body : List UInt8}
    (same : fwBody firmware alignLen last sendSize sendOnce = body) :
    fwBlock firmware which alignLen first last sendSize sendOnce =
      ⟨ioTxdescChksum (wfSetBitsToLeU32 ((fwHeader which first last).write txdescOffset body)
        8 0 16 (UInt32.ofNat body.length)), txdescOffset + body.length⟩ := by
  subst same
  rw [length_fwBody]
  cases last with
  | false => simp [fwBlock, fwBody]
  | true =>
      have whole := Mem.write_append (fwHeader which first true) txdescOffset
        (firmware.read sendSize sendOnce)
        (le32 (ioFirmwareChksum firmware alignLen).toUInt32)
      rw [Mem.length_read] at whole
      simp only [fwBlock, fwBody, if_true, ← whole]
      rfl

/-- What is handed to `hif_io_write` of one block. -/
structure BlockIs (first last : Bool) (body : List UInt8) (w : FwWrite) : Prop where
  len : w.len = txdescOffset + body.length
  isFirst : w.first = first
  isLast : w.last = last
  pktLen : w.pktLen = body.length
  body : w.body = body

theorem first_of_word {w : FwWrite}
    (word : readLe32 w.desc 0 = firstWord which first last) :
    w.first = first ∧ w.last = last := by
  obtain ⟨one, two⟩ := firstWord_flags which first last
  constructor
  · rw [Bool.eq_iff_iff, ← one, FwWrite.first, word, decide_eq_true_eq]
  · rw [Bool.eq_iff_iff, ← two, FwWrite.last, word, decide_eq_true_eq]

theorem fwBlock_is {body : List UInt8}
    (same : fwBody firmware alignLen last sendSize sendOnce = body)
    (short : body.length < 2 ^ 16) :
    BlockIs first last body (fwBlock firmware which alignLen first last sendSize sendOnce) := by
  rw [fwBlock_eq same]
  have front : ∀ {k m : Nat}, k + m ≤ 20 →
      ((fwHeader which first last).write txdescOffset body).read k m =
        (fwHeader which first last).read k m :=
    fun inside => Mem.read_write_apart _ (.inl inside)
  have clear := (@front 8 4 (by omega)).trans (read_fwHeader which first last (by omega))
  have word : readLe32 (ioTxdescChksum (wfSetBitsToLeU32
      ((fwHeader which first last).write txdescOffset body) 8 0 16
        (UInt32.ofNat body.length))) 0 = firstWord which first last := by
    rw [← readLe32_fwHeader]
    apply readLe32_congr
    exact (read_completed (.inl (by omega))).trans (front (by omega))
  obtain ⟨isFirst, isLast⟩ := first_of_word (w := ⟨_, txdescOffset + body.length⟩) word
  refine ⟨rfl, isFirst, isLast, ?_, ?_⟩
  · exact (pktLen_completed clear).trans (Nat.mod_eq_of_lt short)
  · simp only [FwWrite.body, Nat.add_sub_cancel_left]
    rw [read_completed (.inr (Nat.le_refl _)), Mem.read_write_self]

end Blocks

/-! ## The download -/

/-- The payloads of the blocks one after the other, without the checksum word at the end. -/
def payloads (sent : List FwWrite) : List UInt8 :=
  (sent.flatMap FwWrite.body).rdrop txdescPackLen

def xorWords (bytes : List UInt8) : UInt16 :=
  (List.range (bytes.length / 2)).foldl (fun chksum i => chksum ^^^ le16At bytes (2 * i)) 0

structure Downloaded (image : List UInt8) (s : FwLoop) : Prop where
  inside : ∀ part ∈ s.reads, part.1 + part.2 ≤ image.length
  payload : ∃ k, payloads s.sent = image ++ List.replicate k 0
  fits : ∀ w ∈ s.sent, w.len ≤ 512
  first : ∀ i w, s.sent[i]? = some w → (w.first = true ↔ i = 0)
  last : ∀ i w, s.sent[i]? = some w → (w.last = true ↔ i + 1 = s.sent.length)
  pktLen : ∀ w ∈ s.sent, w.pktLen = w.body.length
  checksum : ∃ w ∈ s.sent.getLast?,
    w.body.drop (w.body.length - txdescPackLen) = le32 (xorWords (payloads s.sent)).toUInt32

section Download

variable {firmware : Mem} {which : UInt8} {len : UInt32} {s : FwLoop} {j : Nat}

def bodyAt (firmware : Mem) (len : UInt32) (j : Nat) : List UInt8 :=
  fwBody firmware (fwAlignLen len).toNat (isLast len j) (488 * j) (sendOnceAt len j)

theorem length_bodyAt (firmware : Mem) (len : UInt32) (j : Nat) :
    (bodyAt firmware len j).length ≤ 488 := by
  obtain ⟨r, some, short, -, split⟩ := fwAlignLen_split len
  rw [bodyAt, length_fwBody]
  unfold sendOnceAt isLast txdescPackLen
  split_ifs with last
  · simp only [decide_eq_true_eq] at last
    omega
  · omega

theorem blockAt_is (firmware : Mem) (which : UInt8) (len : UInt32) (j : Nat) :
    BlockIs (decide (j = 0)) (isLast len j) (bodyAt firmware len j)
      (blockAt firmware which len j) := by
  have short := length_bodyAt firmware len j
  exact fwBlock_is rfl (by omega)

theorem bodies_before (inside : j < (fwBlockNum len).toNat) :
    (List.range j).flatMap (bodyAt firmware len) = firmware.read 0 (488 * j) := by
  induction j with
  | zero => rfl
  | succ j ih =>
      obtain ⟨r, some, short, -, split⟩ := fwAlignLen_split len
      have notLast : isLast len j = false := by
        simp only [isLast, decide_eq_false_iff_not]
        omega
      have full : sendOnceAt len j = 488 := by
        unfold sendOnceAt
        omega
      rw [List.range_succ, List.flatMap_append, ih (by omega), Nat.mul_succ, Mem.read_add]
      simp [bodyAt, fwBody, notLast, full]

/-- All blocks together are the image rounded up, and its checksum. -/
theorem bodies_all (firmware : Mem) (len : UInt32) :
    (List.range (fwBlockNum len).toNat).flatMap (bodyAt firmware len) =
      firmware.read 0 (fwAlignLen len).toNat ++
        le32 (ioFirmwareChksum firmware (fwAlignLen len).toNat).toUInt32 := by
  obtain ⟨r, some, short, -, split⟩ := fwAlignLen_split len
  obtain ⟨n, count⟩ : ∃ n, (fwBlockNum len).toNat = n + 1 :=
    ⟨(alignUp len).toNat / 488, fwBlockNum_toNat len⟩
  rw [count, Nat.add_sub_cancel] at split
  have last : isLast len n = true := by simp [isLast, count]
  have rest : sendOnceAt len n = r := by
    unfold sendOnceAt
    omega
  have before := @bodies_before firmware len n (by omega)
  rw [count, List.range_succ, List.flatMap_append, before]
  simp only [List.flatMap_cons, List.flatMap_nil, List.append_nil, bodyAt, fwBody, last, rest,
    if_true]
  rw [split, Mem.read_add, Nat.zero_add, List.append_assoc]

theorem xorWords_read (firmware : Mem) (n : Nat) :
    xorWords (firmware.read 0 n) = ioFirmwareChksum firmware n := by
  unfold xorWords ioFirmwareChksum chksumOf
  rw [Mem.length_read]
  apply List.foldl_ext
  intro chksum i member
  have inside := List.mem_range.mp member
  have low : (firmware.read 0 n).getD (2 * i) 0 = firmware (2 * i) := by
    rw [List.getD_eq_getElem?_getD, Mem.getElem?_read firmware 0 (by omega)]
    simp
  have high : (firmware.read 0 n).getD (2 * i + 1) 0 = firmware (2 * i + 1) := by
    rw [List.getD_eq_getElem?_getD, Mem.getElem?_read firmware 0 (by omega)]
    simp
  rw [le16At, low, high, Mem.readLe16]

theorem Reached.payloads_eq
    (reached : Reached firmware which len (fwBlockNum len).toNat s) :
    payloads s.sent = firmware.read 0 (fwAlignLen len).toNat := by
  have bodies : s.sent.flatMap FwWrite.body =
      (List.range (fwBlockNum len).toNat).flatMap (bodyAt firmware len) := by
    rw [reached.sent, List.flatMap_map]
    congr 1
    funext j
    exact (blockAt_is firmware which len j).body
  rw [payloads, bodies, bodies_all]
  simp [List.rdrop, txdescPackLen]

/-- The whole image is read for the checksum. -/
theorem Reached.read_whole
    (reached : Reached firmware which len (fwBlockNum len).toNat s) :
    (0, (fwAlignLen len).toNat) ∈ s.reads := by
  obtain ⟨r, some, short, four, split⟩ := fwAlignLen_split len
  have count := fwBlockNum_toNat len
  have even : (fwAlignLen len).toNat / 2 * 2 = (fwAlignLen len).toNat := by omega
  rw [reached.reads, List.mem_flatMap]
  refine ⟨(fwBlockNum len).toNat - 1, List.mem_range.mpr (by omega), ?_⟩
  have last : isLast len ((fwBlockNum len).toNat - 1) = true := by
    simp only [isLast, decide_eq_true_eq]
    omega
  simp [readsAt, last, even]

theorem Reached.reads_inside
    (reached : Reached firmware which len (fwBlockNum len).toNat s) :
    ∀ part ∈ s.reads, part.1 + part.2 ≤ (fwAlignLen len).toNat := by
  obtain ⟨r, some, short, four, split⟩ := fwAlignLen_split len
  intro part member
  rw [reached.reads, List.mem_flatMap] at member
  obtain ⟨j, inside, member⟩ := member
  have inside := List.mem_range.mp inside
  rcases List.mem_cons.mp member with rfl | member
  · simp only [sendOnceAt]
    omega
  · split_ifs at member with last
    · rw [List.mem_singleton] at member
      subst member
      simp only
      omega
    · simp at member

theorem Reached.downloaded (reached : Reached firmware which len (fwBlockNum len).toNat s)
    (whole : (fwAlignLen len).toNat = len.toNat) :
    Downloaded (firmware.read 0 len.toNat) s := by
  have count := fwBlockNum_toNat len
  have number : s.sent.length = (fwBlockNum len).toNat := by
    rw [reached.sent, List.length_map, List.length_range]
  have block : ∀ {i : Nat} {w : FwWrite}, s.sent[i]? = some w →
      w = blockAt firmware which len i := by
    intro i w here
    rw [reached.sent, List.getElem?_map, Option.map_eq_some_iff] at here
    obtain ⟨k, index, rfl⟩ := here
    obtain ⟨-, rfl⟩ := List.getElem?_eq_some_iff.mp index
    simp
  have each : ∀ w ∈ s.sent, ∃ j, w = blockAt firmware which len j := by
    intro w member
    obtain ⟨i, here⟩ := List.mem_iff_getElem?.mp member
    exact ⟨i, block here⟩
  constructor
  · intro part member
    rw [Mem.length_read, ← whole]
    exact reached.reads_inside part member
  · exact ⟨0, by rw [reached.payloads_eq, whole]; simp⟩
  · intro w member
    obtain ⟨j, rfl⟩ := each w member
    have short := length_bodyAt firmware len j
    rw [(blockAt_is firmware which len j).len]
    unfold txdescOffset
    omega
  · intro i w here
    rw [block here, (blockAt_is firmware which len i).isFirst, decide_eq_true_eq]
  · intro i w here
    rw [block here, (blockAt_is firmware which len i).isLast, number, isLast,
      decide_eq_true_eq]
  · intro w member
    obtain ⟨j, rfl⟩ := each w member
    rw [(blockAt_is firmware which len j).pktLen, (blockAt_is firmware which len j).body]
  · obtain ⟨n, more⟩ : ∃ n, (fwBlockNum len).toNat = n + 1 := ⟨_, count⟩
    have final : s.sent.getLast? = some (blockAt firmware which len n) := by
      rw [reached.sent, more, List.range_succ, List.map_append]
      simp
    refine ⟨_, final, ?_⟩
    have last : isLast len n = true := by simp [isLast, more]
    have body := (blockAt_is firmware which len n).body
    rw [reached.payloads_eq, xorWords_read, body, bodyAt, last, fwBody, if_pos rfl,
      List.length_append]
    exact List.drop_left' (by simp [txdescPackLen])

end Download

/-- Every write succeeds. -/
def goodLink (reply : Option (List UInt8)) : FwLink := ⟨false, true, fun _ => true, reply⟩

theorem hifWriteFirmware_goodLink (reply : Option (List UInt8)) (firmware : Mem)
    (which : UInt8) (len : UInt32) (fuel : Nat) :
    hifWriteFirmware (goodLink reply) firmware which len fuel =
      fwLoop (goodLink reply) firmware which len fuel (fwStart len) := by
  simp [hifWriteFirmware, goodLink]

/-- A download that ends has few blocks, and one that is right adds nothing to the image. -/
theorem hifWriteFirmware_whole {firmware : Mem} {which : UInt8} {len : UInt32}
    {reply : Option (List UInt8)} {fuel : Nat} {ret : Int} {s : FwLoop}
    (returns : hifWriteFirmware (goodLink reply) firmware which len fuel = some (ret, s))
    (good : Downloaded (firmware.read 0 len.toNat) s) :
    (fwBlockNum len).toNat < 2 ^ 16 ∧ (fwAlignLen len).toNat = len.toNat := by
  have written : ∀ n, (goodLink reply).written n = true := fun _ => rfl
  rw [hifWriteFirmware_goodLink] at returns
  have few : (fwBlockNum len).toNat < 2 ^ 16 := by
    by_contra many
    rw [fwLoop_never (by omega) written] at returns
    simp at returns
  have reached := (Reached.start firmware which len).ends (Nat.zero_le _) few written returns
  have inside := good.inside _ reached.read_whole
  obtain ⟨k, same⟩ := good.payload
  rw [reached.payloads_eq] at same
  have length := congrArg List.length same
  simp only [Mem.length_read, List.length_append, List.length_replicate] at length inside
  exact ⟨few, by omega⟩

/-- When every write succeeds, the download ends and is right exactly for the images that
consist of words, do not fill their last block, and have no more blocks than the index
counts. -/
theorem firmware_download_iff (firmware : Mem) (which : UInt8) (len : UInt32)
    (reply : Option (List UInt8)) :
    (∃ fuel ret s, hifWriteFirmware (goodLink reply) firmware which len fuel = some (ret, s) ∧
      Downloaded (firmware.read 0 len.toNat) s) ↔
    len.toNat % 4 = 0 ∧ len.toNat % 488 ≠ 0 ∧ len.toNat < 65535 * 488 := by
  have count := fwBlockNum_toNat len
  have up := alignUp_toNat len
  have bound := len.toNat_lt
  constructor
  · rintro ⟨fuel, ret, s, returns, good⟩
    obtain ⟨few, whole⟩ := hifWriteFirmware_whole returns good
    obtain ⟨four, blocks⟩ := (fwAlignLen_eq_iff len).mp whole
    have same : (alignUp len).toNat = len.toNat := by omega
    rw [count, same] at few
    exact ⟨four, blocks, by omega⟩
  · rintro ⟨four, blocks, small⟩
    have same : (alignUp len).toNat = len.toNat := by omega
    have few : (fwBlockNum len).toNat < 2 ^ 16 := by omega
    have written : ∀ n, (goodLink reply).written n = true := fun _ => rfl
    obtain ⟨s, returns, reached⟩ := (Reached.start firmware which len).loop (Nat.zero_le _)
      few written (Nat.lt_succ_self _)
    refine ⟨(fwBlockNum len).toNat + 1, fwReply reply, s, ?_,
      reached.downloaded ((fwAlignLen_eq_iff len).mpr ⟨four, blocks⟩)⟩
    rw [hifWriteFirmware_goodLink]
    exact returns

/-- An image of one byte: the bytes behind it are read, sent and counted in the checksum. -/
theorem firmware_one_byte :
    ((hifWriteFirmware (goodLink none) (fun i => UInt8.ofNat (i + 1)) 0 1 2).map fun r =>
        (r.2.sent.map FwWrite.body, r.2.reads)) =
      some ([[1, 2, 3, 4, 2, 6, 0, 0]], [(0, 4), (0, 4)]) ∧
    ¬ ∃ fuel ret s, hifWriteFirmware (goodLink none) (fun i => UInt8.ofNat (i + 1)) 0 1 fuel =
      some (ret, s) ∧ Downloaded [1] s := by
  refine ⟨by decide +kernel, ?_⟩
  rintro ⟨fuel, ret, s, returns, good⟩
  obtain ⟨-, whole⟩ := hifWriteFirmware_whole returns good
  exact absurd whole (by decide)

end Smartchip.Hif
