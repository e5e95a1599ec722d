import Mathlib.Algebra.Group.Nat.Defs
import Mathlib.Data.List.Basic

/-!
# The reserved pages

`lps_set_fw_rsvd_page` of `nic/lps.c` puts four frames for the firmware into one buffer, each
behind room for a descriptor, and tells the firmware on which pages they are.  The descriptor is the
one of 20 bytes that a build with `CONFIG_RICHV200` has.
-/

namespace Smartchip.Pwr

def rsvdPageSize : Nat := 128

def rsvdTxdescSize : Nat := 20

/-- `TX_PAGE_BOUNDARY_9086X` without wake on LAN. -/
def txPageBoundary9086X : Nat := 0xff - 0x08 - 0x08 - 0x00 + 1

/-- `max_rsvd_page_buff_size`. -/
def maxRsvdPageBuffSize : Nat := (255 - txPageBoundary9086X + 1) * rsvdPageSize

/-- `PageNum`. -/
def pageNum (len size : Nat) : Nat := len / size + if len &&& (size - 1) ≠ 0 then 1 else 0

/-! ## The frames -/

/-- What the length of the beacon depends on: whether there is an entry for the access point, and
the lengths of its elements. -/
structure RsvdBeacon where
  found : Bool
  ssidLength : Nat
  datarateLen : Nat
  extDatarateLen : Nat

namespace RsvdBeacon

variable (beacon : RsvdBeacon)

/-- The bytes that `lps_rsvd_page_chip_hw_construct_beacon` goes over. -/
def pktLen : Nat :=
  24 + 8 + 2 + 2 + (2 + beacon.ssidLength) + (2 + min beacon.datarateLen 8) + (2 + 1) +
    if 0 < beacon.extDatarateLen then 2 + beacon.extDatarateLen else 0

def written : Nat := if beacon.found then beacon.pktLen else 0

def tooLarge : Bool := 512 < beacon.pktLen + rsvdTxdescSize

/-- `*length_out`, which stays zero on the early returns. -/
def lengthOut : Nat := if beacon.found = true ∧ beacon.tooLarge = false then beacon.pktLen else 0

end RsvdBeacon

/-- A frame in the buffer; its descriptor is right before it. -/
structure RsvdFrame where
  buffIndex : Nat
  length : Nat
  loc : Nat

/-- The frame on the next free page, the pages used with it, and the place of the next frame. -/
def rsvdPlace (buffIndex total length : Nat) : RsvdFrame × Nat × Nat :=
  let current := pageNum (rsvdTxdescSize + length) rsvdPageSize
  (⟨buffIndex, length, total⟩, buffIndex + current * rsvdPageSize, total + current)

structure RsvdPages where
  psPoll : RsvdFrame
  nullData : RsvdFrame
  qosNull : RsvdFrame
  totalPacketsLen : Nat
  totalPageNumber : Nat

/-- The pages of the beacon, at least two. -/
def beaconPages (lengthOut : Nat) : Nat :=
  let current := pageNum (rsvdTxdescSize + lengthOut) rsvdPageSize
  if current = 1 then current + 1 else current

/-- `lps_set_fw_rsvd_page`. -/
def lpsSetFwRsvdPage (beacon : RsvdBeacon) : RsvdPages :=
  let current := beaconPages beacon.lengthOut
  let (psPoll, buffIndex, total) :=
    rsvdPlace (rsvdTxdescSize + current * rsvdPageSize) current 16
  let (nullData, buffIndex, total) := rsvdPlace buffIndex total 24
  let (qosNull, _, total) := rsvdPlace buffIndex total 26
  ⟨psPoll, nullData, qosNull, qosNull.buffIndex + qosNull.length, total⟩

/-! ## Pages -/

theorem pageNum_eq (len : Nat) : pageNum len rsvdPageSize = (len + 127) / 128 := by
  have rest : len &&& (128 - 1) = len % 128 := Nat.and_two_pow_sub_one_eq_mod len 7
  simp only [pageNum, rsvdPageSize, rest]
  split_ifs <;> omega

theorem RsvdBeacon.lengthOut_le (beacon : RsvdBeacon) :
    beacon.lengthOut + rsvdTxdescSize ≤ 512 := by
  unfold RsvdBeacon.lengthOut RsvdBeacon.tooLarge
  split_ifs with fits
  · simpa using fits.2
  · decide

theorem beaconPages_bounds {lengthOut : Nat} (small : lengthOut + rsvdTxdescSize ≤ 512) :
    2 ≤ beaconPages lengthOut ∧ beaconPages lengthOut ≤ 4 ∧
      rsvdTxdescSize + lengthOut ≤ rsvdPageSize * beaconPages lengthOut := by
  have pages : beaconPages lengthOut = if (20 + lengthOut + 127) / 128 = 1 then
      (20 + lengthOut + 127) / 128 + 1 else (20 + lengthOut + 127) / 128 := by
    simp only [beaconPages, pageNum_eq, rsvdTxdescSize]
  simp only [rsvdTxdescSize, rsvdPageSize] at small ⊢
  by_cases one : (20 + lengthOut + 127) / 128 = 1
  · rw [pages, if_pos one]
    omega
  · rw [pages, if_neg one]
    omega

theorem rsvdPlace_eq (buffIndex total length : Nat) (filled : 0 < length) (short : length ≤ 108) :
    rsvdPlace buffIndex total length =
      (⟨buffIndex, length, total⟩, buffIndex + rsvdPageSize, total + 1) := by
  have one : pageNum (rsvdTxdescSize + length) rsvdPageSize = 1 := by
    rw [pageNum_eq, rsvdTxdescSize]
    omega
  simp only [rsvdPlace, one, Nat.one_mul]

/-- The frame and its descriptor are on the page that the firmware is told. -/
structure RsvdFrame.OnPage (frame : RsvdFrame) : Prop where
  descriptor : frame.buffIndex = rsvdTxdescSize + rsvdPageSize * frame.loc
  inside : frame.buffIndex + frame.length ≤ rsvdPageSize * (frame.loc + 1)

theorem onPage_of {buffIndex length loc : Nat} (short : length ≤ 108)
    (descriptor : buffIndex = rsvdTxdescSize + rsvdPageSize * loc) :
    RsvdFrame.OnPage ⟨buffIndex, length, loc⟩ := by
  refine ⟨descriptor, ?_⟩
  simp only [rsvdTxdescSize, rsvdPageSize] at descriptor ⊢
  omega

/-- Whatever the lengths of the elements, the poll and the two null frames with their descriptors
each lie on the one page that the firmware is told, these pages follow one another behind the
beacon and end inside the reserved buffer, and the beacon as it was written stays off them exactly
when it is not too large. -/
theorem rsvd_pages_laid_out (beacon : RsvdBeacon) :
    let pages := lpsSetFwRsvdPage beacon
    (pages.psPoll.OnPage ∧ pages.nullData.OnPage ∧ pages.qosNull.OnPage) ∧
      pages.nullData.loc = pages.psPoll.loc + 1 ∧ pages.qosNull.loc = pages.nullData.loc + 1 ∧
      pages.totalPageNumber = pages.qosNull.loc + 1 ∧
      pages.totalPacketsLen ≤ maxRsvdPageBuffSize ∧
      (rsvdTxdescSize + beacon.written ≤ rsvdPageSize * pages.psPoll.loc ↔
        ¬(beacon.found = true ∧ beacon.tooLarge = true)) := by
  intro pages
  obtain ⟨least, most, room⟩ := beaconPages_bounds beacon.lengthOut_le
  set front := beaconPages beacon.lengthOut with front_eq
  have eq : pages = {
      psPoll := ⟨rsvdTxdescSize + front * rsvdPageSize, 16, front⟩
      nullData := ⟨rsvdTxdescSize + front * rsvdPageSize + rsvdPageSize, 24, front + 1⟩
      qosNull := ⟨rsvdTxdescSize + front * rsvdPageSize + rsvdPageSize + rsvdPageSize, 26,
        front + 1 + 1⟩
      totalPacketsLen :=
        rsvdTxdescSize + front * rsvdPageSize + rsvdPageSize + rsvdPageSize + 26
      totalPageNumber := front + 1 + 1 + 1 } := by
    simp only [pages, lpsSetFwRsvdPage, ← front_eq]
    rw [rsvdPlace_eq _ _ 16 (by omega) (by omega)]
    simp only
    rw [rsvdPlace_eq _ _ 24 (by omega) (by omega)]
    simp only
    rw [rsvdPlace_eq _ _ 26 (by omega) (by omega)]
  rw [eq]
  refine ⟨⟨onPage_of (by omega) (by rw [Nat.mul_comm]),
    onPage_of (by omega) (by simp only [rsvdTxdescSize, rsvdPageSize]; omega),
    onPage_of (by omega) (by simp only [rsvdTxdescSize, rsvdPageSize]; omega)⟩, rfl, rfl, rfl,
    ?_, ?_⟩
  · simp only [rsvdTxdescSize, rsvdPageSize, maxRsvdPageBuffSize, txPageBoundary9086X]
    omega
  · simp only
    cases found : beacon.found with
    | false =>
        simp only [RsvdBeacon.written, found, rsvdTxdescSize, rsvdPageSize]
        simp
        omega
    | true =>
        cases large : beacon.tooLarge with
        | false =>
            have whole : beacon.written = beacon.lengthOut := by
              simp [RsvdBeacon.written, RsvdBeacon.lengthOut, found, large]
            simpa [whole] using room
        | true =>
            have two : front = 2 := by
              rw [front_eq, RsvdBeacon.lengthOut, large]
              simp [beaconPages, pageNum, rsvdTxdescSize, rsvdPageSize]
            have long : 512 < beacon.pktLen + rsvdTxdescSize := by
              simpa [RsvdBeacon.tooLarge] using large
            simp only [RsvdBeacon.written, found, two, rsvdTxdescSize, rsvdPageSize] at long ⊢
            simp
            omega

end Smartchip.Pwr
