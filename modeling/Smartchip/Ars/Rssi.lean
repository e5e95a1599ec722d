import Smartchip.Ars.Smoothing
import Mathlib.Data.Vector.Basic

/-!
# Signal strength

`rssi_process` of `nic/ars/ars_hwconfig.c`.  It keeps for each station a smoothed signal strength
of the CCK and of the OFDM packets, and blends the two by the number of OFDM packets among the
last 64.
-/

namespace Smartchip.Ars

open Smartchip.Foundation

def odmAssociateEntryNum : Nat := 32

/-- `ODM_RATE11M`. -/
def odmRate11M : UInt8 := 0x03

/-- `Rx_Smooth_Factor`. -/
def rxSmoothFactor : Int32 := 20

/-- The part of `RSSI_STA` that the function uses. -/
structure RssiSta where
  undecoratedSmoothedPWDB : Int32
  undecoratedSmoothedCCK : Int32
  undecoratedSmoothedOFDM : Int32
  ofdmPkt : UInt32
  packetMap : UInt64
  validBit : UInt8

def RssiSta.zero : RssiSta where
  undecoratedSmoothedPWDB := 0
  undecoratedSmoothedCCK := 0
  undecoratedSmoothedOFDM := 0
  ofdmPkt := 0
  packetMap := 0
  validBit := 0

/-- What the function reads of `pkt_info` and `phystatus`.  `rxMIMOSignalStrength` is that of
path A. -/
structure PacketInfo where
  dataRate : UInt8
  bPacketToSelf : Bool
  bPacketBeacon : Bool
  rxPWDBAll : UInt8
  rxMIMOSignalStrength : UInt8

/-- The part of `ars_st` that the function writes. -/
structure RssiArs where
  rssiA : UInt8
  rssiB : UInt8
  rssiC : UInt8
  rssiD : UInt8
  rssiSta : Vector RssiSta odmAssociateEntryNum

def isCCKrate (p : PacketInfo) : Bool := decide (p.dataRate ≤ odmRate11M)

/-- The same steps for both kinds of packet. -/
def smooth (smoothed : Int32) (rxPWDBAll : UInt8) (rssiAve : Int32) : Int32 :=
  if smoothed ≤ 0 then rxPWDBAll.toUInt32.toInt32
  else if rxPWDBAll.toUInt32 > smoothed.toUInt32 then
    (smoothed * (rxSmoothFactor - 1) + rssiAve) / rxSmoothFactor + 1
  else (smoothed * (rxSmoothFactor - 1) + rssiAve) / rxSmoothFactor

/-- The packet 64 packets ago. -/
def oldest (packetMap : UInt64) : UInt64 := (packetMap >>> 63) &&& 1

def smoothOFDM (s : RssiSta) (p : PacketInfo) : RssiSta :=
  { s with
    undecoratedSmoothedOFDM :=
      smooth s.undecoratedSmoothedOFDM p.rxPWDBAll p.rxMIMOSignalStrength.toUInt32.toInt32
    ofdmPkt :=
      if s.ofdmPkt ≠ 64 then s.ofdmPkt - (oldest s.packetMap - 1).toUInt32 else s.ofdmPkt
    packetMap := s.packetMap <<< 1 ||| 1 }

def smoothCCK (s : RssiSta) (p : PacketInfo) : RssiSta :=
  { s with
    undecoratedSmoothedCCK :=
      smooth s.undecoratedSmoothedCCK p.rxPWDBAll p.rxPWDBAll.toUInt32.toInt32
    ofdmPkt := s.ofdmPkt - (oldest s.packetMap).toUInt32
    packetMap := s.packetMap <<< 1 }

def weighting (ofdmPkt : UInt32) : UInt32 :=
  if ofdmPkt <<< 4 > 64 then 64 else ofdmPkt <<< 4

/-- The strength of a station with fewer than 64 OFDM packets among the last 64. -/
def weigh (s : RssiSta) : Int32 :=
  if s.validBit = 64 then
    ((weighting s.ofdmPkt * s.undecoratedSmoothedOFDM.toUInt32 +
      (64 - weighting s.ofdmPkt) * s.undecoratedSmoothedCCK.toUInt32) >>> 6).toInt32
  else if s.validBit ≠ 0 then
    ((s.ofdmPkt * s.undecoratedSmoothedOFDM.toUInt32 +
      (s.validBit.toUInt32 - s.ofdmPkt) * s.undecoratedSmoothedCCK.toUInt32) /
      s.validBit.toUInt32).toInt32
  else 0

def blend (s : RssiSta) : RssiSta :=
  if s.ofdmPkt = 64 then { s with undecoratedSmoothedPWDB := s.undecoratedSmoothedOFDM }
  else
    let s := if s.validBit < 64 then { s with validBit := s.validBit + 1 } else s
    { s with undecoratedSmoothedPWDB := weigh s }

def processSta (s : RssiSta) (p : PacketInfo) : RssiSta :=
  blend (if isCCKrate p then smoothCCK s p else smoothOFDM s p)

/-- The strengths of the paths. -/
def setPaths (s : RssiArs) (p : PacketInfo) : RssiArs :=
  if isCCKrate p then
    { s with rssiA := p.rxPWDBAll, rssiB := 0xFF, rssiC := 0xFF, rssiD := 0xFF }
  else { s with rssiA := p.rxMIMOSignalStrength }

/-- Whether a packet counts. -/
def counts (p : PacketInfo) : Bool := p.bPacketToSelf || p.bPacketBeacon

/-- `none` is for `WF_RETURN_FAIL`, which leaves everything as it was. -/
def rssiProcess (s : RssiArs) (staId : UInt8) (p : PacketInfo) : Option RssiArs :=
  if known : staId.toNat < odmAssociateEntryNum then
    if counts p then
      some { setPaths s p with
        rssiSta := s.rssiSta.set staId.toNat (processSta s.rssiSta[staId.toNat] p) }
    else some s
  else none

/-- All packets in turn. -/
def rssiPackets (s : RssiArs) (packets : List (UInt8 × PacketInfo)) : RssiArs :=
  packets.foldl (fun s packet => (rssiProcess s packet.1 packet.2).getD s) s

/-! ## What is to hold -/

abbrev Station := Fin odmAssociateEntryNum

/-- The packets that count for a station, the oldest first. -/
def attributed (station : Station) (packets : List (UInt8 × PacketInfo)) : List PacketInfo :=
  (packets.filter fun packet => packet.1.toNat == station.val && counts packet.2).map Prod.snd

/-- What the packet is in integers. -/
def sample (p : PacketInfo) : Sample :=
  if isCCKrate p then ⟨false, p.rxPWDBAll.toNat, p.rxPWDBAll.toNat⟩
  else ⟨true, p.rxPWDBAll.toNat, p.rxMIMOSignalStrength.toNat⟩

/-- The smoothing of these packets in integers. -/
def smoothed (seen : List PacketInfo) : Smoothed :=
  seen.foldl (fun x p => x.packet (sample p)) .start

/-- Signal strengths of 0 to 100. -/
structure Strengths (p : PacketInfo) : Prop where
  all : p.rxPWDBAll ≤ 100
  path : p.rxMIMOSignalStrength ≤ 100

/-- The smoothed values of the kinds of packet among these. -/
inductive SeenValue (seen : List PacketInfo) (s : RssiSta) : ℤ → Prop
  | cck (p : PacketInfo) (member : p ∈ seen) (rate : isCCKrate p = true) :
      SeenValue seen s s.undecoratedSmoothedCCK.toInt
  | ofdm (p : PacketInfo) (member : p ∈ seen) (rate : isCCKrate p = false) :
      SeenValue seen s s.undecoratedSmoothedOFDM.toInt

/-- Every word has the value that the integers give. -/
structure Exact (s : RssiSta) (x : Smoothed) : Prop where
  pwdb : s.undecoratedSmoothedPWDB.toInt = x.pwdb
  cck : s.undecoratedSmoothedCCK.toInt = x.cck
  ofdm : s.undecoratedSmoothedOFDM.toInt = x.ofdm
  ofdmPkt : (s.ofdmPkt.toNat : ℤ) = ofdmAmong x.kinds
  validBit : (s.validBit.toNat : ℤ) = x.validBit

/-- The subtractions and the sums of the blend stay in the word, and so does the one of the oldest
packet from the count. -/
structure NoWrap (s : RssiSta) : Prop where
  oldest : (oldest s.packetMap).toNat ≤ s.ofdmPkt.toNat
  weight : (weighting s.ofdmPkt).toNat ≤ 64
  rest : s.ofdmPkt ≠ 64 → s.ofdmPkt.toNat ≤ s.validBit.toNat
  weighted : (weighting s.ofdmPkt).toNat * s.undecoratedSmoothedOFDM.toInt +
    (64 - (weighting s.ofdmPkt).toNat) * s.undecoratedSmoothedCCK.toInt < 2 ^ 32
  counted : s.ofdmPkt ≠ 64 → s.ofdmPkt.toNat * s.undecoratedSmoothedOFDM.toInt +
    (s.validBit.toNat - s.ofdmPkt.toNat) * s.undecoratedSmoothedCCK.toInt < 2 ^ 32

structure RssiKept (seen : List PacketInfo) (s : RssiSta) : Prop where
  recent : s.ofdmPkt.toNat = (seen.reverse.take 64).countP fun p => !isCCKrate p
  population : s.ofdmPkt.toNat = s.packetMap.toBitVec.cpop.toNat
  validBit : s.validBit.toNat ≤ 64
  ofdmPkt : s.ofdmPkt ≠ 64 → s.ofdmPkt.toNat ≤ s.validBit.toNat
  cck : Percent s.undecoratedSmoothedCCK.toInt
  ofdm : Percent s.undecoratedSmoothedOFDM.toInt
  between : seen ≠ [] → ∃ low high, SeenValue seen s low ∧ SeenValue seen s high ∧
    low ≤ s.undecoratedSmoothedPWDB.toInt ∧ s.undecoratedSmoothedPWDB.toInt ≤ high
  words : Exact s (smoothed seen)
  noWrap : NoWrap s

/-! ## Words and integers -/

section Words

variable {s : RssiSta} {p : PacketInfo} {kinds : List Bool}

theorem toNat_toUInt32 {x : Int32} (h : 0 ≤ x.toInt) : (x.toUInt32.toNat : Int) = x.toInt := by
  rw [Int32.toNat_toUInt32_of_le (Int32.le_iff_toInt_le.mpr h)]
  exact Int.toNat_of_nonneg h

theorem toInt_toInt32 {u : UInt32} (h : u.toNat < 2 ^ 31) : u.toInt32.toInt = u.toNat := by
  show u.toBitVec.toInt = _
  rw [BitVec.toInt_eq_toNat_of_lt]
  · rfl
  · show 2 * u.toNat < _
    omega

theorem toInt_div {x : UInt32} (n : UInt32) (small : x.toNat < 2 ^ 31) :
    (x / n).toInt32.toInt = (x.toNat : ℤ) / n.toNat := by
  have less : (x / n).toNat < 2 ^ 31 := by
    rw [UInt32.toNat_div]
    exact Nat.lt_of_le_of_lt (Nat.div_le_self x.toNat n.toNat) small
  rw [toInt_toInt32 less, UInt32.toNat_div, Int.natCast_ediv]

theorem toInt_byte (byte : UInt8) : byte.toUInt32.toInt32.toInt = byte.toNat := by
  have small := byte.toNat_lt
  rw [toInt_toInt32]
  · rfl
  · rw [UInt8.toNat_toUInt32]
    omega

theorem mean_word {smoothed rssiAve : Int32} (before : Percent smoothed.toInt)
    (fresh : Percent rssiAve.toInt) :
    ((smoothed * (rxSmoothFactor - 1) + rssiAve) / rxSmoothFactor).toInt =
      mean 19 20 smoothed.toInt rssiAve.toInt := by
  unfold Percent at *
  have less : (rxSmoothFactor - 1).toInt = 19 := by decide
  have factor : rxSmoothFactor.toInt = 20 := by decide
  have product : (smoothed * (rxSmoothFactor - 1)).toInt = smoothed.toInt * 19 := by
    rw [Int32.toInt_mul, less, Int.bmod_eq_of_le (by omega) (by omega)]
  have sum : (smoothed * (rxSmoothFactor - 1) + rssiAve).toInt =
      smoothed.toInt * 19 + rssiAve.toInt := by
    rw [Int32.toInt_add, product, Int.bmod_eq_of_le (by omega) (by omega)]
  rw [Int32.toInt_div, sum, factor, Int.tdiv_eq_ediv_of_nonneg (by omega),
    Int.bmod_eq_of_le (by omega) (by omega)]
  unfold mean
  omega

theorem smooth_toInt {smoothed rssiAve : Int32} (rxPWDBAll : UInt8)
    (before : Percent smoothed.toInt) (fresh : Percent rssiAve.toInt) :
    (smooth smoothed rxPWDBAll rssiAve).toInt =
      nextMean smoothed.toInt rxPWDBAll.toNat rssiAve.toInt := by
  have word := mean_word before fresh
  have high : mean 19 20 smoothed.toInt rssiAve.toInt ≤ 100 :=
    mean_le (by omega) (by omega) before.right fresh.right
  have low : 0 ≤ mean 19 20 smoothed.toInt rssiAve.toInt :=
    le_mean (by omega) (by omega) before.left fresh.left
  have one : (1 : Int32).toInt = 1 := by decide
  have zero : smoothed ≤ 0 ↔ smoothed.toInt ≤ 0 := Int32.le_iff_toInt_le
  have more : rxPWDBAll.toUInt32 > smoothed.toUInt32 ↔ (rxPWDBAll.toNat : ℤ) > smoothed.toInt := by
    rw [gt_iff_lt, UInt32.lt_iff_toNat_lt, UInt8.toNat_toUInt32, ← toNat_toUInt32 before.left]
    omega
  unfold smooth nextMean
  simp only [zero, more]
  split_ifs
  · exact toInt_byte rxPWDBAll
  · rw [Int32.toInt_add, word, one, Int.bmod_eq_of_le (by omega) (by omega)]
  · exact word

/-- The bit that a shift drops. -/
theorem oldest_eq {packetMap : UInt64} {kinds : List Bool}
    (records : Records packetMap.toBitVec kinds) :
    (oldest packetMap).toNat = (kinds.getD 63 false).toNat := by
  have bit : packetMap.toNat.testBit 63 = kinds.getD 63 false := records 63 (by decide)
  rw [← bit, Nat.toNat_testBit]
  simp [oldest, Nat.shiftRight_eq_div_pow]

theorem shiftConcat_true (word : UInt64) :
    (word <<< 1 ||| 1).toBitVec = word.toBitVec.shiftConcat true := by
  ext j inside
  rw [BitVec.getElem_shiftConcat]
  cases j with
  | zero => simp
  | succ j => simp

theorem shiftConcat_false (word : UInt64) :
    (word <<< 1).toBitVec = word.toBitVec.shiftConcat false := by
  ext j inside
  rw [BitVec.getElem_shiftConcat]
  cases j with
  | zero => simp
  | succ j => simp

/-- The map and its count. -/
structure Counted (s : RssiSta) (kinds : List Bool) : Prop where
  map : Records s.packetMap.toBitVec kinds
  ofdmPkt : (s.ofdmPkt.toNat : ℤ) = ofdmAmong kinds

theorem Counted.oldest_le (counted : Counted s kinds) :
    (oldest s.packetMap).toNat ≤ s.ofdmPkt.toNat := by
  have range := ofdmAmong_range (false :: kinds)
  have moved := ofdmAmong_cons false kinds
  rw [← counted.ofdmPkt, ← oldest_eq counted.map] at moved
  simp only [Bool.toNat_false] at moved
  omega

/-- Minus one, subtracted, is one more. -/
theorem sub_bit_sub_one {count : UInt32} {bit : UInt64} (oneBit : bit.toNat ≤ 1)
    (small : count.toNat + 1 < 2 ^ 32) :
    (count - (bit - 1).toUInt32).toNat = count.toNat + 1 - bit.toNat := by
  rw [UInt32.toNat_sub]
  rcases Nat.le_one_iff_eq_zero_or_eq_one.mp oneBit with none | one
  · have zero : bit = 0 := UInt64.toNat_inj.mp none
    have word : ((0 : UInt64) - 1).toUInt32.toNat = 2 ^ 32 - 1 := by decide
    rw [none, zero, word]
    omega
  · have same : bit = 1 := UInt64.toNat_inj.mp one
    have word : ((1 : UInt64) - 1).toUInt32.toNat = 0 := by decide
    rw [one, same, word]
    omega

theorem Counted.smoothOFDM (counted : Counted s kinds) :
    Counted (smoothOFDM s p) (true :: kinds) where
  map := by
    have shifted : (Ars.smoothOFDM s p).packetMap.toBitVec = _ := shiftConcat_true s.packetMap
    rw [shifted]
    exact counted.map.shiftConcat true
  ofdmPkt := by
    have moved := ofdmAmong_cons true kinds
    have range := ofdmAmong_range kinds
    have after := ofdmAmong_range (true :: kinds)
    have out := oldest_eq counted.map
    have bit := Bool.toNat_le (kinds.getD 63 false)
    unfold Ars.smoothOFDM
    simp only [Bool.toNat_true] at moved
    split_ifs with room
    · have oneBit : (oldest s.packetMap).toNat ≤ 1 := by omega
      have small : s.ofdmPkt.toNat + 1 < 2 ^ 32 := by
        have count := counted.ofdmPkt
        omega
      have minus := sub_bit_sub_one oneBit small
      have same := counted.ofdmPkt
      rw [minus]
      omega
    · have full : s.ofdmPkt.toNat = 64 := by
        rw [ne_eq, Classical.not_not] at room
        rw [room]
        rfl
      have same := counted.ofdmPkt
      show (s.ofdmPkt.toNat : ℤ) = _
      omega

theorem Counted.smoothCCK (counted : Counted s kinds) :
    Counted (smoothCCK s p) (false :: kinds) where
  map := by
    have shifted : (Ars.smoothCCK s p).packetMap.toBitVec = _ := shiftConcat_false s.packetMap
    rw [shifted]
    exact counted.map.shiftConcat false
  ofdmPkt := by
    have moved := ofdmAmong_cons false kinds
    have less := counted.oldest_le
    have out := oldest_eq counted.map
    have small : (oldest s.packetMap).toUInt32.toNat = (oldest s.packetMap).toNat := by
      rw [UInt64.toNat_toUInt32, out]
      cases kinds.getD 63 false <;> rfl
    unfold Ars.smoothCCK
    rw [UInt32.toNat_sub_of_le _ _ (UInt32.le_iff_toNat_le.mpr (by omega)), small]
    have same := counted.ofdmPkt
    simp only [Bool.toNat_false] at moved
    omega
/-! ## The blend -/

/-- A weighted sum that stays in the word. -/
theorem sum_word {w n : UInt32} {a b : Int32} (weight : w.toNat ≤ n.toNat) (total : n.toNat ≤ 64)
    (first : Percent a.toInt) (second : Percent b.toInt) :
    ((w * a.toUInt32 + (n - w) * b.toUInt32).toNat : ℤ) =
        w.toNat * a.toInt + (n.toNat - w.toNat) * b.toInt ∧
      w.toNat * a.toInt + (n.toNat - w.toNat) * b.toInt ≤ 12800 := by
  have left := toNat_toUInt32 first.left
  have right := toNat_toUInt32 second.left
  have rest : (n - w).toNat = n.toNat - w.toNat :=
    UInt32.toNat_sub_of_le n w (UInt32.le_iff_toNat_le.mpr weight)
  have highLeft : w.toNat * a.toUInt32.toNat ≤ 64 * 100 :=
    Nat.mul_le_mul (by omega) (by have := first.right; omega)
  have highRight : (n - w).toNat * b.toUInt32.toNat ≤ 64 * 100 :=
    Nat.mul_le_mul (by omega) (by have := second.right; omega)
  have sum : (w * a.toUInt32 + (n - w) * b.toUInt32).toNat =
      w.toNat * a.toUInt32.toNat + (n - w).toNat * b.toUInt32.toNat := by
    rw [UInt32.toNat_add, UInt32.toNat_mul, UInt32.toNat_mul]
    omega
  have value : ((w.toNat * a.toUInt32.toNat + (n - w).toNat * b.toUInt32.toNat : ℕ) : ℤ) =
      w.toNat * a.toInt + (n.toNat - w.toNat) * b.toInt := by
    rw [rest]
    push_cast [weight]
    rw [left, right]
  rw [sum]
  constructor
  · exact value
  · omega

theorem weighting_toNat {count : UInt32} (range : count.toNat ≤ 64) :
    ((weighting count).toNat : ℤ) = weightOf count.toNat := by
  have shifted : (count <<< 4).toNat = count.toNat * 16 := by
    rw [UInt32.toNat_shiftLeft]
    simp only [UInt32.reduceToNat, Nat.reduceMod, Nat.shiftLeft_eq]
    omega
  have more : count <<< 4 > 64 ↔ (count.toNat : ℤ) * 16 > 64 := by
    rw [gt_iff_lt, UInt32.lt_iff_toNat_lt, shifted]
    show 64 < _ ↔ _
    omega
  unfold weighting weightOf
  simp only [more]
  split_ifs
  · rfl
  · rw [shifted]
    omega

theorem weigh_toInt (few : s.ofdmPkt.toNat ≠ 64) (left : s.ofdmPkt.toNat ≤ s.validBit.toNat)
    (valid : s.validBit.toNat ≤ 64) (ofdm : Percent s.undecoratedSmoothedOFDM.toInt)
    (cck : Percent s.undecoratedSmoothedCCK.toInt) :
    (weigh s).toInt = strength s.ofdmPkt.toNat s.validBit.toNat s.undecoratedSmoothedOFDM.toInt
      s.undecoratedSmoothedCCK.toInt := by
  have full : s.validBit = 64 ↔ (s.validBit.toNat : ℤ) = 64 := by
    rw [← UInt8.toNat_inj]
    show _ = 64 ↔ _
    omega
  have any : s.validBit ≠ 0 ↔ (s.validBit.toNat : ℤ) ≠ 0 := by
    rw [ne_eq, ← UInt8.toNat_inj]
    show ¬ _ = 0 ↔ _
    omega
  have word : ((weighting s.ofdmPkt).toNat : ℤ) = _ := weighting_toNat (by omega)
  have weight := weightOf_range (Int.natCast_nonneg s.ofdmPkt.toNat)
  have many := sum_word (w := weighting s.ofdmPkt) (n := 64) (by show _ ≤ 64; omega)
    (Nat.le_refl 64) ofdm cck
  have shifted (x : UInt32) : (x >>> 6).toNat = x.toNat / 64 := by
    rw [UInt32.toNat_shiftRight, Nat.shiftRight_eq_div_pow]
    rfl
  have some := sum_word (w := s.ofdmPkt) (n := s.validBit.toUInt32) left valid ofdm cck
  have notAll : ¬ (s.ofdmPkt.toNat : ℤ) = 64 := by omega
  unfold weigh strength
  simp only [full, any, if_neg notAll]
  split_ifs with isFull isAny
  · rw [toInt_toInt32 (by rw [shifted]; omega), shifted, Int.natCast_ediv, many.left, word]
    rfl
  · rw [toInt_div s.validBit.toUInt32 (by omega), some.left]
    rfl
  · rfl

/-- What the blend gives after a packet is counted. -/
theorem blend_toInt {validBit : ℤ} (counted : Counted s kinds)
    (before : (s.validBit.toNat : ℤ) = validBit)
    (valid : ValidOk kinds (nextValid (ofdmAmong kinds) validBit))
    (ofdm : Percent s.undecoratedSmoothedOFDM.toInt)
    (cck : Percent s.undecoratedSmoothedCCK.toInt) :
    (blend s).undecoratedSmoothedPWDB.toInt =
        strength (ofdmAmong kinds) (nextValid (ofdmAmong kinds) validBit)
          s.undecoratedSmoothedOFDM.toInt s.undecoratedSmoothedCCK.toInt ∧
      ((blend s).validBit.toNat : ℤ) = nextValid (ofdmAmong kinds) validBit := by
  have same := counted.ofdmPkt
  have left := valid.left
  have most := valid.le
  have all : s.ofdmPkt = 64 ↔ ofdmAmong kinds = 64 := by
    rw [← UInt32.toNat_inj, ← same]
    show _ = 64 ↔ _
    omega
  have room : s.validBit < 64 ↔ validBit < 64 := by
    rw [UInt8.lt_iff_toNat_lt, ← before]
    show _ < 64 ↔ _
    omega
  have few : ¬ ofdmAmong kinds = 64 → s.ofdmPkt.toNat ≠ 64 := by omega
  unfold blend
  unfold nextValid at *
  simp only [all, room]
  split_ifs with isAll isRoom
  · refine ⟨?_, before⟩
    simp [strength, isAll]
  · have more : ((s.validBit + 1).toNat : ℤ) = validBit + 1 := by
      rw [UInt8.toNat_add]
      show (((s.validBit.toNat + 1) % 2 ^ 8 : ℕ) : ℤ) = _
      omega
    have word : (weigh { s with validBit := s.validBit + 1 }).toInt = _ :=
      weigh_toInt (s := { s with validBit := s.validBit + 1 }) (few isAll) (by grind) (by grind)
        ofdm cck
    rw [same, more] at word
    exact ⟨word, more⟩
  · have word := weigh_toInt (s := s) (few isAll) (by grind) (by grind) ofdm cck
    rw [same, before] at word
    exact ⟨word, before⟩

theorem blend_same (s : RssiSta) :
    (blend s).undecoratedSmoothedCCK = s.undecoratedSmoothedCCK ∧
      (blend s).undecoratedSmoothedOFDM = s.undecoratedSmoothedOFDM ∧
      (blend s).ofdmPkt = s.ofdmPkt ∧ (blend s).packetMap = s.packetMap := by
  unfold blend
  split_ifs <;> exact ⟨rfl, rfl, rfl, rfl⟩

/-- The words and the map stand for the smoothing in integers. -/
structure Stands (s : RssiSta) (x : Smoothed) : Prop where
  words : Exact s x
  map : Records s.packetMap.toBitVec x.kinds

theorem Stands.counted {x : Smoothed} (stands : Stands s x) : Counted s x.kinds :=
  ⟨stands.map, stands.words.ofdmPkt⟩

theorem percent_byte {byte : UInt8} (high : byte ≤ 100) : Percent byte.toNat := by
  rw [UInt8.le_iff_toNat_le] at high
  have bound : byte.toNat ≤ 100 := high
  exact ⟨by omega, by omega⟩

theorem sample_percent (strengths : Strengths p) :
    Percent (sample p).all ∧ Percent (sample p).ave := by
  have all := percent_byte strengths.all
  have path := percent_byte strengths.path
  unfold sample
  split_ifs
  · exact ⟨all, all⟩
  · exact ⟨all, path⟩

/-- The blend of counted words. -/
theorem Stands.blend (before : Smoothed) {x : Smoothed} (counted : Counted s x.kinds) (ok : x.Ok)
    (cck : s.undecoratedSmoothedCCK.toInt = x.cck)
    (ofdm : s.undecoratedSmoothedOFDM.toInt = x.ofdm)
    (validBit : (s.validBit.toNat : ℤ) = before.validBit)
    (next : x.validBit = nextValid (ofdmAmong x.kinds) before.validBit) :
    Stands (blend s) x := by
  have same := blend_same s
  have value := blend_toInt counted validBit (next ▸ ok.valid) (ofdm ▸ ok.ofdm) (cck ▸ ok.cck)
  rw [← next, cck, ofdm, ← ok.pwdb] at value
  constructor
  · exact {
      pwdb := value.left
      cck := by rw [same.left, cck]
      ofdm := by rw [same.right.left, ofdm]
      ofdmPkt := by rw [same.right.right.left, counted.ofdmPkt]
      validBit := value.right }
  · rw [same.right.right.right]
    exact counted.map

theorem smooth_byte {smoothed : Int32} {value : ℤ} (rxPWDBAll rssiAve : UInt8)
    (stands : smoothed.toInt = value) (before : Percent value) (fresh : Percent rssiAve.toNat) :
    (smooth smoothed rxPWDBAll rssiAve.toUInt32.toInt32).toInt =
      nextMean value rxPWDBAll.toNat rssiAve.toNat := by
  have ave := toInt_byte rssiAve
  have word := smooth_toInt rxPWDBAll (stands ▸ before) (ave ▸ fresh)
  rwa [ave, stands] at word

theorem Stands.processSta {x : Smoothed} (stands : Stands s x) (ok : x.Ok)
    (strengths : Strengths p) : Stands (processSta s p) (x.packet (sample p)) := by
  have percent := sample_percent strengths
  have after := ok.packet percent.left percent.right
  have words := stands.words
  have all := percent_byte strengths.all
  have path := percent_byte strengths.path
  unfold Ars.processSta
  cases rate : isCCKrate p with
  | true =>
    have sampled : sample p = ⟨false, p.rxPWDBAll.toNat, p.rxPWDBAll.toNat⟩ := by
      simp [sample, rate]
    rw [sampled] at after ⊢
    refine Stands.blend x stands.counted.smoothCCK after ?_ words.ofdm words.validBit rfl
    exact smooth_byte p.rxPWDBAll p.rxPWDBAll words.cck ok.cck all
  | false =>
    have sampled : sample p = ⟨true, p.rxPWDBAll.toNat, p.rxMIMOSignalStrength.toNat⟩ := by
      simp [sample, rate]
    rw [sampled] at after ⊢
    refine Stands.blend x stands.counted.smoothOFDM after words.cck ?_ words.validBit rfl
    exact smooth_byte p.rxPWDBAll p.rxMIMOSignalStrength words.ofdm ok.ofdm path

end Words

/-! ## Runs -/

section Runs

variable {s : RssiSta} {seen : List PacketInfo} {kinds : List Bool}

theorem sample_ofdm (p : PacketInfo) : (sample p).ofdm = !isCCKrate p := by
  unfold sample
  cases isCCKrate p <;> rfl

theorem kinds_foldl (seen : List PacketInfo) (x : Smoothed) :
    (seen.foldl (fun x p => x.packet (sample p)) x).kinds =
      seen.reverse.map (fun p => !isCCKrate p) ++ x.kinds := by
  induction seen generalizing x with
  | nil => rfl
  | cons p seen ih =>
    rw [List.foldl_cons, ih]
    simp [Smoothed.packet, sample_ofdm]

theorem kinds_smoothed (seen : List PacketInfo) :
    (smoothed seen).kinds = seen.reverse.map fun p => !isCCKrate p := by
  simp [smoothed, kinds_foldl, Smoothed.start]

/-- The number of OFDM packets among the last 64. -/
theorem ofdmAmong_smoothed (seen : List PacketInfo) : ofdmAmong (smoothed seen).kinds =
    ((seen.reverse.take 64).countP fun p => !isCCKrate p : ℕ) := by
  unfold ofdmAmong
  rw [kinds_smoothed, ← List.map_take, List.count_eq_countP, List.countP_map]
  simp [Function.comp_def]

theorem Smoothed.Seen.seenValue {value : ℤ} (words : Exact s (smoothed seen))
    (known : (smoothed seen).Seen value) : SeenValue seen s value := by
  cases known with
  | cck member =>
    rw [kinds_smoothed, List.mem_map] at member
    obtain ⟨p, member, rate⟩ := member
    rw [← words.cck]
    exact .cck p (List.mem_reverse.mp member) (by simpa using rate)
  | ofdm member =>
    rw [kinds_smoothed, List.mem_map] at member
    obtain ⟨p, member, rate⟩ := member
    rw [← words.ofdm]
    exact .ofdm p (List.mem_reverse.mp member) (by simpa using rate)

theorem noWrap (counted : Counted s kinds) (valid : s.validBit.toNat ≤ 64)
    (rest : s.ofdmPkt ≠ 64 → s.ofdmPkt.toNat ≤ s.validBit.toNat)
    (ofdm : Percent s.undecoratedSmoothedOFDM.toInt)
    (cck : Percent s.undecoratedSmoothedCCK.toInt) : NoWrap s := by
  have range := ofdmAmong_range kinds
  have count := counted.ofdmPkt
  have weight : ((weighting s.ofdmPkt).toNat : ℤ) = _ := weighting_toNat (by omega)
  have small := weightOf_range (Int.natCast_nonneg s.ofdmPkt.toNat)
  have most : (weighting s.ofdmPkt).toNat ≤ (64 : UInt32).toNat := by
    show _ ≤ 64
    omega
  constructor
  · exact counted.oldest_le
  · exact most
  · exact rest
  · have sum := (sum_word most (Nat.le_refl 64) ofdm cck).right
    exact Int.lt_of_le_of_lt sum (by decide)
  · intro few
    have left : s.ofdmPkt.toNat ≤ s.validBit.toUInt32.toNat := rest few
    have sum := (sum_word left valid ofdm cck).right
    exact Int.lt_of_le_of_lt sum (by decide)

theorem Stands.kept (stands : Stands s (smoothed seen)) (ok : (smoothed seen).Ok) :
    RssiKept seen s := by
  have words := stands.words
  have count := words.ofdmPkt
  have left := ok.valid.left
  have most := ok.valid.le
  have range := ofdmAmong_range (smoothed seen).kinds
  have cck : Percent s.undecoratedSmoothedCCK.toInt := words.cck ▸ ok.cck
  have ofdm : Percent s.undecoratedSmoothedOFDM.toInt := words.ofdm ▸ ok.ofdm
  have valid := words.validBit
  have rest : s.ofdmPkt ≠ 64 → s.ofdmPkt.toNat ≤ s.validBit.toNat := by
    intro few
    rw [ne_eq, ← UInt32.toNat_inj] at few
    have notAll : ¬ s.ofdmPkt.toNat = 64 := few
    omega
  constructor
  · have recent := ofdmAmong_smoothed seen
    omega
  · have population := stands.map.cpop
    unfold ofdmAmong at count
    omega
  · omega
  · exact rest
  · exact cck
  · exact ofdm
  · intro some
    have nonempty : (smoothed seen).kinds ≠ [] := by
      rw [kinds_smoothed]
      simpa using some
    obtain ⟨low, high, isLow, isHigh, above, below⟩ := ok.between nonempty
    rw [← words.pwdb] at above below
    exact ⟨low, high, isLow.seenValue words, isHigh.seenValue words, above, below⟩
  · exact words
  · exact noWrap stands.counted (by omega) rest ofdm cck

/-- The part of a station in what a packet does. -/
theorem rssiProcess_station (s : RssiArs) (packet : UInt8 × PacketInfo) (station : Station) :
    ((rssiProcess s packet.1 packet.2).getD s).rssiSta[station] =
      if packet.1.toNat = station.val ∧ counts packet.2 = true then
        processSta s.rssiSta[station] packet.2
      else s.rssiSta[station] := by
  unfold rssiProcess
  split_ifs with known counted
  · by_cases same : packet.1.toNat = station.val
    · simp [same, counted]
    · simp [same, Vector.getElem_set_ne]
  · simp [counted]
  · have other : ¬ packet.1.toNat = station.val := by
      intro same
      exact known (same ▸ station.isLt)
    simp [other]

/-- What holds of a station after the packets seen. -/
structure StationOk (station : Station) (seen : List PacketInfo) (s : RssiArs) : Prop where
  stands : Stands s.rssiSta[station] (smoothed seen)
  ok : (smoothed seen).Ok

theorem smoothed_append (seen : List PacketInfo) (p : PacketInfo) :
    smoothed (seen ++ [p]) = (smoothed seen).packet (sample p) := by
  simp [smoothed]

/-- One packet. -/
theorem StationOk.packet {station : Station} {s : RssiArs} {packet : UInt8 × PacketInfo}
    (before : StationOk station seen s) (strengths : Strengths packet.2) :
    StationOk station (seen ++ attributed station [packet])
      ((rssiProcess s packet.1 packet.2).getD s) := by
  have after := rssiProcess_station s packet station
  have percent := sample_percent strengths
  by_cases counted : packet.1.toNat = station.val ∧ counts packet.2 = true
  · have one : attributed station [packet] = [packet.2] := by simp [attributed, counted]
    rw [if_pos counted] at after
    rw [one]
    constructor
    · rw [after, smoothed_append]
      exact before.stands.processSta before.ok strengths
    · rw [smoothed_append]
      exact before.ok.packet percent.left percent.right
  · have none : attributed station [packet] = [] := by simp_all [attributed]
    rw [if_neg counted] at after
    rw [none, List.append_nil]
    exact ⟨after ▸ before.stands, before.ok⟩

theorem StationOk.packets {station : Station} {s : RssiArs}
    {packets : List (UInt8 × PacketInfo)} (before : StationOk station seen s)
    (strengths : ∀ packet ∈ packets, Strengths packet.2) :
    StationOk station (seen ++ attributed station packets) (rssiPackets s packets) := by
  induction packets generalizing s seen with
  | nil => simpa [attributed, rssiPackets] using before
  | cons packet packets ih =>
    have first := before.packet (strengths packet (by simp))
    have rest := ih first fun packet' member => strengths packet' (by simp [member])
    have split : attributed station (packet :: packets) =
        attributed station [packet] ++ attributed station packets := by
      simp [attributed, ← List.map_append, ← List.filter_append]
    rw [split, ← List.append_assoc]
    exact rest

theorem zero_stands : Stands .zero .start where
  words := ⟨by decide, by decide, by decide, by decide, by decide⟩
  map := records_zero

end Runs

/-- Stations that no packet came from. -/
def RssiArs.fresh (s : RssiArs) : RssiArs :=
  { s with rssiSta := Vector.replicate odmAssociateEntryNum .zero }

/-- After any packets, and so after each of them, the words of each station are what the smoothing
of its packets gives, and stay in range. -/
theorem rssi_smoothed (s : RssiArs) (packets : List (UInt8 × PacketInfo))
    (strengths : ∀ packet ∈ packets, Strengths packet.2) (station : Station) :
    RssiKept (attributed station packets) (rssiPackets s.fresh packets).rssiSta[station] := by
  have start : StationOk station [] s.fresh := by
    constructor
    · simpa [RssiArs.fresh, smoothed] using zero_stands
    · exact Smoothed.start_ok
  have after := start.packets strengths
  rw [List.nil_append] at after
  exact after.stands.kept after.ok

/-- A beacon at 1 Mbit/s and a frame at 6 Mbit/s. -/
def beaconPacket : PacketInfo := ⟨0x00, false, true, 80, 0⟩

def dataPacket : PacketInfo := ⟨0x04, true, false, 60, 62⟩

def silent : RssiArs := ⟨0, 0, 0, 0, Vector.replicate odmAssociateEntryNum .zero⟩

def stationTwo : Station := ⟨2, by decide⟩

theorem beacon_and_data_smoothed :
    RssiKept (attributed stationTwo [(2, beaconPacket), (5, beaconPacket), (2, dataPacket)])
      (rssiPackets silent.fresh
        [(2, beaconPacket), (5, beaconPacket), (2, dataPacket)]).rssiSta[stationTwo] := by
  apply rssi_smoothed
  intro packet member
  simp only [List.mem_cons, List.not_mem_nil, or_false] at member
  rcases member with rfl | rfl | rfl <;> exact ⟨by decide, by decide⟩

/-- One packet of each kind gives the mean of the two. -/
example : (rssiPackets silent.fresh [(2, beaconPacket), (2, dataPacket)]).rssiSta[
    stationTwo].undecoratedSmoothedPWDB = 70 := by
  decide +kernel

end Smartchip.Ars
