import Smartchip.Wdn.DataUpdate
import Mathlib.Data.List.Nodup
import Mathlib.Tactic.IntervalCases

/-!
# The rates that the firmware may use

`UpdateHalRAMask8188F` of `nic/ars/ars_rainfo.c` with what it calls, and the periodic refresh
that calls it when the signal of a station has changed its level.
-/

namespace Smartchip.Ars

open Smartchip.Foundation Smartchip.Wdn.DataUpdate

/-! ## The level of the signal -/

def dmRatrStaInit : UInt8 := 0

def dmRatrStaHigh : UInt8 := 1

def dmRatrStaMiddle : UInt8 := 2

def dmRatrStaLow : UInt8 := 3

/-- `HighRSSIThresh` and `LowRSSIThresh` of `ars_ra_info_st`. -/
structure RaThresholds where
  high : UInt8
  low : UInt8

/-- What `odm_RateAdaptiveMaskInit` sets. -/
def raThresholdsInit : RaThresholds := ⟨50, 20⟩

/-- The new level, and whether it is written. -/
def odmRAStateCheck (ra : RaThresholds) (rssi : Int) (forceUpdate : Bool) (ratrState : UInt8) :
    Bool × UInt8 :=
  let goUpGap : UInt8 := 5
  -- to go up one or two levels the signal has to be higher by the gap
  let high :=
    if ratrState = dmRatrStaMiddle ∨ ratrState = dmRatrStaLow then ra.high + goUpGap else ra.high
  let low := if ratrState = dmRatrStaLow then ra.low + goUpGap else ra.low
  let state :=
    if rssi > high.toNat then dmRatrStaHigh
    else if rssi > low.toNat then dmRatrStaMiddle
    else dmRatrStaLow
  if ratrState ≠ state ∨ forceUpdate then (true, state) else (false, ratrState)

/-! ## The rates of a station -/

/-- `dot11_rate_table` without its end. -/
def dot11RateTable : List UInt8 := [2, 4, 11, 22, 12, 18, 24, 36, 48, 72, 96, 108]

def htMcsSupportMcsLimit : Nat := 8

/-- `bit_value_from_ieee_value_to_get_func` with its flag set. -/
def bitValueFromIeeeValue (val : UInt8) : BitVec 32 :=
  match dot11RateTable.idxOf? val with
  | some i => 1#32 <<< i
  | none => 0#32

def rateBit (rate : UInt8) : BitVec 32 :=
  if rate ≠ 0 then bitValueFromIeeeValue (rate &&& 0x7f) else 0#32

/-- The bit `i` of `supp_mcs_set`. -/
def mcsBit (info : WdnNetInfo) (i : Nat) : Bool :=
  (info.htCap.suppMcsSet.toList.getD (i / 8) 0).toBitVec.getLsbD (i % 8)

def getRaMask (info : WdnNetInfo) : BitVec 32 :=
  let raMask := info.datarate.held.foldl (fun mask rate => mask ||| rateBit rate) 0#32
  let raMask := info.extDatarate.held.foldl (fun mask rate => mask ||| rateBit rate) raMask
  (List.range htMcsSupportMcsLimit).foldl
    (fun mask i => mask ||| if mcsBit info i then 1#32 <<< (i + 12) else 0#32) raMask

def odmWmB : UInt32 := 0x1

def odmWmG : UInt32 := 0x2

def odmWmA : UInt32 := 0x4

def odmWmN24G : UInt32 := 0x8

def odmWmAC : UInt32 := 0x40

/-- `rate_bitmap` of `ODM_Get_Rate_Bitmap`. -/
def rateBitmap (info : WdnNetInfo) (raMask : BitVec 32) (rssiLevel : UInt8) : BitVec 32 :=
  let wirelessMode := info.networkType
  if wirelessMode = odmWmB then
    if raMask &&& 0x0000000c#32 ≠ 0#32 then 0x0000000d#32 else 0x0000000f#32
  else if wirelessMode = odmWmG ∨ wirelessMode = odmWmA then
    if rssiLevel = dmRatrStaHigh then 0x00000f00#32 else 0x00000ff0#32
  else if wirelessMode = odmWmB ||| odmWmG then
    if rssiLevel = dmRatrStaHigh then 0x00000f00#32
    else if rssiLevel = dmRatrStaMiddle then 0x00000ff0#32
    else 0x00000ff5#32
  else if wirelessMode = odmWmB ||| odmWmG ||| odmWmN24G ∨ wirelessMode = odmWmB ||| odmWmN24G ∨
      wirelessMode = odmWmG ||| odmWmN24G then
    if rssiLevel = dmRatrStaHigh then 0x000f0000#32
    else if rssiLevel = dmRatrStaMiddle then 0x000ff000#32
    else if info.bwMode = .width40 then 0x000ff015#32
    else 0x000ff005#32
  else if wirelessMode = odmWmAC ||| odmWmG then
    if rssiLevel = 1 then 0xfc3f0000#32
    else if rssiLevel = 2 then 0xfffff000#32
    else 0xffffffff#32
  else 0x0fffffff#32

def odmGetRateBitmap (info : WdnNetInfo) (raMask : BitVec 32) (rssiLevel : UInt8) : BitVec 32 :=
  raMask &&& rateBitmap info raMask rssiLevel

/-! ## The message to the firmware -/

def queryRaShortGI (info : WdnNetInfo) : Bool :=
  match info.bwMode with
  | .width40 => info.htpriv.sgi40m
  | .width20 => info.htpriv.sgi20m

/-- The fields of the message `wMBOX1_9086X_MACID_CFG`. -/
structure MacIdCfg where
  macId : UInt8
  raid : BitVec 5
  sgi : Bool
  bw : ChannelWidth
  dispt : Bool
  rateMask0 : BitVec 8
  rateMask1 : BitVec 8
  rateMask2 : BitVec 8
  rateMask3 : BitVec 8

def macIdConfig (macId : UInt8) (raid : UInt8) (bw : ChannelWidth) (sgi disablePowerTraining : Bool)
    (mask : BitVec 32) : MacIdCfg where
  macId := macId
  raid := raid.toBitVec.setWidth 5
  sgi := sgi
  bw := bw
  dispt := disablePowerTraining
  rateMask0 := (mask &&& 0x000000ff#32).setWidth 8
  rateMask1 := ((mask &&& 0x0000ff00#32) >>> 8).setWidth 8
  rateMask2 := ((mask &&& 0x00ff0000#32) >>> 16).setWidth 8
  rateMask3 := ((mask &&& 0xff000000#32) >>> 24).setWidth 8

/-- The mask that the firmware reads in a message. -/
def MacIdCfg.mask (cfg : MacIdCfg) : BitVec 32 :=
  cfg.rateMask3 ++ cfg.rateMask2 ++ cfg.rateMask1 ++ cfg.rateMask0

/-- A station as the refresh sees it; `disablePowerTraining` is what the firmware says. -/
structure RaStation where
  wdnId : UInt8
  info : WdnNetInfo
  apState : Bool
  fwRactrl : Bool
  disablePowerTraining : Bool

def updateHalRAMask8188F (station : RaStation) (rssiLevel : UInt8) : Option MacIdCfg :=
  let info := station.info
  let shortGIrate := queryRaShortGI info
  let mask := getRaMask info
  let bitmap := odmGetRateBitmap info mask rssiLevel
  let mask := mask &&& bitmap
  if station.fwRactrl then
    some (macIdConfig station.wdnId info.raid info.bwMode shortGIrate
      station.disablePowerTraining mask)
  else none

/-- Nothing is done for an access point. -/
def rtwHalUpdateRaMask (station : RaStation) (rssiLevel : UInt8) : Option MacIdCfg :=
  if station.apState then none else updateHalRAMask8188F station rssiLevel

/-- What a period finds: the smoothed signal and `bChangeState`. -/
structure RaTick where
  rssi : Int
  changeState : Bool

/-- One station in a run of `odm_RefreshRateAdaptiveMaskCE`. -/
def refreshMask (ra : RaThresholds) (station : RaStation) (rssiLevel : UInt8) (tick : RaTick) :
    UInt8 × Option MacIdCfg :=
  let (changed, rssiLevel) := odmRAStateCheck ra tick.rssi false rssiLevel
  if changed ∨ tick.changeState then (rssiLevel, rtwHalUpdateRaMask station rssiLevel)
  else (rssiLevel, none)

/-- A message of a run, and the level it was made for. -/
structure Handed where
  level : UInt8
  cfg : MacIdCfg

/-- All messages for a station, from a level on. -/
def refreshes (ra : RaThresholds) (station : RaStation) : UInt8 → List RaTick → List Handed
  | _, [] => []
  | level, tick :: ticks =>
      let (next, message) := refreshMask ra station level tick
      message.toList.map (Handed.mk next) ++ refreshes ra station next ticks

/-! ## Supported and permitted rates -/

/-- The bits of a mask are the twelve rates of the table and eight MCS rates. -/
def Supports (info : WdnNetInfo) (i : Nat) : Prop :=
  (∃ rate ∈ info.datarate.held ++ info.extDatarate.held,
    dot11RateTable[i]? = some (rate &&& 0x7f)) ∨
  12 ≤ i ∧ i < 12 + htMcsSupportMcsLimit ∧ mcsBit info (i - 12) = true

/-- The rates that a type of network uses at a level. -/
def Permitted (info : WdnNetInfo) (level : UInt8) (i : Nat) : Prop :=
  let type := info.networkType
  if type = odmWmB then i < 4
  else if type = odmWmG ∨ type = odmWmA then
    if level = dmRatrStaHigh then 8 ≤ i ∧ i < 12 else 4 ≤ i ∧ i < 12
  else if type = odmWmB ||| odmWmG then
    if level = dmRatrStaHigh then 8 ≤ i ∧ i < 12
    else if level = dmRatrStaMiddle then 4 ≤ i ∧ i < 12
    else i = 0 ∨ i = 2 ∨ 4 ≤ i ∧ i < 12
  else if type = odmWmB ||| odmWmG ||| odmWmN24G ∨ type = odmWmB ||| odmWmN24G ∨
      type = odmWmG ||| odmWmN24G then
    if level = dmRatrStaHigh then 16 ≤ i ∧ i < 20
    else if level = dmRatrStaMiddle then 12 ≤ i ∧ i < 20
    else if info.bwMode = .width40 then i = 0 ∨ i = 2 ∨ i = 4 ∨ 12 ≤ i ∧ i < 20
    else i = 0 ∨ i = 2 ∨ 12 ≤ i ∧ i < 20
  else if type = odmWmAC ||| odmWmG then
    if level = 1 then 16 ≤ i ∧ i < 22 ∨ 26 ≤ i ∧ i < 32
    else if level = 2 then 12 ≤ i ∧ i < 32
    else i < 32
  else i < 28

theorem getLsbD_foldl_or {α : Type} {w : Nat} (bits : α → BitVec w) (xs : List α)
    (mask : BitVec w) (i : Nat) :
    (xs.foldl (fun mask x => mask ||| bits x) mask).getLsbD i =
      (mask.getLsbD i || xs.any fun x => (bits x).getLsbD i) := by
  induction xs generalizing mask with
  | nil => simp
  | cons x xs ih => simp [ih, Bool.or_assoc]

theorem getLsbD_one_shiftLeft (k i : Nat) :
    (1#32 <<< k).getLsbD i = decide (i = k ∧ i < 32) := by
  rw [← BitVec.twoPow_eq, BitVec.getLsbD_twoPow]
  simp only [Bool.decide_and, decide_eq_decide.mpr (@eq_comm _ i k)]
  rcases Decidable.em (k = i) with rfl | other
  · simp
  · simp [other]

/-- The bit of a rate is its place in the table. -/
theorem bitValue_iff (val : UInt8) (i : Nat) :
    (bitValueFromIeeeValue val).getLsbD i = true ↔ dot11RateTable[i]? = some val := by
  rw [List.getElem?_eq_some_iff, bitValueFromIeeeValue]
  split
  next k found =>
    obtain ⟨inside, here, first⟩ := List.idxOf?_eq_some_iff.mp found
    have size : dot11RateTable.length = 12 := rfl
    have distinct : dot11RateTable.Nodup := by decide
    simp only [getLsbD_one_shiftLeft, decide_eq_true_eq]
    constructor
    · rintro ⟨rfl, -⟩
      exact ⟨inside, here⟩
    · rintro ⟨within, there⟩
      exact ⟨(List.Nodup.getElem_inj_iff distinct).mp (there.trans here.symm), by omega⟩
  next none =>
    have absent := List.idxOf?_eq_none_iff.mp none
    simp only [BitVec.getLsbD_zero, Bool.false_eq_true, false_iff]
    rintro ⟨within, there⟩
    exact absent (there ▸ List.getElem_mem within)

theorem rateBit_iff (rate : UInt8) (i : Nat) :
    (rateBit rate).getLsbD i = true ↔ dot11RateTable[i]? = some (rate &&& 0x7f) := by
  rw [rateBit]
  split_ifs with some
  · exact bitValue_iff (rate &&& 0x7f) i
  · have zero : rate = 0 := not_not.mp some
    have absent : (0 : UInt8) ∉ dot11RateTable := by decide
    subst zero
    simp only [BitVec.getLsbD_zero, Bool.false_eq_true, false_iff]
    intro there
    exact absent (List.mem_of_getElem? there)

/-- The mask of a station has the bits of its rates. -/
theorem getRaMask_iff (info : WdnNetInfo) (i : Nat) :
    (getRaMask info).getLsbD i = true ↔ Supports info i := by
  have rates (list : List UInt8) : (list.any fun rate => (rateBit rate).getLsbD i) = true ↔
      ∃ rate ∈ list, dot11RateTable[i]? = some (rate &&& 0x7f) := by
    simp only [List.any_eq_true, rateBit_iff]
  have mcs : ((List.range htMcsSupportMcsLimit).any fun j =>
      (if mcsBit info j then 1#32 <<< (j + 12) else 0#32).getLsbD i) = true ↔
        12 ≤ i ∧ i < 12 + htMcsSupportMcsLimit ∧ mcsBit info (i - 12) = true := by
    simp only [List.any_eq_true, List.mem_range, htMcsSupportMcsLimit]
    constructor
    · rintro ⟨j, few, set⟩
      split_ifs at set with supported
      · obtain ⟨rfl, -⟩ := of_decide_eq_true ((getLsbD_one_shiftLeft (j + 12) i).symm.trans set)
        exact ⟨by omega, by omega, by simpa using supported⟩
      · simp at set
    · rintro ⟨above, below, supported⟩
      refine ⟨i - 12, by omega, ?_⟩
      rw [if_pos supported, getLsbD_one_shiftLeft, decide_eq_true_eq]
      omega
  simp only [getRaMask, getLsbD_foldl_or, BitVec.getLsbD_zero, Bool.false_or, Bool.or_eq_true,
    rates, mcs, Supports, List.mem_append, or_and_right, exists_or]

/-- The bitmaps, but for a network of 802.11b only. -/
theorem rateBitmap_iff (info : WdnNetInfo) (raMask : BitVec 32) (level : UInt8) {i : Nat}
    (inside : i < 32) (type : info.networkType ≠ odmWmB) :
    (rateBitmap info raMask level).getLsbD i = true ↔ Permitted info level i := by
  simp only [rateBitmap, Permitted, type, if_false]
  split_ifs <;> interval_cases i <;> decide

/-- The rates that are left of the mask of a station. -/
theorem masked_iff (info : WdnNetInfo) (level : UInt8) (i : Nat) :
    (getRaMask info &&& odmGetRateBitmap info (getRaMask info) level).getLsbD i = true ↔
      Supports info i ∧ (rateBitmap info (getRaMask info) level).getLsbD i = true := by
  simp only [odmGetRateBitmap, BitVec.getLsbD_and, Bool.and_eq_true, getRaMask_iff]
  tauto

theorem ne_zero_iff {w : Nat} (mask : BitVec w) : mask ≠ 0#w ↔ ∃ i, mask.getLsbD i = true := by
  rw [ne_eq, BitVec.zero_iff_eq_false]
  simp

theorem Supports.inside {info : WdnNetInfo} {i : Nat} (supports : Supports info i) : i < 20 := by
  rcases supports with ⟨rate, -, there⟩ | ⟨-, below, -⟩
  · have size : dot11RateTable.length = 12 := rfl
    have within := (List.getElem?_eq_some_iff.mp there).1
    omega
  · exact below

/-- The bitmap of 802.11b leaves out 2M only where a faster rate is there. -/
theorem kept_cck_iff (info : WdnNetInfo) :
    (∃ i, Supports info i ∧ (if getRaMask info &&& 0x0000000c#32 ≠ 0#32 then 0x0000000d#32
      else 0x0000000f#32).getLsbD i = true) ↔ ∃ i, Supports info i ∧ i < 4 := by
  constructor
  · rintro ⟨i, supports, set⟩
    refine ⟨i, supports, ?_⟩
    have inside := supports.inside
    split_ifs at set <;> interval_cases i <;> simp_all
  · rintro ⟨i, supports, cck⟩
    split_ifs with faster
    · obtain ⟨j, set⟩ := (ne_zero_iff _).mp faster
      rw [BitVec.getLsbD_and, Bool.and_eq_true, getRaMask_iff] at set
      have inside := set.1.inside
      refine ⟨j, set.1, ?_⟩
      have fast := set.2
      revert fast
      interval_cases j <;> decide
    · refine ⟨i, supports, ?_⟩
      interval_cases i <;> decide

/-- Something is left exactly when the station has a rate that is used at the level. -/
theorem masked_ne_zero_iff (info : WdnNetInfo) (level : UInt8) :
    getRaMask info &&& odmGetRateBitmap info (getRaMask info) level ≠ 0#32 ↔
      ∃ i, Supports info i ∧ Permitted info level i := by
  rw [ne_zero_iff]
  simp only [masked_iff]
  rcases Decidable.em (info.networkType = odmWmB) with b | other
  · simp only [rateBitmap, Permitted, b, if_true]
    exact kept_cck_iff info
  · constructor
    · rintro ⟨i, supports, set⟩
      exact ⟨i, supports, (rateBitmap_iff info _ level (by have := supports.inside; omega)
        other).mp set⟩
    · rintro ⟨i, supports, permitted⟩
      exact ⟨i, supports, (rateBitmap_iff info _ level (by have := supports.inside; omega)
        other).mpr permitted⟩

/-- The four bytes of a message are those of the mask. -/
theorem mask_macIdConfig (macId raid : UInt8) (bw : ChannelWidth) (sgi dispt : Bool)
    (mask : BitVec 32) : (macIdConfig macId raid bw sgi dispt mask).mask = mask := by
  apply BitVec.eq_of_getLsbD_eq
  intro i inside
  simp only [MacIdCfg.mask, macIdConfig, BitVec.getLsbD_append, BitVec.getLsbD_setWidth,
    BitVec.getLsbD_ushiftRight, BitVec.getLsbD_and]
  interval_cases i <;> simp

/-- What the firmware gets is a mask with a rate, and with rates of the station only. -/
def GoodMask (info : WdnNetInfo) (mask : BitVec 32) : Prop :=
  mask ≠ 0#32 ∧ ∀ i, mask.getLsbD i = true → Supports info i

theorem goodMask_iff (info : WdnNetInfo) (level : UInt8) :
    GoodMask info (getRaMask info &&& odmGetRateBitmap info (getRaMask info) level) ↔
      ∃ i, Supports info i ∧ Permitted info level i := by
  rw [GoodMask, masked_ne_zero_iff, and_iff_left_iff_imp]
  intro _ i set
  exact ((masked_iff info level i).mp set).1

/-- One period: a message has the mask of the new level. -/
theorem refreshMask_some {ra : RaThresholds} {station : RaStation} {level next : UInt8}
    {tick : RaTick} {cfg : MacIdCfg}
    (handed : refreshMask ra station level tick = (next, some cfg)) :
    cfg.mask = getRaMask station.info &&&
      odmGetRateBitmap station.info (getRaMask station.info) next := by
  simp only [refreshMask, rtwHalUpdateRaMask, updateHalRAMask8188F] at handed
  split_ifs at handed
  · simp at handed
  · rw [Prod.mk.injEq, Option.some.injEq] at handed
    obtain ⟨rfl, rfl⟩ := handed
    exact mask_macIdConfig ..
  · simp at handed
  · simp at handed

/-- In every run, every mask that the firmware gets has a rate exactly when the station has one
that is used at the level of its signal. -/
theorem rate_masks_iff (ra : RaThresholds) (station : RaStation) (level : UInt8)
    (ticks : List RaTick) :
    ∀ handed ∈ refreshes ra station level ticks,
      GoodMask station.info handed.cfg.mask ↔
        ∃ i, Supports station.info i ∧ Permitted station.info handed.level i := by
  induction ticks generalizing level with
  | nil => simp [refreshes]
  | cons tick ticks ih =>
      intro handed among
      simp only [refreshes, List.mem_append, List.mem_map, Option.mem_toList] at among
      rcases among with ⟨cfg, sent, rfl⟩ | later
      · rw [refreshMask_some (Prod.ext rfl sent : refreshMask ra station level tick =
          ((refreshMask ra station level tick).1, some cfg))]
        exact goodMask_iff station.info _
      · exact ih _ handed later

/-- A station with the rates of 802.11b and 6M. -/
def slowStation : RaStation where
  wdnId := 0
  info :=
    { newWdn with
      datarate := ⟨⟨#[0x82, 0x84, 0x8b, 0x96, 0x0c, 0, 0, 0], rfl⟩, 5, by decide⟩
      networkType := odmWmB ||| odmWmG }
  apState := false
  fwRactrl := true
  disablePowerTraining := false

/-- Its signal is found to be high. -/
def slowTicks : List RaTick := [⟨60, false⟩]

theorem slow_handed : refreshes raThresholdsInit slowStation dmRatrStaInit slowTicks ≠ [] := by
  decide

/-- At a high level only 24M and faster are used. -/
theorem rate_mask_empty :
    ¬ ∀ handed ∈ refreshes raThresholdsInit slowStation dmRatrStaInit slowTicks,
      (∃ i, Supports slowStation.info i) → GoodMask slowStation.info handed.cfg.mask := by
  intro all
  have empty : ((refreshes raThresholdsInit slowStation dmRatrStaInit slowTicks).head
      slow_handed).cfg.mask = 0#32 := by
    decide +kernel
  have supports : Supports slowStation.info 0 :=
    Or.inl ⟨0x82, by decide, by decide⟩
  exact (all _ (List.head_mem slow_handed) ⟨0, supports⟩).1 empty

theorem rate_masks_slow :
    GoodMask slowStation.info ((refreshes raThresholdsInit slowStation dmRatrStaInit
      slowTicks).head slow_handed).cfg.mask ↔
        ∃ i, Supports slowStation.info i ∧ Permitted slowStation.info ((refreshes raThresholdsInit
          slowStation dmRatrStaInit slowTicks).head slow_handed).level i :=
  rate_masks_iff raThresholdsInit slowStation dmRatrStaInit slowTicks _ (List.head_mem slow_handed)

end Smartchip.Ars
