import Smartchip.Foundation.Run

/-!
# Initial gain

`odm_DIG` of `nic/ars/ars_dig.c` with what it calls.  It is called again and again with the signal
strength and the false alarms of the last period, and keeps the gain and its bounds in bytes.
-/

namespace Smartchip.Ars

open Smartchip.Foundation

/-- `DM_DIG_MIN_NIC`. -/
def dmDigMinNic : UInt8 := 0x1c

/-- `DM_DIG_MAX_NIC` and `DM_DIG_MAX_AP`. -/
def dmDigMaxNic : UInt8 := 0x3e

def dmDigMaxOfMin : UInt8 := 0x2A

/-- `dm_dig_max` of `odm_DIG`. -/
def dmDigMax : UInt8 := 0x5A

/-- The part of `ars_dig_info_st` that the functions use, and the gain in the register of the first
path. -/
structure DigInfo where
  curIGValue : UInt8
  rxGainRangeMax : UInt8
  rxGainRangeMin : UInt8
  forbiddenIGI : UInt8
  largeFAHit : UInt8
  recoverCnt : UInt32
  digDynamicMin0 : UInt8
  mediaConnect0 : Bool
  stopDIG : Bool
  ignoreDIG : Bool
  dmInitialGainEnable : Bool
  psdInProgress : Bool
  igiReg : UInt8

/-- The part of `ars_st` that a run reads.  `antDiv` is for `ODM_BB_ANT_DIV` with one of the two
types that count, `adaptivity` for `ODM_BB_ADAPTIVITY`. -/
structure ArsInput where
  faCnt : Bool
  dig : Bool
  antDiv : Bool
  adaptivity : Bool
  adaptivityFlag : Bool
  adaptivityIgiUpper : UInt8
  antDivRssiMax : UInt32
  scanInProcess : Bool
  linked : Bool
  oneEntryOnly : Bool
  staState : Bool
  rssiMin : UInt8
  cntAll : UInt32
  numQryBeaconPkt : UInt8
  forceIgi : UInt8

def arsDigInit (register : UInt8) : DigInfo where
  curIGValue := register
  rxGainRangeMax := dmDigMaxNic
  rxGainRangeMin := dmDigMinNic
  forbiddenIGI := dmDigMinNic
  largeFAHit := 0
  recoverCnt := 0
  digDynamicMin0 := dmDigMinNic
  mediaConnect0 := false
  stopDIG := false
  ignoreDIG := false
  dmInitialGainEnable := true
  psdInProgress := false
  igiReg := register

/-- The checks of `ODM_Write_DIG` by the upper bounds. -/
def limitIGI (s : DigInfo) (a : ArsInput) (currentIGI : UInt8) : UInt8 :=
  if s.psdInProgress = false ∧ a.linked = true then
    let currentIGI := if currentIGI > s.rxGainRangeMax then s.rxGainRangeMax else currentIGI
    if a.adaptivity = true ∧ a.adaptivityFlag = true ∧ currentIGI > a.adaptivityIgiUpper then
      a.adaptivityIgiUpper
    else currentIGI
  else currentIGI

def odmWriteDIG (s : DigInfo) (a : ArsInput) (currentIGI : UInt8) : DigInfo :=
  if s.stopDIG then s
  else if s.curIGValue ≠ limitIGI s a currentIGI then
    { s with curIGValue := limitIGI s a currentIGI, igiReg := limitIGI s a currentIGI }
  else s

/-- `funai` is for `CONFIG_SPECIAL_SETTING_FOR_FUNAI_TV`.  An aborted run gives its state. -/
def odmDigAbort (funai : Bool) (s : DigInfo) (a : ArsInput) : Option DigInfo :=
  if a.faCnt = false ∨ a.dig = false ∨ a.scanInProcess = true then some s
  else if s.ignoreDIG then some { s with ignoreDIG := false }
  else if s.dmInitialGainEnable = false then some s
  else if funai = true ∧ a.linked = true ∧ a.forceIgi ≠ 0 then some (odmWriteDIG s a a.forceIgi)
  else none

/-- The bounds of false alarms, from low to high. -/
def odmFAThresholdCheck (funai : Bool) (a : ArsInput) : UInt32 × UInt32 × UInt32 :=
  if a.linked then (if funai then 0x80 else 0x200, 0x300, 0x400) else (2000, 4000, 5000)

/-- A period with an abnormal number of false alarms. -/
def countLargeFA (s : DigInfo) (currentIGI : UInt8) : DigInfo :=
  let s := if s.largeFAHit ≠ 3 then { s with largeFAHit := s.largeFAHit + 1 } else s
  if s.forbiddenIGI < currentIGI then
    { s with forbiddenIGI := currentIGI, largeFAHit := 1 }
  else s

/-- The lower bound of the gain, and the state behind the check.  The comparisons are those of
numbers. -/
def odmForbiddenIGICheck (s : DigInfo) (a : ArsInput) (digDynamicMin currentIGI : UInt8) :
    UInt8 × DigInfo :=
  if a.cntAll > 10000 then
    let s := countLargeFA s currentIGI
    if s.largeFAHit ≥ 3 then
      (if s.forbiddenIGI.toNat + 2 > s.rxGainRangeMax.toNat then s.rxGainRangeMax
        else s.forbiddenIGI + 2, { s with recoverCnt := 1800 })
    else (s.rxGainRangeMin, s)
  else if s.recoverCnt ≠ 0 then (s.rxGainRangeMin, { s with recoverCnt := s.recoverCnt - 1 })
  else if s.largeFAHit < 3 then
    if (s.forbiddenIGI.toNat : Int) - 2 < digDynamicMin.toNat then
      (digDynamicMin, { s with forbiddenIGI := digDynamicMin })
    else (s.forbiddenIGI - 2 + 2, { s with forbiddenIGI := s.forbiddenIGI - 2 })
  else (s.rxGainRangeMin, { s with largeFAHit := 0 })

/-- The upper bound by the signal strength, whose sum with the offset is a byte. -/
def upperBound (a : ArsInput) : UInt8 :=
  if a.linked then
    let tmpDig := a.rssiMin + 15
    if tmpDig > dmDigMax then dmDigMax
    else if tmpDig < dmDigMinNic then dmDigMinNic
    else tmpDig
  else dmDigMaxOfMin

def dynamicMin (s : DigInfo) (a : ArsInput) : UInt8 :=
  if a.linked then
    if a.oneEntryOnly then
      if a.rssiMin < dmDigMinNic then dmDigMinNic
      else if a.rssiMin > dmDigMaxNic then dmDigMaxNic
      else a.rssiMin
    else if a.antDiv then
      if a.antDivRssiMax > dmDigMaxNic.toUInt32 then dmDigMaxNic else a.antDivRssiMax.toUInt8
    else s.digDynamicMin0
  else dmDigMinNic

def firstConnect (s : DigInfo) (a : ArsInput) : Bool := a.linked && !s.mediaConnect0

def firstDisConnect (s : DigInfo) (a : ArsInput) : Bool := !a.linked && s.mediaConnect0

/-- The lower bound before and after the link. -/
def linkBound (s : DigInfo) (a : ArsInput) (digDynamicMin : UInt8) : DigInfo :=
  if a.linked then
    let check := odmForbiddenIGICheck s a digDynamicMin s.curIGValue
    { check.2 with rxGainRangeMin := check.1 }
  else
    { s with
      rxGainRangeMin := digDynamicMin
      forbiddenIGI := if firstDisConnect s a then digDynamicMin else s.forbiddenIGI }

/-- The abnormal cases: too few beacons, and a bound above the other. -/
def correctBound (s : DigInfo) (a : ArsInput) : DigInfo :=
  let s :=
    if a.linked = true ∧ firstConnect s a = false ∧ a.numQryBeaconPkt < 5 ∧ a.staState = true then
      { s with rxGainRangeMin := dmDigMinNic }
    else s
  if s.rxGainRangeMin > s.rxGainRangeMax then { s with rxGainRangeMin := s.rxGainRangeMax } else s

/-- The gain goes up with many false alarms and down with few. -/
def adjustIGI (funai : Bool) (a : ArsInput) (currentIGI : UInt8) : UInt8 :=
  let thres := odmFAThresholdCheck funai a
  if a.cntAll > thres.2.2 then currentIGI + 4
  else if a.cntAll > thres.2.1 then currentIGI + 2
  else if a.cntAll < thres.1 then currentIGI - 2
  else currentIGI

/-- The next gain, before the bounds. -/
def nextIGI (funai : Bool) (s : DigInfo) (a : ArsInput) : UInt8 :=
  let currentIGI := s.curIGValue
  if a.linked then
    if firstConnect s a then
      if a.rssiMin < dmDigMaxNic then
        if currentIGI < a.rssiMin then a.rssiMin else currentIGI
      else if currentIGI < dmDigMaxNic then dmDigMaxNic
      else currentIGI
    else if a.numQryBeaconPkt < 5 ∧ a.cntAll < 0x300 ∧ a.staState = true then s.rxGainRangeMin
    else adjustIGI funai a currentIGI
  else if firstDisConnect s a then dmDigMinNic
  else adjustIGI funai a currentIGI

def boundIGI (s : DigInfo) (currentIGI : UInt8) : UInt8 :=
  let currentIGI := if currentIGI < s.rxGainRangeMin then s.rxGainRangeMin else currentIGI
  if currentIGI > s.rxGainRangeMax then s.rxGainRangeMax else currentIGI

/-- The bounds of the gain in a run that is not aborted. -/
def boundGain (s : DigInfo) (a : ArsInput) : DigInfo :=
  correctBound (linkBound { s with rxGainRangeMax := upperBound a } a (dynamicMin s a)) a

/-- The rest of a run that is not aborted. -/
def adjustGain (funai : Bool) (s : DigInfo) (a : ArsInput) : DigInfo :=
  let digDynamicMin := dynamicMin s a
  let s := boundGain s a
  let currentIGI := boundIGI s (nextIGI funai s a)
  let s := if firstConnect s a then { s with largeFAHit := 0 } else s
  { odmWriteDIG s a currentIGI with mediaConnect0 := a.linked, digDynamicMin0 := digDynamicMin }

def odmDIG (funai : Bool) (s : DigInfo) (a : ArsInput) : DigInfo :=
  match odmDigAbort funai s a with
  | some aborted => aborted
  | none => adjustGain funai s a

/-- Runs, and the flags that others set. -/
inductive DigEvent where
  | run (input : ArsInput)
  | ignoreDIG
  | dmInitialGainEnable (value : Bool)
  | psdInProgress (value : Bool)

def digStep (funai : Bool) (s : DigInfo) : DigEvent → Option DigInfo
  | .run a => some (odmDIG funai s a)
  | .ignoreDIG => some { s with ignoreDIG := true }
  | .dmInitialGainEnable value => some { s with dmInitialGainEnable := value }
  | .psdInProgress value => some { s with psdInProgress := value }

/-! ## What is to hold -/

/-- The bounds are in order and the gain, also in the register, is between them. -/
structure DigInRange (s : DigInfo) : Prop where
  low : dmDigMinNic ≤ s.rxGainRangeMin
  order : s.rxGainRangeMin ≤ s.rxGainRangeMax
  high : s.rxGainRangeMax ≤ dmDigMax
  above : s.rxGainRangeMin ≤ s.curIGValue
  below : s.curIGValue ≤ s.rxGainRangeMax
  register : s.igiReg = s.curIGValue

/-- How `ForbiddenIGI` may go on, as a number. -/
inductive ForbiddenMove (s next : DigInfo) : Prop
  | kept (same : next.forbiddenIGI = s.forbiddenIGI)
  | raised (low : s.forbiddenIGI < s.curIGValue) (same : next.forbiddenIGI = s.curIGValue)
  | least (same : next.forbiddenIGI = next.digDynamicMin0)
  | lowered (two : next.forbiddenIGI.toNat + 2 = s.forbiddenIGI.toNat)

structure DigKept (funai : Bool) (s : DigInfo) (event : DigEvent) (next : DigInfo) : Prop where
  forbidden : dmDigMinNic ≤ next.forbiddenIGI
  move : ForbiddenMove s next
  range : ∀ a, event = .run a → odmDigAbort funai s a = none → DigInRange next

/-! ## The invariant -/

structure DigOk (s : DigInfo) : Prop where
  forbidden : dmDigMinNic ≤ s.forbiddenIGI
  low : dmDigMinNic ≤ s.rxGainRangeMin
  dynamic : dmDigMinNic ≤ s.digDynamicMin0
  writes : s.stopDIG = false
  register : s.igiReg = s.curIGValue

/-- What the checks of the lower bound leave alone. -/
structure SameGain (s s' : DigInfo) : Prop where
  max : s'.rxGainRangeMax = s.rxGainRangeMax
  gain : s'.curIGValue = s.curIGValue
  stop : s'.stopDIG = s.stopDIG
  register : s'.igiReg = s.igiReg

section Bounds

variable {s s' : DigInfo} {a : ArsInput} {funai : Bool} {digDynamicMin currentIGI : UInt8}

theorem upperBound_range (a : ArsInput) :
    dmDigMinNic ≤ upperBound a ∧ upperBound a ≤ dmDigMax := by
  unfold upperBound
  dsimp only
  split_ifs with linked high low
  · decide
  · decide
  · exact ⟨UInt8.not_lt.mp low, UInt8.not_lt.mp high⟩
  · decide

theorem dynamicMin_low (plain : a.antDiv = false) (dynamic : dmDigMinNic ≤ s.digDynamicMin0) :
    dmDigMinNic ≤ dynamicMin s a := by
  unfold dynamicMin
  rw [plain]
  split_ifs with linked one low high never
  · decide
  · decide
  · exact UInt8.not_lt.mp low
  · exact absurd never (by decide)
  · exact absurd never (by decide)
  · exact dynamic
  · decide

theorem sameGain_countLargeFA (s : DigInfo) (currentIGI : UInt8) :
    SameGain s (countLargeFA s currentIGI) := by
  unfold countLargeFA
  dsimp only
  split_ifs <;> exact ⟨rfl, rfl, rfl, rfl⟩

theorem sameGain_check (s : DigInfo) (a : ArsInput) (digDynamicMin currentIGI : UInt8) :
    SameGain s (odmForbiddenIGICheck s a digDynamicMin currentIGI).2 := by
  have count := sameGain_countLargeFA s currentIGI
  unfold odmForbiddenIGICheck
  dsimp only
  split_ifs
  · exact ⟨count.max, count.gain, count.stop, count.register⟩
  · exact ⟨count.max, count.gain, count.stop, count.register⟩
  · exact count
  · exact ⟨rfl, rfl, rfl, rfl⟩
  · exact ⟨rfl, rfl, rfl, rfl⟩
  · exact ⟨rfl, rfl, rfl, rfl⟩
  · exact ⟨rfl, rfl, rfl, rfl⟩

theorem countLargeFA_forbidden (s : DigInfo) (currentIGI : UInt8) :
    (countLargeFA s currentIGI).forbiddenIGI = s.forbiddenIGI ∨
      s.forbiddenIGI < currentIGI ∧ (countLargeFA s currentIGI).forbiddenIGI = currentIGI := by
  unfold countLargeFA
  dsimp only
  split_ifs with hit low low
  · exact .inr ⟨low, rfl⟩
  · exact .inl rfl
  · exact .inr ⟨low, rfl⟩
  · exact .inl rfl

/-- A subtraction that does not wrap. -/
theorem toNat_sub_two {x low : UInt8} (room : ¬ (x.toNat : Int) - 2 < low.toNat) :
    low.toNat ≤ (x - 2).toNat ∧ (x - 2).toNat + 2 = x.toNat := by
  have two : (2 : UInt8).toNat = 2 := rfl
  have bound := x.toNat_lt
  rw [UInt8.toNat_sub, two]
  omega

/-- What the check does to `ForbiddenIGI`. -/
theorem check_forbidden (s : DigInfo) (a : ArsInput) (digDynamicMin currentIGI : UInt8) :
    let forbidden := (odmForbiddenIGICheck s a digDynamicMin currentIGI).2.forbiddenIGI
    forbidden = s.forbiddenIGI ∨ s.forbiddenIGI < currentIGI ∧ forbidden = currentIGI ∨
      forbidden = digDynamicMin ∨
      digDynamicMin.toNat ≤ forbidden.toNat ∧ forbidden.toNat + 2 = s.forbiddenIGI.toNat := by
  have count := (countLargeFA_forbidden s currentIGI).imp_right fun raised =>
    (Or.inl raised : _ ∨ (countLargeFA s currentIGI).forbiddenIGI = digDynamicMin ∨
      digDynamicMin.toNat ≤ (countLargeFA s currentIGI).forbiddenIGI.toNat ∧
        (countLargeFA s currentIGI).forbiddenIGI.toNat + 2 = s.forbiddenIGI.toNat)
  unfold odmForbiddenIGICheck
  dsimp only
  split_ifs with large hits high recover few room
  · exact count
  · exact count
  · exact count
  · exact .inl rfl
  · exact .inr (.inr (.inl rfl))
  · exact .inr (.inr (.inr (toNat_sub_two room)))
  · exact .inl rfl

theorem low_countLargeFA (forbidden : dmDigMinNic ≤ s.forbiddenIGI) :
    dmDigMinNic ≤ (countLargeFA s currentIGI).forbiddenIGI := by
  rcases countLargeFA_forbidden s currentIGI with same | ⟨raised, same⟩
  · rwa [same]
  · rw [same]
    exact UInt8.le_trans forbidden (UInt8.le_of_lt raised)

/-- An addition that does not wrap. -/
theorem le_add_two {x top low : UInt8} (room : ¬ x.toNat + 2 > top.toNat) (le : low ≤ x) :
    low ≤ x + 2 := by
  have two : (2 : UInt8).toNat = 2 := rfl
  have bound := top.toNat_lt
  rw [UInt8.le_iff_toNat_le, UInt8.toNat_add, two]
  rw [UInt8.le_iff_toNat_le] at le
  omega

/-- The lower bound that the check gives. -/
theorem check_low (low : dmDigMinNic ≤ s.rxGainRangeMin) (high : dmDigMinNic ≤ s.rxGainRangeMax)
    (forbidden : dmDigMinNic ≤ s.forbiddenIGI) (dynamic : dmDigMinNic ≤ digDynamicMin) :
    dmDigMinNic ≤ (odmForbiddenIGICheck s a digDynamicMin currentIGI).1 := by
  unfold odmForbiddenIGICheck
  dsimp only
  split_ifs with large hits top recover few room
  · rwa [(sameGain_countLargeFA s currentIGI).max]
  · exact le_add_two top (low_countLargeFA forbidden)
  · unfold countLargeFA
    dsimp only
    split_ifs <;> exact low
  · exact low
  · exact dynamic
  · rwa [UInt8.sub_add_cancel]
  · exact low

/-- The ways of `ForbiddenIGI` in a run with this dynamic minimum. -/
def Moves (s : DigInfo) (digDynamicMin forbidden : UInt8) : Prop :=
  forbidden = s.forbiddenIGI ∨ s.forbiddenIGI < s.curIGValue ∧ forbidden = s.curIGValue ∨
    forbidden = digDynamicMin ∨
    digDynamicMin.toNat ≤ forbidden.toNat ∧ forbidden.toNat + 2 = s.forbiddenIGI.toNat

theorem Moves.low {forbidden : UInt8} (moves : Moves s digDynamicMin forbidden)
    (before : dmDigMinNic ≤ s.forbiddenIGI) (dynamic : dmDigMinNic ≤ digDynamicMin) :
    dmDigMinNic ≤ forbidden := by
  rcases moves with same | ⟨raised, same⟩ | same | ⟨least, -⟩
  · rwa [same]
  · rw [same]
    exact UInt8.le_trans before (UInt8.le_of_lt raised)
  · rwa [same]
  · exact UInt8.le_trans dynamic least

structure LinkBound (s : DigInfo) (digDynamicMin : UInt8) (s' : DigInfo) : Prop where
  low : dmDigMinNic ≤ s'.rxGainRangeMin
  same : SameGain s s'
  moves : Moves s digDynamicMin s'.forbiddenIGI

theorem linkBound_spec (low : dmDigMinNic ≤ s.rxGainRangeMin)
    (high : dmDigMinNic ≤ s.rxGainRangeMax) (forbidden : dmDigMinNic ≤ s.forbiddenIGI)
    (dynamic : dmDigMinNic ≤ digDynamicMin) :
    LinkBound s digDynamicMin (linkBound s a digDynamicMin) := by
  have check := sameGain_check s a digDynamicMin s.curIGValue
  unfold linkBound
  split_ifs with linked first
  · exact ⟨check_low low high forbidden dynamic, ⟨check.max, check.gain, check.stop,
      check.register⟩, check_forbidden s a digDynamicMin s.curIGValue⟩
  · exact ⟨dynamic, ⟨rfl, rfl, rfl, rfl⟩, .inr (.inr (.inl rfl))⟩
  · exact ⟨dynamic, ⟨rfl, rfl, rfl, rfl⟩, .inl rfl⟩

/-- The correction orders the bounds and touches nothing else. -/
theorem correctBound_spec (low : dmDigMinNic ≤ s.rxGainRangeMin)
    (high : dmDigMinNic ≤ s.rxGainRangeMax) :
    (dmDigMinNic ≤ (correctBound s a).rxGainRangeMin ∧
      (correctBound s a).rxGainRangeMin ≤ (correctBound s a).rxGainRangeMax) ∧
      SameGain s (correctBound s a) ∧ (correctBound s a).forbiddenIGI = s.forbiddenIGI := by
  unfold correctBound
  dsimp only
  split_ifs with few above above
  · exact ⟨⟨high, UInt8.le_refl _⟩, ⟨rfl, rfl, rfl, rfl⟩, rfl⟩
  · exact ⟨⟨UInt8.le_refl _, high⟩, ⟨rfl, rfl, rfl, rfl⟩, rfl⟩
  · exact ⟨⟨high, UInt8.le_refl _⟩, ⟨rfl, rfl, rfl, rfl⟩, rfl⟩
  · exact ⟨⟨low, UInt8.not_lt.mp above⟩, ⟨rfl, rfl, rfl, rfl⟩, rfl⟩

theorem boundIGI_range (order : s.rxGainRangeMin ≤ s.rxGainRangeMax) (currentIGI : UInt8) :
    s.rxGainRangeMin ≤ boundIGI s currentIGI ∧ boundIGI s currentIGI ≤ s.rxGainRangeMax := by
  unfold boundIGI
  dsimp only
  split_ifs with low high high
  · exact ⟨order, UInt8.le_refl _⟩
  · exact ⟨UInt8.le_refl _, UInt8.not_lt.mp high⟩
  · exact ⟨order, UInt8.le_refl _⟩
  · exact ⟨UInt8.not_lt.mp low, UInt8.not_lt.mp high⟩

/-- A gain within the upper bound is written as it is. -/
theorem odmWriteDIG_gain (plain : a.adaptivity = false) (writes : s.stopDIG = false)
    (register : s.igiReg = s.curIGValue) (below : currentIGI ≤ s.rxGainRangeMax) :
    odmWriteDIG s a currentIGI = { s with curIGValue := currentIGI, igiReg := currentIGI } := by
  have limit : limitIGI s a currentIGI = currentIGI := by
    unfold limitIGI
    simp [plain, UInt8.not_lt.mpr below]
  by_cases same : s.curIGValue = currentIGI
  · subst same
    cases s
    simp_all [odmWriteDIG]
  · simp [odmWriteDIG, limit, writes, same]

end Bounds

/-! ## Steps -/

section Steps

variable {s : DigInfo} {a : ArsInput} {funai : Bool}

theorem odmWriteDIG_ok (ok : DigOk s) (currentIGI : UInt8) :
    DigOk (odmWriteDIG s a currentIGI) ∧
      (odmWriteDIG s a currentIGI).forbiddenIGI = s.forbiddenIGI := by
  unfold odmWriteDIG
  split_ifs
  · exact ⟨ok, rfl⟩
  · exact ⟨⟨ok.forbidden, ok.low, ok.dynamic, ok.writes, rfl⟩, rfl⟩
  · exact ⟨ok, rfl⟩

theorem odmDigAbort_ok (ok : DigOk s) {aborted : DigInfo}
    (aborts : odmDigAbort funai s a = some aborted) :
    DigOk aborted ∧ aborted.forbiddenIGI = s.forbiddenIGI := by
  unfold odmDigAbort at aborts
  split_ifs at aborts
  · cases aborts
    exact ⟨ok, rfl⟩
  · cases aborts
    exact ⟨⟨ok.forbidden, ok.low, ok.dynamic, ok.writes, ok.register⟩, rfl⟩
  · cases aborts
    exact ⟨ok, rfl⟩
  · cases aborts
    exact odmWriteDIG_ok ok a.forceIgi

theorem Moves.move {s s' : DigInfo} {digDynamicMin forbidden : UInt8}
    (moves : Moves s digDynamicMin forbidden) (after : s'.forbiddenIGI = forbidden)
    (dynamic : s'.digDynamicMin0 = digDynamicMin) : ForbiddenMove s s' := by
  rcases moves with same | ⟨low, same⟩ | same | ⟨-, two⟩
  · exact .kept (after.trans same)
  · exact .raised low (after.trans same)
  · exact .least ((after.trans same).trans dynamic.symm)
  · exact .lowered (after ▸ two)

/-- The bounds and `ForbiddenIGI` before the gain is chosen. -/
structure Bounded (s : DigInfo) (a : ArsInput) (s' : DigInfo) : Prop where
  low : dmDigMinNic ≤ s'.rxGainRangeMin
  order : s'.rxGainRangeMin ≤ s'.rxGainRangeMax
  high : s'.rxGainRangeMax ≤ dmDigMax
  moves : Moves s (dynamicMin s a) s'.forbiddenIGI
  writes : s'.stopDIG = false
  register : s'.igiReg = s'.curIGValue

theorem boundGain_spec (ok : DigOk s) (antDiv : a.antDiv = false) :
    Bounded s a (boundGain s a) := by
  have dynamic := dynamicMin_low antDiv ok.dynamic
  have upper := upperBound_range a
  have link : LinkBound _ _ (linkBound { s with rxGainRangeMax := upperBound a } a _) :=
    linkBound_spec ok.low upper.left ok.forbidden dynamic
  have max : (linkBound { s with rxGainRangeMax := upperBound a } a
      (dynamicMin s a)).rxGainRangeMax = upperBound a := link.same.max
  have correct := correctBound_spec (a := a) link.low (max.symm ▸ upper.left)
  have gain := correct.right.left
  exact {
    low := correct.left.left
    order := correct.left.right
    high := by
      rw [boundGain, gain.max, max]
      exact upper.right
    moves := by
      rw [boundGain, correct.right.right]
      exact link.moves
    writes := by
      rw [boundGain, gain.stop, link.same.stop]
      exact ok.writes
    register := by
      rw [boundGain, gain.register, gain.gain, link.same.register, link.same.gain]
      exact ok.register }

/-- The gain is chosen between the bounds. -/
theorem Bounded.written {s' : DigInfo} (bounded : Bounded s a s') (ok : DigOk s)
    (antDiv : a.antDiv = false) (adaptivity : a.adaptivity = false) (currentIGI : UInt8) :
    let after := { odmWriteDIG s' a (boundIGI s' currentIGI) with
      mediaConnect0 := a.linked, digDynamicMin0 := dynamicMin s a }
    DigOk after ∧ DigInRange after ∧ ForbiddenMove s after := by
  have dynamic := dynamicMin_low antDiv ok.dynamic
  have range := boundIGI_range bounded.order currentIGI
  have low := bounded.moves.low ok.forbidden dynamic
  rw [odmWriteDIG_gain adaptivity bounded.writes bounded.register range.right]
  exact ⟨⟨low, bounded.low, dynamic, bounded.writes, rfl⟩,
    ⟨bounded.low, bounded.order, bounded.high, range.left, range.right, rfl⟩,
    bounded.moves.move rfl rfl⟩

/-- A run that is not aborted. -/
theorem adjustGain_kept (ok : DigOk s) (antDiv : a.antDiv = false)
    (adaptivity : a.adaptivity = false) : DigOk (adjustGain funai s a) ∧
      DigInRange (adjustGain funai s a) ∧ ForbiddenMove s (adjustGain funai s a) := by
  have bounded := boundGain_spec ok antDiv
  have reset : Bounded s a { boundGain s a with largeFAHit := 0 } :=
    ⟨bounded.low, bounded.order, bounded.high, bounded.moves, bounded.writes, bounded.register⟩
  unfold adjustGain
  dsimp only
  split_ifs with first
  · exact reset.written ok antDiv adaptivity _
  · exact bounded.written ok antDiv adaptivity _

theorem odmDIG_kept (ok : DigOk s) (antDiv : a.antDiv = false) (adaptivity : a.adaptivity = false) :
    DigOk (odmDIG funai s a) ∧ DigKept funai s (.run a) (odmDIG funai s a) := by
  have adjusted : DigOk (adjustGain funai s a) ∧ _ := adjustGain_kept ok antDiv adaptivity
  unfold odmDIG
  cases aborts : odmDigAbort funai s a with
  | some aborted =>
    have kept := odmDigAbort_ok ok aborts
    exact ⟨kept.left, kept.left.forbidden, .kept kept.right, by grind⟩
  | none =>
    exact ⟨adjusted.left, adjusted.left.forbidden, adjusted.right.right,
      fun _ _ _ => adjusted.right.left⟩

/-- No antenna diversity and no adaptivity in a run. -/
def DigEvent.Plain : DigEvent → Prop
  | .run a => a.antDiv = false ∧ a.adaptivity = false
  | _ => True

theorem digStep_kept {event : DigEvent} {after : DigInfo} (ok : DigOk s) (plain : event.Plain)
    (steps : digStep funai s event = some after) : DigOk after ∧ DigKept funai s event after := by
  cases event with
  | run a =>
    cases steps
    exact odmDIG_kept ok plain.left plain.right
  | _ =>
    -- the flags of others have no part in the invariant
    cases steps
    exact ⟨⟨ok.forbidden, ok.low, ok.dynamic, ok.writes, ok.register⟩, ok.forbidden, .kept rfl,
      fun _ never => nomatch never⟩

theorem arsDigInit_ok (register : UInt8) : DigOk (arsDigInit register) where
  forbidden := UInt8.le_refl dmDigMinNic
  low := UInt8.le_refl dmDigMinNic
  dynamic := UInt8.le_refl dmDigMinNic
  writes := rfl
  register := rfl

end Steps

/-! ## Runs -/

/-- The gain and its bounds stay in range from the start on, in each run that is not aborted, and
`ForbiddenIGI` does not wrap. -/
theorem gain_in_range (funai : Bool) (register : UInt8) (events : List DigEvent)
    (plain : ∀ event ∈ events, event.Plain) :
    EachStep (digStep funai)
      (fun s event => ∀ after, digStep funai s event = some after → DigKept funai s event after)
      (arsDigInit register) events := by
  have allowed : EachStep (digStep funai) (fun _ event => event.Plain) (arsDigInit register)
      events := eachStep_of_mem fun event member _ => plain event member
  refine EachStep.imp DigOk ?kept ?gives (arsDigInit_ok register) allowed
  case kept =>
    intro s event after ok plain steps
    exact (digStep_kept ok plain steps).left
  case gives =>
    intro s event ok plain after steps
    exact (digStep_kept ok plain steps).right

/-- A weak signal with many false alarms, just linked. -/
def weakLink : ArsInput where
  faCnt := true
  dig := true
  antDiv := false
  adaptivity := false
  adaptivityFlag := false
  adaptivityIgiUpper := 0
  antDivRssiMax := 0
  scanInProcess := false
  linked := true
  oneEntryOnly := true
  staState := true
  rssiMin := 5
  cntAll := 20000
  numQryBeaconPkt := 10
  forceIgi := 0

theorem weakLink_in_range :
    EachStep (digStep false)
      (fun s event => ∀ after, digStep false s event = some after → DigKept false s event after)
      (arsDigInit 0xff) [.run weakLink, .psdInProgress true, .run weakLink] :=
  gain_in_range false 0xff [.run weakLink, .psdInProgress true, .run weakLink]
    (by simp [DigEvent.Plain, weakLink])

/-- The gain of the register comes down to the upper bound. -/
example : (run (digStep false) (arsDigInit 0xff) [.run weakLink]).map
    (fun s => (s.curIGValue, s.rxGainRangeMin, s.rxGainRangeMax)) = some (0x1c, 0x1c, 0x1c) := by
  decide +kernel

end Smartchip.Ars
