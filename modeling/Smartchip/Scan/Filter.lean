import Smartchip.Frame.Elements
import Smartchip.Frame.Header

/-!
# The filter of received frames

`wf_scan_filter` of `nic/scan.c` decides while a scan is going on which probe response
the MLME goes on with.  The frame lies at `pmgmt` in memory, with whatever follows it.
-/

namespace Smartchip.Scan

open Smartchip.Foundation Smartchip.Frame

inductive ScanType where
  | active
  | passive
  deriving DecidableEq

inductive MlmeState where
  | connScan
  | ibssConnScan
  | other
  deriving DecidableEq

/-- `data` is the memory from the array on: a comparison can be longer than the array. -/
structure WlanSsid where
  length : UInt32
  data : Mem

/-- The first `ssid_num` SSIDs and the first `ch_num` channels. -/
structure ScanReq where
  type : ScanType
  bssid : MacAddr
  ssids : List WlanSsid
  chMap : List UInt8

structure ScanInfo where
  cannotRun : Bool
  brun : Bool
  reqLock : Nat
  preq : ScanReq
  localAddr : MacAddr
  mlmeState : MlmeState

/-! ## The frame -/

def isMcastAddr (addr : List UInt8) : Bool :=
  addr.getD 0 0 != 0xFF && addr.getD 0 0 &&& 0x01 != 0

def isZeroAddr (addr : List UInt8) : Bool :=
  addr.getD 0 0 ||| addr.getD 1 0 ||| addr.getD 2 0 ||| addr.getD 3 0 |||
    addr.getD 4 0 ||| addr.getD 5 0 == 0x00

def isValidBssid (bssid : List UInt8) : Bool :=
  !isBcastAddr bssid && !isZeroAddr bssid && !isMcastAddr bssid

def getFrameType (mem : Mem) (pmgmt : Nat) : UInt16 := mem.readLe16 pmgmt &&& 0x00FC

def probeRespFrame : UInt16 := 0x0050

/-- `WF_OFFSETOF(wf_80211_mgmt_t, probe_resp.variable)`. -/
def variableOffset : Nat := 36

/-- `WF_OFFSETOF(struct beacon_ie, variable)`. -/
def beaconIeOffset : UInt16 := 12

def eidSsid : UInt8 := 0

def eidDsParams : UInt8 := 3

/-! ## The checks -/

def checkBssid (req : ScanReq) (mem : Mem) (pmgmt : Nat) : Int :=
  if isValidBssid req.bssid.toList then
    if req.bssid.toList ≠ getAddr3 mem pmgmt then 1 else 0
  else 0

/-- Whether the loop of `check_ssid` breaks at this SSID. -/
def ssidAlike (mem : Mem) (pie : Nat) (ssid : WlanSsid) : Bool :=
  let len := (mem (pie + 1)).toNat
  ssid.length == (mem (pie + 1)).toUInt32 ||
    ssid.data.read 0 len == mem.read (pie + 2) len

def checkSsid (fuel : Nat) (req : ScanReq) (mem : Mem) (pies : Nat) (iesLen : UInt16) :
    Option Int :=
  if req.ssids.isEmpty then some 0
  else
    match wf80211MgmtIesSearch mem pies iesLen eidSsid fuel 0 with
    | none => none
    | some none => some (-1)
    | some (some pie) => if req.ssids.any (ssidAlike mem pie) then some 0 else some 1

def checkChannel (fuel : Nat) (req : ScanReq) (mem : Mem) (pies : Nat) (iesLen : UInt16) :
    Option Int :=
  match wf80211MgmtIesSearch mem pies iesLen eidDsParams fuel 0 with
  | none => none
  | some none => some (-1)
  | some (some pie) => if mem (pie + 2) ∈ req.chMap then some 0 else some 1

/-- The last test: whether the frame is one to notify the MLME of. -/
def isAwaited (info : ScanInfo) (mem : Mem) (pmgmt : Nat) : Bool :=
  decide (info.preq.type = .active) && getFrameType mem pmgmt == probeRespFrame &&
    getAddr1 mem pmgmt == info.localAddr.toList &&
    (decide (info.mlmeState = .connScan) || decide (info.mlmeState = .ibssConnScan))

/-- A frame that does not match is no error. -/
def filterCode (rst error : Int) : Int := if rst < 0 then error else 0

/-- The returned code, and whether `wf_mlme_conn_scan_rsp` was called. -/
def wfScanFilter (fuel : Nat) (info : ScanInfo) (mem : Mem) (pmgmt : Nat)
    (mgmtLen : UInt16) : Option (Int × Bool) :=
  if mgmtLen = 0 then some (-1, false)
  else if info.cannotRun then some (-2, false)
  else if !info.brun then some (0, false)
  else if info.reqLock = 0 then some (0, false)
  else
    let pies := pmgmt + variableOffset
    let iesLen := mgmtLen - beaconIeOffset
    let rst := checkBssid info.preq mem pmgmt
    if rst ≠ 0 then some (filterCode rst (-3), false)
    else do
      let rst ← checkSsid fuel info.preq mem pies iesLen
      if rst ≠ 0 then some (filterCode rst (-4), false)
      else
        let rst ← checkChannel fuel info.preq mem pies iesLen
        if rst ≠ 0 then some (filterCode rst (-5), false)
        else some (rst, isAwaited info mem pmgmt)

/-! ## Sound notifications -/

section Sound

variable (info : ScanInfo) (mem : Mem) (pmgmt : Nat) (mgmtLen : UInt16)

def Notifies : Prop := ∃ fuel rst, wfScanFilter fuel info mem pmgmt mgmtLen = some (rst, true)

/-- The bytes of the frame that hold its elements. -/
def elementBytes : List UInt8 :=
  mem.read (pmgmt + variableOffset) (mgmtLen.toNat - variableOffset)

def Agrees (ssid : WlanSsid) (data : List UInt8) : Prop :=
  ssid.length.toNat = data.length ∧ ssid.data.read 0 data.length = data

/-- What the frame of a notification should be. -/
structure Requested : Prop where
  probeResp : getFrameType mem pmgmt = probeRespFrame
  toUs : getAddr1 mem pmgmt = info.localAddr.toList
  bssid : isValidBssid info.preq.bssid.toList = true →
    getAddr3 mem pmgmt = info.preq.bssid.toList
  ssid : info.preq.ssids ≠ [] → ∃ data,
    findElement eidSsid (elementBytes mem pmgmt mgmtLen) = some data ∧
      ∃ ssid ∈ info.preq.ssids, Agrees ssid data
  channel : ∃ ch rest,
    findElement eidDsParams (elementBytes mem pmgmt mgmtLen) = some (ch :: rest) ∧
      ch ∈ info.preq.chMap

/-- The tests of the filter outside the elements. -/
structure PassesHeader : Prop where
  nonempty : mgmtLen ≠ 0
  running : info.cannotRun = false
  scanning : info.brun = true
  lock : info.reqLock ≠ 0
  bssid : checkBssid info.preq mem pmgmt = 0
  awaited : isAwaited info mem pmgmt = true

def Finds (id : UInt8) (pie : Nat) : Prop :=
  ∃ fuel, wf80211MgmtIesSearch mem (pmgmt + variableOffset) (mgmtLen - beaconIeOffset) id
    fuel 0 = some (some pie)

def PassesSsid : Prop :=
  info.preq.ssids = [] ∨ ∃ pie, Finds mem pmgmt mgmtLen eidSsid pie ∧
    ∃ ssid ∈ info.preq.ssids, ssidAlike mem pie ssid = true

def PassesChannel : Prop :=
  ∃ pie, Finds mem pmgmt mgmtLen eidDsParams pie ∧ mem (pie + 2) ∈ info.preq.chMap

/-- The SSID of the frame has the length or the bytes of a requested one, but none has
both. -/
def LooseSsid : Prop :=
  info.preq.ssids ≠ [] ∧ PassesChannel info mem pmgmt mgmtLen ∧ ∃ data,
    findElement eidSsid (elementBytes mem pmgmt mgmtLen) = some data ∧
    (∃ ssid ∈ info.preq.ssids, ssid.length.toNat = data.length ∨
      ssid.data.read 0 data.length = data) ∧
    ∀ ssid ∈ info.preq.ssids, ¬ Agrees ssid data

/-- An element is missing in the frame, and what lies behind it passes instead. -/
def Overrun : Prop :=
  PassesSsid info mem pmgmt mgmtLen ∧ PassesChannel info mem pmgmt mgmtLen ∧
    (info.preq.ssids ≠ [] ∧ findElement eidSsid (elementBytes mem pmgmt mgmtLen) = none ∨
      findElement eidDsParams (elementBytes mem pmgmt mgmtLen) = none ∨
      findElement eidDsParams (elementBytes mem pmgmt mgmtLen) = some [])

end Sound

section Proof

variable {info : ScanInfo} {mem : Mem} {pmgmt : Nat} {mgmtLen : UInt16}

theorem checkSsid_zero {fuel pies : Nat} {req : ScanReq} {iesLen : UInt16} :
    checkSsid fuel req mem pies iesLen = some 0 ↔ req.ssids = [] ∨ ∃ pie,
      wf80211MgmtIesSearch mem pies iesLen eidSsid fuel 0 = some (some pie) ∧
        ∃ ssid ∈ req.ssids, ssidAlike mem pie ssid = true := by
  unfold checkSsid
  by_cases empty : req.ssids = []
  · simp [empty]
  · rw [if_neg (by simpa using empty)]
    cases wf80211MgmtIesSearch mem pies iesLen eidSsid fuel 0 with
    | none => simp [empty]
    | some found =>
        cases found with
        | none => simp [empty]
        | some pie => simp [empty]

theorem checkChannel_zero {fuel pies : Nat} {req : ScanReq} {iesLen : UInt16} :
    checkChannel fuel req mem pies iesLen = some 0 ↔ ∃ pie,
      wf80211MgmtIesSearch mem pies iesLen eidDsParams fuel 0 = some (some pie) ∧
        mem (pie + 2) ∈ req.chMap := by
  unfold checkChannel
  cases wf80211MgmtIesSearch mem pies iesLen eidDsParams fuel 0 with
  | none => simp
  | some found =>
      cases found with
      | none => simp
      | some pie => simp

theorem wfScanFilter_notifies {fuel : Nat} {rst : Int} :
    wfScanFilter fuel info mem pmgmt mgmtLen = some (rst, true) ↔
      PassesHeader info mem pmgmt mgmtLen ∧
        checkSsid fuel info.preq mem (pmgmt + variableOffset)
          (mgmtLen - beaconIeOffset) = some 0 ∧
        checkChannel fuel info.preq mem (pmgmt + variableOffset)
          (mgmtLen - beaconIeOffset) = some 0 ∧ rst = 0 := by
  unfold wfScanFilter
  constructor
  · intro notified
    dsimp only at notified
    split_ifs at notified with empty stopped idle busy other
    · simp at notified
    · simp at notified
    · simp at notified
    · simp at notified
    · simp at notified
    · rw [Option.bind_eq_bind, Option.bind_eq_some_iff] at notified
      obtain ⟨ssid, hssid, notified⟩ := notified
      split_ifs at notified with wrongSsid
      · simp at notified
      · rw [Option.bind_eq_some_iff] at notified
        obtain ⟨channel, hchannel, notified⟩ := notified
        split_ifs at notified with wrongChannel
        · simp at notified
        · rw [not_not] at other wrongSsid wrongChannel
          subst wrongSsid wrongChannel
          simp only [Option.some.injEq, Prod.mk.injEq] at notified
          refine ⟨⟨empty, by simpa using stopped, by simpa using idle, busy, other,
            notified.2⟩, hssid, hchannel, notified.1.symm⟩
  · rintro ⟨header, ssid, channel, rfl⟩
    rw [if_neg header.nonempty, header.running, header.scanning, if_neg header.lock]
    simp [header.bssid, ssid, channel, header.awaited]

/-- The filter notifies when all its tests pass. -/
theorem notifies_iff :
    Notifies info mem pmgmt mgmtLen ↔ PassesHeader info mem pmgmt mgmtLen ∧
      PassesSsid info mem pmgmt mgmtLen ∧ PassesChannel info mem pmgmt mgmtLen := by
  unfold Notifies
  simp only [wfScanFilter_notifies]
  constructor
  · rintro ⟨fuel, rst, header, ssid, channel, -⟩
    refine ⟨header, ?_, ?_⟩
    · rcases checkSsid_zero.mp ssid with empty | ⟨pie, found, alike⟩
      · exact .inl empty
      · exact .inr ⟨pie, ⟨fuel, found⟩, alike⟩
    · obtain ⟨pie, found, listed⟩ := checkChannel_zero.mp channel
      exact ⟨pie, ⟨fuel, found⟩, listed⟩
  · rintro ⟨header, ssid, ds, ⟨more, foundDs⟩, listed⟩
    rcases ssid with empty | ⟨pie, ⟨fuel, found⟩, alike⟩
    · exact ⟨more, 0, header, checkSsid_zero.mpr (.inl empty),
        checkChannel_zero.mpr ⟨ds, foundDs, listed⟩, rfl⟩
    · have enough := search_mono (le_max_left fuel more) found
      have also := search_mono (le_max_right fuel more) foundDs
      exact ⟨_, 0, header, checkSsid_zero.mpr (.inr ⟨pie, enough, alike⟩),
        checkChannel_zero.mpr ⟨ds, also, listed⟩, rfl⟩

/-- An element of the frame is the one that the filter looks at. -/
theorem finds_complete {id : UInt8} {data : List UInt8}
    (found : findElement id (elementBytes mem pmgmt mgmtLen) = some data) :
    ∃ pie, Finds mem pmgmt mgmtLen id pie ∧ (mem (pie + 1)).toNat = data.length ∧
      mem.read (pie + 2) data.length = data := by
  have long : variableOffset < mgmtLen.toNat := by
    by_contra short
    unfold elementBytes at found
    rw [Nat.sub_eq_zero_of_le (Nat.not_lt.mp short), Mem.read_zero, findElement] at found
    · cases found
    · intro e len rest same
      cases same
  have room : (0 : UInt16).toNat + (mgmtLen.toNat - variableOffset) ≤
      (mgmtLen - beaconIeOffset).toNat := by
    have bound : beaconIeOffset ≤ mgmtLen := by
      rw [UInt16.le_iff_toNat_le]
      exact le_trans (by decide) long.le
    have twelve : beaconIeOffset.toNat = 12 := rfl
    rw [UInt16.toNat_sub_of_le _ _ bound, twelve, UInt16.toNat_zero]
    unfold variableOffset
    omega
  obtain ⟨fuel, pie, result, length, read⟩ := search_of_findElement room found
  exact ⟨pie, ⟨fuel, result⟩, length, read⟩

theorem Finds.complete {id : UInt8} {pie : Nat} {data : List UInt8}
    (finds : Finds mem pmgmt mgmtLen id pie)
    (found : findElement id (elementBytes mem pmgmt mgmtLen) = some data) :
    (mem (pie + 1)).toNat = data.length ∧ mem.read (pie + 2) data.length = data := by
  obtain ⟨other, ⟨more, result⟩, length, read⟩ := finds_complete found
  obtain ⟨fuel, ended⟩ := finds
  cases search_unique ended result
  exact ⟨length, read⟩

theorem ssidAlike_iff {pie : Nat} {data : List UInt8} {ssid : WlanSsid}
    (length : (mem (pie + 1)).toNat = data.length)
    (read : mem.read (pie + 2) data.length = data) :
    ssidAlike mem pie ssid = true ↔
      ssid.length.toNat = data.length ∨ ssid.data.read 0 data.length = data := by
  unfold ssidAlike
  rw [Bool.or_eq_true, beq_iff_eq, beq_iff_eq, length, read, ← UInt32.toNat_inj,
    UInt8.toNat_toUInt32, length]

end Proof

/-- The filter notifies of requested frames only, unless it takes a frame for the SSID
alone or for what lies behind it. -/
theorem scan_filter_sound_iff (info : ScanInfo) (mem : Mem) (pmgmt : Nat)
    (mgmtLen : UInt16) :
    (Notifies info mem pmgmt mgmtLen → Requested info mem pmgmt mgmtLen) ↔
      (PassesHeader info mem pmgmt mgmtLen →
        ¬ LooseSsid info mem pmgmt mgmtLen ∧ ¬ Overrun info mem pmgmt mgmtLen) := by
  rw [notifies_iff]
  constructor
  · intro sound header
    constructor
    · rintro ⟨some, channel, data, found, ⟨ssid, member, alike⟩, none⟩
      obtain ⟨pie, finds, length, read⟩ := finds_complete found
      have passes : PassesSsid info mem pmgmt mgmtLen :=
        .inr ⟨pie, finds, ssid, member, (ssidAlike_iff length read).mpr alike⟩
      obtain ⟨other, found', exact, member', agrees⟩ :=
        (sound ⟨header, passes, channel⟩).ssid some
      cases found.symm.trans found'
      exact none exact member' agrees
    · rintro ⟨ssid, channel, missing⟩
      have requested := sound ⟨header, ssid, channel⟩
      obtain ⟨ch, rest, found, -⟩ := requested.channel
      rcases missing with ⟨some, missing⟩ | missing | missing
      · obtain ⟨data, found', -⟩ := requested.ssid some
        cases missing.symm.trans found'
      · cases missing.symm.trans found
      · cases missing.symm.trans found
  · rintro spared ⟨header, ssid, channel⟩
    obtain ⟨notLoose, notOver⟩ := spared header
    have awaited := header.awaited
    simp only [isAwaited, Bool.and_eq_true, beq_iff_eq] at awaited
    refine ⟨awaited.1.1.2, awaited.1.2, ?_, ?_, ?_⟩
    · intro valid
      have same := header.bssid
      unfold checkBssid at same
      rw [if_pos valid] at same
      by_contra differ
      rw [if_pos (Ne.symm differ)] at same
      cases same
    · intro some
      cases found : findElement eidSsid (elementBytes mem pmgmt mgmtLen) with
      | none => exact absurd ⟨ssid, channel, .inl ⟨some, found⟩⟩ notOver
      | some data =>
          refine ⟨data, rfl, ?_⟩
          by_contra none
          push Not at none
          obtain ⟨pie, finds, alike⟩ := ssid.resolve_left some
          obtain ⟨length, read⟩ := finds.complete found
          simp only [ssidAlike_iff length read] at alike
          exact notLoose ⟨some, channel, data, found, alike, none⟩
    · cases found : findElement eidDsParams (elementBytes mem pmgmt mgmtLen) with
      | none => exact absurd ⟨ssid, channel, .inr (.inl found)⟩ notOver
      | some data =>
          cases data with
          | nil => exact absurd ⟨ssid, channel, .inr (.inr found)⟩ notOver
          | cons ch rest =>
              obtain ⟨pie, finds, listed⟩ := channel
              obtain ⟨-, read⟩ := finds.complete found
              have first := Mem.getElem?_read mem (pie + 2)
                (show 0 < (ch :: rest).length from Nat.succ_pos _)
              rw [read] at first
              cases first
              exact ⟨_, rest, rfl, listed⟩

/-- A probe response with the SSID "XY" on channel 6. -/
def looseFrame : List UInt8 :=
  [0x50, 0, 0, 0] ++ List.replicate 6 2 ++ List.replicate 12 4 ++ List.replicate 14 0 ++
    [0, 2, 88, 89, 3, 1, 6]

/-- A scan for the SSID "AB" on channel 6. -/
def looseScan : ScanInfo where
  cannotRun := false
  brun := true
  reqLock := 1
  preq := ⟨.active, Vector.replicate 6 0, [⟨2, fun i => [65, 66].getD i 0⟩], [6]⟩
  localAddr := Vector.replicate 6 2
  mlmeState := .connScan

theorem scan_filter_takes_other_ssid :
    ¬ (Notifies looseScan (fun i => looseFrame.getD i 0) 0 43 →
      Requested looseScan (fun i => looseFrame.getD i 0) 0 43) := by
  intro sound
  have notified : Notifies looseScan (fun i => looseFrame.getD i 0) 0 43 :=
    ⟨2, 0, by decide +kernel⟩
  obtain ⟨data, found, ssid, member, agrees⟩ := (sound notified).ssid nofun
  have bytes : elementBytes (fun i => looseFrame.getD i 0) 0 43 = [0, 2, 88, 89, 3, 1, 6] :=
    by decide +kernel
  rw [bytes, findElement, if_neg (by decide), if_pos (by decide)] at found
  cases found
  cases List.mem_singleton.mp member
  exact absurd agrees.2 (by decide)

end Smartchip.Scan
