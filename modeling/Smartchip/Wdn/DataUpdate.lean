import Smartchip.Foundation.Checked
import Smartchip.Frame.Search

/-!
# Elements of the joined network

`wf_wdn_data_update` of `nic/wdn.c` with the functions of `nic/ie.c` that it calls.  They copy
as many bytes as an element has, to arrays of the station record and to two structures on the
stack.  An access outside of an element or of its destination leaves the functions without a
value; a copy of a structure of constant size is left as an assignment.
-/

namespace Smartchip.Wdn

open Smartchip.Foundation Smartchip.Frame

namespace DataUpdate

def eidSsid : UInt8 := 0

def eidSuppRates : UInt8 := 1

def eidErpInfo : UInt8 := 42

def eidHtCapability : UInt8 := 45

def eidRsn : UInt8 := 48

def eidExtSuppRates : UInt8 := 50

def eidHtOperation : UInt8 := 61

def eidVendorSpecific : UInt8 := 221

def wmmOui : Vector UInt8 4 := ⟨#[0x00, 0x50, 0xf2, 2], rfl⟩

def wpaOui : Vector UInt8 4 := ⟨#[0x00, 0x50, 0xf2, 1], rfl⟩

def wfReturnOk : Int := 0

def wfReturnFail : Int := -1

inductive ChannelWidth where
  | width20
  | width40
  deriving DecidableEq

inductive PrimeChnlOffset where
  | dontCare
  | lower
  | upper

inductive AuthAlgo where
  | openSystem
  | sharedKey

/-- The fields of `hw_info_st` that are read here. -/
structure HwInfo where
  datarate : Vector UInt8 13
  dot80211nSupport : Bool
  cbw40Support : Bool
  smPsSupport : UInt8
  ldpcSupport : Bool
  txStbcSupport : Bool
  rxStbcSupport : Bool
  rxStbcNum : UInt8
  rxPacketOffset : UInt32
  maxRecvbufSz : UInt32
  maxRxAmpduFactor : UInt8
  bestAmpduDensity : UInt8
  defaultSupportedMcsSet : Vector UInt8 16

structure HtCap where
  capInfo : UInt16
  ampduParamsInfo : UInt8
  suppMcsSet : Vector UInt8 16

/-- `struct wf_ht_priv`. -/
structure HtPriv where
  htOption : Bool
  ampduEnable : Bool
  rxAmpduMaxlen : UInt32
  rxAmpduMinSpacing : UInt8
  ldpc : Bool
  both20m40m : Bool
  sgi20m : Bool
  sgi40m : Bool
  dssck40m : Bool
  smps : Bool
  smPsMode : UInt8
  rxStbc : Bool
  txStbc : Bool

/-- The fields of `wdn_net_info_st` that an update sets. -/
structure WdnNetInfo where
  ssid : Vector UInt8 32
  ssidLen : UInt8
  capInfo : UInt16
  essNet : Bool
  ibssNet : Bool
  privacy : Bool
  shortPreamble : Bool
  shortSlot : Bool
  radioMeasure : Bool
  datarate : Counted UInt8 8
  extDatarate : Counted UInt8 4
  htEnable : Bool
  htCap : HtCap
  htpriv : HtPriv
  htProtection : UInt8
  bwMode : ChannelWidth
  channleOffset : PrimeChnlOffset
  wmmEnable : Bool
  wmmInfo : Vector UInt8 24
  wpaEnable : Bool
  rsnEnable : Bool
  erpEnable : Bool
  erpFlag : UInt8
  authAlgo : AuthAlgo
  qosOption : Bool
  networkType : UInt32
  raid : UInt8
  txRate : UInt8
  cts2self : UInt8
  rtsen : UInt8
  ldpc : UInt8
  stbc : UInt8
  ieee8021xBlocked : Bool

/-! ## Capabilities -/

def bit16 (word mask : UInt16) : Bool := word &&& mask != 0

def wfIeCapInfoUpdate (info : WdnNetInfo) (capInfo : UInt16) : WdnNetInfo :=
  let essNet := bit16 capInfo 0x0001
  let ibssNet := bit16 capInfo 0x0002
  let privacy := bit16 capInfo 0x0010
  let shortPreamble := bit16 capInfo 0x0020
  let shortSlot := bit16 capInfo 0x0400
  { info with
    essNet := essNet
    ibssNet := ibssNet
    privacy := privacy
    shortPreamble := shortPreamble
    shortSlot := shortSlot
    radioMeasure := bit16 capInfo 0x1000
    capInfo :=
      (if essNet then 0x0001 else 0) ||| (if ibssNet then 0x0002 else 0) |||
      (if privacy then 0x0010 else 0) ||| (if shortPreamble then 0x0020 else 0) |||
      (if shortSlot then 0x0400 else 0)
    authAlgo := if privacy then .sharedKey else .openSystem }

/-! ## SSID and rates -/

def wfIeSsidUpdate (info : WdnNetInfo) (data : List UInt8) : Option (Int × WdnNetInfo) :=
  if 32 ≤ data.length ∨ data.length = 0 then some (wfReturnFail, info)
  else do
    let cleared ← store info.ssid 0 (List.replicate (data.length + 1) 0)
    let ssid ← store cleared 0 data
    some (wfReturnOk, { info with ssid := ssid, ssidLen := UInt8.ofNat data.length })

/-- One of the rates of 802.11b. -/
def cckRate (rate : UInt8) : Bool :=
  rate &&& 0x7f == 2 || rate &&& 0x7f == 4 || rate &&& 0x7f == 11 || rate &&& 0x7f == 22

def onlyCckrates (rates : List UInt8) : Bool := rates.all cckRate

def haveCckrates (rates : List UInt8) : Bool := rates.any cckRate

def wireless11b : UInt32 := 0x1

def wireless11g : UInt32 := 0x2

def wireless24n : UInt32 := 0x8

def setNetworkType (info : WdnNetInfo) : WdnNetInfo :=
  let rates := info.datarate.held
  let type :=
    if onlyCckrates rates then wireless11b
    else if haveCckrates rates then wireless11b ||| wireless11g
    else wireless11g
  { info with networkType := info.networkType ||| type }

/-- The rate of the chip that a byte of an element stands for. -/
def hwRate (hw : HwInfo) (rate : UInt8) : Option UInt8 :=
  if rate = 0 then none
  else hw.datarate.toList.find? fun known => rate &&& 0x7f == known &&& 0x7f

/-- The loop of the two functions for rates. -/
def setRates {size : Nat} (pick : UInt8 → Option UInt8) (data : List UInt8)
    (rates : Counted UInt8 size) : Option (Counted UInt8 size) :=
  data.foldlM
    (fun rates rate =>
      match pick rate with
      | some stored => rates.push stored
      | none => pure rates)
    rates.clear

/-- The byte itself is stored. -/
def suppRate (hw : HwInfo) (rate : UInt8) : Option UInt8 := (hwRate hw rate).map fun _ => rate

def wfIeSupportedRatesUpdate (hw : HwInfo) (info : WdnNetInfo) (data : List UInt8) :
    Option (Int × WdnNetInfo) :=
  if data.length = 0 ∨ 8 < data.length then some (wfReturnFail, info)
  else do
    let rates ← setRates (suppRate hw) data info.datarate
    some (wfReturnOk, setNetworkType { info with datarate := rates })

/-- The rate of the chip is stored. -/
def wfIeExtendSupportedRatesUpdate (hw : HwInfo) (info : WdnNetInfo) (data : List UInt8) :
    Option (Int × WdnNetInfo) :=
  if data.length = 0 then some (wfReturnFail, info)
  else do
    let rates ← setRates (hwRate hw) data info.extDatarate
    some (wfReturnOk, setNetworkType { info with extDatarate := rates })

/-! ## WMM, WPA, RSN and ERP -/

def wfIeWmmUpdate (info : WdnNetInfo) (data : List UInt8) : Option (Int × WdnNetInfo) :=
  if data.length = 0 then some (wfReturnFail, info)
  else do
    let wmmInfo ← store info.wmmInfo 0 data
    some (wfReturnOk, { info with wmmEnable := true, wmmInfo := wmmInfo })

def wfIeWpaUpdate (info : WdnNetInfo) (data : List UInt8) : Option (Int × WdnNetInfo) :=
  if data.length = 0 then some (wfReturnFail, info)
  else some (wfReturnOk, { info with wpaEnable := true, authAlgo := .openSystem })

def wfIeRsnUpdate (info : WdnNetInfo) (data : List UInt8) : Option (Int × WdnNetInfo) :=
  if data.length = 0 then some (wfReturnFail, info)
  else some (wfReturnOk, { info with rsnEnable := true, authAlgo := .openSystem })

def wfIeErpUpdate (info : WdnNetInfo) (data : List UInt8) : Option (Int × WdnNetInfo) :=
  if data.length = 0 then some (wfReturnFail, info)
  else do
    let first ← fetch data 0 1
    let flag := first.headD 0
    some (wfReturnOk, {
      info with
      erpEnable := true
      erpFlag := flag
      cts2self := 0
      rtsen := if flag &&& 0x02 ≠ 0 then 1 else 0 })

/-! ## HT -/

/-- `struct wl_ieee80211_ht_oper_info` and `wf_80211_mgmt_ht_cap_t` on the stack, with what lies
there before. -/
structure Stack where
  htOperTemp : Vector UInt8 22
  htCapTemp : Vector UInt8 26

def wfIeHtOperationInfoUpdate (hw : HwInfo) (stack : Stack) (info : WdnNetInfo)
    (data : List UInt8) : Option (Int × WdnNetInfo) :=
  if data.length = 0 then some (wfReturnFail, info)
  else do
    let temp ← store stack.htOperTemp 0 data
    let htParam := temp[1]
    let wide := hw.cbw40Support && htParam &&& 0x04 != 0
    some (wfReturnOk, {
      info with
      htpriv := { info.htpriv with htOption := true }
      bwMode := if wide then .width40 else .width20
      channleOffset :=
        if wide && htParam &&& 0x03 == 3 then .upper
        else if wide && htParam &&& 0x03 == 1 then .lower
        else .dontCare
      -- the two low bits of `operation_mode`
      htProtection := temp[2] &&& 0x03 })

def capLdpcCoding : UInt16 := 0x0001

def capSupWidth2040 : UInt16 := 0x0002

def capSmPs : UInt16 := 0x000c

def capSgi20 : UInt16 := 0x0020

def capSgi40 : UInt16 := 0x0040

def capTxStbc : UInt16 := 0x0080

def capRxStbc : UInt16 := 0x0300

def capMaxAmsdu : UInt16 := 0x0800

def capDssscck40 : UInt16 := 0x1000

/-- What `htpriv` is told by the capabilities of the peer. -/
def parseHtCap (priv : HtPriv) (capInfo : UInt16) (ampdu : UInt8) : HtPriv :=
  let mode := ((capInfo &&& capSmPs) >>> 2).toUInt8
  { priv with
    ldpc := bit16 capInfo capLdpcCoding
    both20m40m := bit16 capInfo capSupWidth2040
    smPsMode := mode
    smps := mode != 3
    sgi20m := bit16 capInfo capSgi20
    sgi40m := bit16 capInfo capSgi40
    dssck40m := bit16 capInfo capDssscck40
    rxStbc := bit16 capInfo capRxStbc
    txStbc := bit16 capInfo capTxStbc
    ampduEnable := true
    rxAmpduMaxlen := 1 <<< ((ampdu &&& 0x03).toUInt32 + 3)
    rxAmpduMinSpacing := (ampdu &&& 0x1c) >>> 2 }

/-- `cap_info` of the record, from 0 on. -/
def htCapInfo (hw : HwInfo) (priv : HtPriv) (bwMode : ChannelWidth) : UInt16 :=
  (if priv.sgi20m then capSgi20 else 0) |||
  (if priv.sgi40m then capSgi40 else 0) |||
  (if priv.dssck40m then capDssscck40 else 0) |||
  (if priv.ampduEnable then capMaxAmsdu else 0) |||
  (if priv.ldpc && hw.ldpcSupport then capLdpcCoding else 0) |||
  (if hw.txStbcSupport then capTxStbc else 0) |||
  (if hw.rxStbcSupport && hw.rxStbcNum == 1 then capRxStbc &&& 0x100 else 0) |||
  (if 8191 - 256 ≤ hw.maxRecvbufSz - hw.rxPacketOffset then capMaxAmsdu else 0) |||
  (if priv.smps then
    if hw.smPsSupport = 1 then priv.smPsMode.toUInt16 <<< 2 else capSmPs
   else capSmPs) |||
  (if priv.both20m40m && (hw.cbw40Support && bwMode == .width40) then capSupWidth2040 else 0)

def doSetMcsByFlag (mcsSet : Vector UInt8 16) (mask : UInt32) : Vector UInt8 16 :=
  (((mcsSet.set 0 (mcsSet[0] &&& mask.toUInt8)).set 1 (mcsSet[1] &&& (mask >>> 8).toUInt8)).set
    2 (mcsSet[2] &&& (mask >>> 16).toUInt8)).set 3 (mcsSet[3] &&& (mask >>> 24).toUInt8)

def mcsRate1r : UInt32 := 0xff

def wfIeHtCapabilityUpdate (hw : HwInfo) (stack : Stack) (info : WdnNetInfo)
    (data : List UInt8) : Option (Int × WdnNetInfo) :=
  if data.length = 0 then some (wfReturnFail, info)
  else do
    let temp ← store stack.htCapTemp 0 data
    let density : UInt8 := hw.bestAmpduDensity <<< 2
    let priv := parseHtCap info.htpriv (temp[0].toUInt16 ||| temp[1].toUInt16 <<< 8) temp[2]
    some (wfReturnOk, {
      info with
      htEnable := true
      networkType := info.networkType ||| wireless24n
      htpriv := priv
      qosOption := true
      ldpc := if priv.ldpc && hw.ldpcSupport then 1 else 0
      stbc := if hw.rxStbcSupport && hw.rxStbcNum == 1 then hw.rxStbcNum else info.stbc
      htCap := {
        capInfo := htCapInfo hw priv info.bwMode
        ampduParamsInfo :=
          (hw.maxRxAmpduFactor &&& 0x03) |||
          (if info.wpaEnable then 0x1c &&& density else 0)
        suppMcsSet := doSetMcsByFlag hw.defaultSupportedMcsSet mcsRate1r } })

/-! ## The update -/

def mgn1m : UInt8 := 0x02

def mgnMcs0 : UInt8 := 0x80

/-- The rate table and the first rate of a network; of another type the rate stays. -/
def raidOfType (type : UInt32) (bwMode : ChannelWidth) (txRate : UInt8) : UInt8 × UInt8 :=
  if type = wireless11b then (8, mgn1m)
  else if type = wireless11g then (7, mgn1m)
  else if type = wireless11b ||| wireless11g then (6, mgn1m)
  else if type = wireless24n then (5, mgnMcs0)
  else if type = wireless11g ||| wireless24n then (5, mgn1m)
  else if type = wireless11b ||| wireless24n then (5, mgn1m)
  else if type = wireless11b ||| wireless11g ||| wireless24n then
    (if bwMode = .width20 then 3 else 1, mgn1m)
  else (1, txRate)

def wfWdnGetRaidByNetworkType (info : WdnNetInfo) : WdnNetInfo :=
  let raid := raidOfType info.networkType info.bwMode info.txRate
  { info with raid := raid.1, txRate := raid.2 }

/-- `wf_wlan_network_t`: its elements are in an array of 768 bytes. -/
structure WlanNetwork where
  ssidLength : UInt32
  bw : ChannelWidth
  capInfo : UInt16
  iesLength : UInt32
  ies : Mem
  small : iesLength.toNat ≤ 768

/-- The data of the element that a search finds; the offsets do not come around in so few
bytes (`search_ends`). -/
def WlanNetwork.search (cur : WlanNetwork) (test : IeTest) : Option (List UInt8) :=
  match iesLoop test cur.ies cur.iesLength.toUInt16 (cur.iesLength.toNat + 1) 0 with
  | some ⟨some pie, _⟩ => some (cur.ies.read (pie + 2) (cur.ies (pie + 1)).toNat)
  | _ => none

def whenFound (found : Option (List UInt8)) (info : WdnNetInfo)
    (update : WdnNetInfo → List UInt8 → Option (Int × WdnNetInfo)) : Option WdnNetInfo :=
  match found with
  | some data => (update info data).map Prod.snd
  | none => some info

def searchIf (support : Bool) (cur : WlanNetwork) (test : IeTest) : Option (List UInt8) :=
  if support then cur.search test else none

/-- The elements behind the rates. -/
def updateOptional (hw : HwInfo) (stack : Stack) (cur : WlanNetwork) (info : WdnNetInfo) :
    Option WdnNetInfo := do
  let info ← whenFound (cur.search (byId eidExtSuppRates)) info
    (wfIeExtendSupportedRatesUpdate hw)
  let info ← whenFound (searchIf hw.dot80211nSupport cur (byId eidHtOperation)) info
    (wfIeHtOperationInfoUpdate hw stack)
  let info ← whenFound (searchIf hw.dot80211nSupport cur (byId eidHtCapability)) info
    (wfIeHtCapabilityUpdate hw stack)
  let info ← whenFound (cur.search (byId eidErpInfo)) info wfIeErpUpdate
  let info ← whenFound (cur.search (byOui eidVendorSpecific wmmOui)) info wfIeWmmUpdate
  let info ← whenFound (cur.search (byOui eidVendorSpecific wpaOui)) info wfIeWpaUpdate
  whenFound (cur.search (byId eidRsn)) info wfIeRsnUpdate

/-- What the results of the functions for elements are is not looked at. -/
def wfWdnDataUpdate (hw : HwInfo) (stack : Stack) (cur : WlanNetwork) (info : WdnNetInfo) :
    Option (Int × WdnNetInfo) :=
  let info := { info with ssidLen := cur.ssidLength.toUInt8, bwMode := cur.bw }
  let info := wfIeCapInfoUpdate info cur.capInfo
  match cur.search (byId eidSsid) with
  | none => some (wfReturnFail, info)
  | some ssid => do
      let info ← (wfIeSsidUpdate info ssid).map Prod.snd
      match cur.search (byId eidSuppRates) with
      | none => some (wfReturnFail, info)
      | some rates => do
          let info ← (wfIeSupportedRatesUpdate hw info rates).map Prod.snd
          let info ← updateOptional hw stack cur info
          some (wfReturnOk, {
            wfWdnGetRaidByNetworkType info with ieee8021xBlocked := true })

/-! ## What is to hold -/

/-- The supported rates of an element, as they are stored. -/
def suppRates (hw : HwInfo) (data : List UInt8) : List UInt8 := data.filterMap (suppRate hw)

def extSuppRates (hw : HwInfo) (data : List UInt8) : List UInt8 := data.filterMap (hwRate hw)

/-- An array and its length are as before, or the length is that of what an element has left in
the array. -/
structure Stored (hw : HwInfo) (cur : WlanNetwork) (before after : WdnNetInfo) : Prop where
  ssid : after.ssid = before.ssid ∧ after.ssidLen = before.ssidLen ∨
    ∃ data, cur.search (byId eidSsid) = some data ∧ after.ssidLen.toNat = data.length ∧
      after.ssid.toList.take data.length = data
  rates : after.datarate = before.datarate ∨
    ∃ data, cur.search (byId eidSuppRates) = some data ∧
      after.datarate.held = suppRates hw data
  extRates : after.extDatarate = before.extDatarate ∨
    ∃ data, cur.search (byId eidExtSuppRates) = some data ∧
      after.extDatarate.held = extSuppRates hw data
  together : after.datarate.len + after.extDatarate.len ≤ 8 + 4

/-- Nothing is read or written outside, and the lengths are right afterwards. -/
def Updates (hw : HwInfo) (stack : Stack) (cur : WlanNetwork) (before : WdnNetInfo) : Prop :=
  ∃ code after, wfWdnDataUpdate hw stack cur before = some (code, after) ∧
    Stored hw cur before after

/-! ## When it does -/

/-- The elements behind the rates fit where they are copied to. -/
structure OptionalFit (hw : HwInfo) (cur : WlanNetwork) : Prop where
  rates : ∀ data, cur.search (byId eidExtSuppRates) = some data →
    (extSuppRates hw data).length ≤ 4
  operation : ∀ data, searchIf hw.dot80211nSupport cur (byId eidHtOperation) = some data →
    data.length ≤ 22
  capability : ∀ data, searchIf hw.dot80211nSupport cur (byId eidHtCapability) = some data →
    data.length ≤ 26
  wmm : ∀ data, cur.search (byOui eidVendorSpecific wmmOui) = some data → data.length ≤ 24

/-- The SSID has a length that is accepted, or the length that is set without it is right
already. -/
def SsidFits (cur : WlanNetwork) (before : WdnNetInfo) : Prop :=
  (∃ data, cur.search (byId eidSsid) = some data ∧ data ≠ [] ∧ data.length < 32) ∨
  cur.ssidLength.toUInt8 = before.ssidLen ∨
  ∃ data, cur.search (byId eidSsid) = some data ∧
    cur.ssidLength.toUInt8.toNat = data.length ∧ before.ssid.toList.take data.length = data

structure ElementsFit (hw : HwInfo) (cur : WlanNetwork) (before : WdnNetInfo) : Prop where
  ssid : SsidFits cur before
  optional : cur.search (byId eidSsid) ≠ none → cur.search (byId eidSuppRates) ≠ none →
    OptionalFit hw cur

section Proofs

variable {hw : HwInfo} {stack : Stack} {cur : WlanNetwork} {info info' : WdnNetInfo}
  {data : List UInt8} {code : Int} {size : Nat}

/-! One element. -/

theorem setRates_eq (pick : UInt8 → Option UInt8) (data : List UInt8)
    (rates : Counted UInt8 size) :
    setRates pick data rates = (data.filterMap pick).foldlM Counted.push rates.clear := by
  rw [List.foldlM_filterMap, setRates]
  congr
  funext rates rate
  cases pick rate <;> rfl

theorem setRates_isSome {pick : UInt8 → Option UInt8} {rates : Counted UInt8 size} :
    (setRates pick data rates).isSome ↔ (data.filterMap pick).length ≤ size := by
  rw [setRates_eq, Counted.pushes_isSome, Counted.clear_len, Nat.zero_add]

theorem setRates_held {pick : UInt8 → Option UInt8} {rates rates' : Counted UInt8 size}
    (done : setRates pick data rates = some rates') :
    rates'.held = data.filterMap pick := by
  rw [setRates_eq] at done
  simpa using Counted.pushes_held done

/-- The arrays with a length are left alone. -/
structure Same (info info' : WdnNetInfo) : Prop where
  ssid : info'.ssid = info.ssid
  ssidLen : info'.ssidLen = info.ssidLen
  datarate : info'.datarate = info.datarate
  extDatarate : info'.extDatarate = info.extDatarate

theorem Same.refl (info : WdnNetInfo) : Same info info := ⟨rfl, rfl, rfl, rfl⟩

theorem Same.trans {info'' : WdnNetInfo} (first : Same info info') (second : Same info' info'') :
    Same info info'' where
  ssid := second.ssid.trans first.ssid
  ssidLen := second.ssidLen.trans first.ssidLen
  datarate := second.datarate.trans first.datarate
  extDatarate := second.extDatarate.trans first.extDatarate

/-- A function for an element that copies inside exactly when the element is no longer than
`limit`, and that has no array with a length. -/
structure Frames (limit : Nat) (update : WdnNetInfo → List UInt8 → Option (Int × WdnNetInfo)) :
    Prop where
  isSome : ∀ info data, data.length < 256 →
    ((update info data).isSome ↔ data.length ≤ limit)
  same : ∀ info data code info', update info data = some (code, info') → Same info info'

theorem frames_of {β : Type} {limit : Nat} (get : WdnNetInfo → List UInt8 → Option β)
    (set : WdnNetInfo → β → WdnNetInfo)
    (isSome : ∀ info data, data.length < 256 → data.length ≠ 0 →
      ((get info data).isSome ↔ data.length ≤ limit))
    (same : ∀ info b, Same info (set info b)) :
    Frames limit fun info data =>
      if data.length = 0 then some (wfReturnFail, info)
      else do
        let b ← get info data
        some (wfReturnOk, set info b) where
  isSome := by
    intro info data short
    split_ifs with empty
    · simp [empty]
    · rw [bind_some_isSome]
      exact isSome info data short empty
  same := by
    intro info data code info' done
    split_ifs at done
    · cases done
      exact .refl info
    · simp only [Option.bind_eq_bind, Option.bind_eq_some_iff] at done
      obtain ⟨b, -, done⟩ := done
      cases done
      exact same info b

theorem wfIeWmmUpdate_frames : Frames 24 wfIeWmmUpdate :=
  frames_of (fun info data => store info.wmmInfo 0 data) _ (by simp)
    fun _ _ => ⟨rfl, rfl, rfl, rfl⟩

theorem wfIeHtOperationInfoUpdate_frames :
    Frames 22 (wfIeHtOperationInfoUpdate hw stack) :=
  frames_of (fun _ data => store stack.htOperTemp 0 data) _ (by simp)
    fun _ _ => ⟨rfl, rfl, rfl, rfl⟩

theorem wfIeHtCapabilityUpdate_frames : Frames 26 (wfIeHtCapabilityUpdate hw stack) :=
  frames_of (fun _ data => store stack.htCapTemp 0 data) _ (by simp)
    fun _ _ => ⟨rfl, rfl, rfl, rfl⟩

theorem wfIeErpUpdate_frames : Frames 255 wfIeErpUpdate :=
  frames_of (fun _ data => fetch data 0 1) _ (by
      intro _ data short some
      rw [fetch_isSome]
      omega)
    fun _ _ => ⟨rfl, rfl, rfl, rfl⟩

theorem wfIeWpaUpdate_frames : Frames 255 wfIeWpaUpdate :=
  frames_of (fun _ _ => some ())
    (fun info _ => { info with wpaEnable := true, authAlgo := .openSystem })
    (by
      intro _ data short _
      simp only [Option.isSome_some, true_iff]
      omega)
    fun _ _ => ⟨rfl, rfl, rfl, rfl⟩

theorem wfIeRsnUpdate_frames : Frames 255 wfIeRsnUpdate :=
  frames_of (fun _ _ => some ())
    (fun info _ => { info with rsnEnable := true, authAlgo := .openSystem })
    (by
      intro _ data short _
      simp only [Option.isSome_some, true_iff]
      omega)
    fun _ _ => ⟨rfl, rfl, rfl, rfl⟩

/-! Rates and the SSID. -/

theorem wfIeExtendSupportedRatesUpdate_isSome :
    (wfIeExtendSupportedRatesUpdate hw info data).isSome ↔ (extSuppRates hw data).length ≤ 4 := by
  unfold wfIeExtendSupportedRatesUpdate
  split_ifs with empty
  · simp [extSuppRates, List.length_eq_zero_iff.mp empty]
  · rw [bind_some_isSome]
    exact setRates_isSome

/-- Only the array of the further rates is set. -/
structure ExtSet (hw : HwInfo) (found : Option (List UInt8)) (info info' : WdnNetInfo) :
    Prop where
  ssid : info'.ssid = info.ssid
  ssidLen : info'.ssidLen = info.ssidLen
  datarate : info'.datarate = info.datarate
  extDatarate : info'.extDatarate = info.extDatarate ∨
    ∃ data, found = some data ∧ info'.extDatarate.held = extSuppRates hw data

theorem wfIeExtendSupportedRatesUpdate_set
    (done : wfIeExtendSupportedRatesUpdate hw info data = some (code, info')) :
    ExtSet hw (some data) info info' := by
  unfold wfIeExtendSupportedRatesUpdate at done
  split_ifs at done
  · cases done
    exact ⟨rfl, rfl, rfl, .inl rfl⟩
  · simp only [Option.bind_eq_bind, Option.bind_eq_some_iff] at done
    obtain ⟨rates, set, done⟩ := done
    cases done
    exact ⟨rfl, rfl, rfl, .inr ⟨data, rfl, setRates_held set⟩⟩

theorem wfIeSupportedRatesUpdate_spec (hw : HwInfo) (info : WdnNetInfo) (data : List UInt8) :
    ∃ code info', wfIeSupportedRatesUpdate hw info data = some (code, info') ∧
      info'.ssid = info.ssid ∧ info'.ssidLen = info.ssidLen ∧
      info'.extDatarate = info.extDatarate ∧
      (info'.datarate = info.datarate ∨ info'.datarate.held = suppRates hw data) := by
  unfold wfIeSupportedRatesUpdate
  split_ifs with length
  · exact ⟨_, info, rfl, rfl, rfl, rfl, .inl rfl⟩
  · have few : (data.filterMap (suppRate hw)).length ≤ 8 := by
      have le := List.length_filterMap_le (suppRate hw) data
      omega
    have room := (@setRates_isSome data 8 _ info.datarate).mpr few
    obtain ⟨rates, set⟩ := Option.isSome_iff_exists.mp room
    refine ⟨wfReturnOk, setNetworkType { info with datarate := rates }, ?_, rfl, rfl, rfl,
      .inr (setRates_held set)⟩
    simp [set]

theorem wfIeSsidUpdate_refused (long : 32 ≤ data.length ∨ data = []) :
    wfIeSsidUpdate info data = some (wfReturnFail, info) := by
  unfold wfIeSsidUpdate
  rw [if_pos (long.imp_right fun empty => by simp [empty])]

theorem wfIeSsidUpdate_stored (some_ : data ≠ []) (short : data.length < 32) :
    ∃ ssid, wfIeSsidUpdate info data =
        some (wfReturnOk, { info with ssid := ssid, ssidLen := UInt8.ofNat data.length }) ∧
      ssid.toList.take data.length = data := by
  have length := List.length_pos_iff.mpr some_
  have clears : (store info.ssid 0 (List.replicate (data.length + 1) (0 : UInt8))).isSome := by
    rw [store_isSome, List.length_replicate]
    omega
  obtain ⟨cleared, clears⟩ := Option.isSome_iff_exists.mp clears
  have fits : (store cleared 0 data).isSome := by
    rw [store_isSome]
    omega
  obtain ⟨ssid, stores⟩ := Option.isSome_iff_exists.mp fits
  refine ⟨ssid, ?_, take_store_zero stores⟩
  unfold wfIeSsidUpdate
  rw [if_neg (by omega)]
  simp [clears, stores]

/-! The elements behind the rates. -/

theorem iesLoop_ends {test : IeTest} {buf : Mem} {varLen offset : UInt16} {fuel : Nat}
    (small : varLen.toNat ≤ 768) (inside : offset.toNat ≤ varLen.toNat)
    (enough : varLen.toNat - offset.toNat < fuel) :
    (iesLoop test buf varLen fuel offset).isSome := by
  induction fuel generalizing offset with
  | zero => omega
  | succ fuel ih =>
      cases hit : test.hit buf offset.toNat with
      | true => simp [iesLoop_hit hit]
      | false =>
          by_cases out : varLen ≤ nextOffset buf offset
          · simp [iesLoop_out hit out]
          · rw [iesLoop_on hit out, Option.isSome_map]
            have further := nextOffset_mod buf offset
            have byte := ieSize_lt buf offset.toNat
            rw [UInt16.not_le, UInt16.lt_iff_toNat_lt] at out
            exact ih (by omega) (by omega)

/-- The loop of a search comes to its end. -/
theorem search_ends (cur : WlanNetwork) (test : IeTest) :
    (iesLoop test cur.ies cur.iesLength.toUInt16 (cur.iesLength.toNat + 1) 0).isSome := by
  have small := cur.small
  have length : cur.iesLength.toUInt16.toNat = cur.iesLength.toNat := by
    rw [UInt32.toNat_toUInt16]
    omega
  exact iesLoop_ends (by omega) (Nat.zero_le _) (by omega)

theorem search_short {test : IeTest} (found : cur.search test = some data) :
    data.length < 256 := by
  unfold WlanNetwork.search at found
  split at found
  · cases found
    rw [Mem.length_read]
    exact UInt8.toNat_lt _
  · cases found

theorem searchIf_short {support : Bool} {test : IeTest}
    (found : searchIf support cur test = some data) : data.length < 256 := by
  unfold searchIf at found
  split_ifs at found
  exact search_short found

section WhenFound

variable {found : Option (List UInt8)} {limit : Nat}
  {update : WdnNetInfo → List UInt8 → Option (Int × WdnNetInfo)}

theorem whenFound_isSome (frames : Frames limit update)
    (short : ∀ data, found = some data → data.length < 256) :
    (whenFound found info update).isSome ↔ ∀ data, found = some data → data.length ≤ limit := by
  cases found with
  | none => simp [whenFound]
  | some data => simp [whenFound, frames.isSome info data (short data rfl)]

theorem whenFound_same (frames : Frames limit update)
    (done : whenFound found info update = some info') : Same info info' := by
  cases found with
  | none =>
      cases done
      exact .refl info
  | some data =>
      obtain ⟨⟨code, after⟩, updates, rfl⟩ := Option.map_eq_some_iff.mp done
      exact frames.same info data code after updates

end WhenFound

theorem updateOptional_isSome :
    (updateOptional hw stack cur info).isSome ↔ OptionalFit hw cur := by
  have plain : ∀ {test : IeTest} {data : List UInt8},
      cur.search test = some data → data.length ≤ 255 := by
    intro test data found
    have short := search_short found
    omega
  have ext : (whenFound (cur.search (byId eidExtSuppRates)) info
        (wfIeExtendSupportedRatesUpdate hw)).isSome ↔
      ∀ data, cur.search (byId eidExtSuppRates) = some data →
        (extSuppRates hw data).length ≤ 4 := by
    cases cur.search (byId eidExtSuppRates) with
    | none => simp [whenFound]
    | some data => simp [whenFound, wfIeExtendSupportedRatesUpdate_isSome]
  refine (bind_isSome_iff ext fun _ _ =>
    bind_isSome_iff (whenFound_isSome wfIeHtOperationInfoUpdate_frames
      fun _ => searchIf_short) fun _ _ =>
    bind_isSome_iff (whenFound_isSome wfIeHtCapabilityUpdate_frames
      fun _ => searchIf_short) fun _ _ =>
    bind_isSome_iff (whenFound_isSome wfIeErpUpdate_frames fun _ => search_short) fun _ _ =>
    bind_isSome_iff (whenFound_isSome wfIeWmmUpdate_frames fun _ => search_short) fun _ _ =>
    bind_isSome_iff (whenFound_isSome wfIeWpaUpdate_frames fun _ => search_short) fun _ _ =>
    whenFound_isSome wfIeRsnUpdate_frames fun _ => search_short).trans ?_
  constructor
  · rintro ⟨rates, operation, capability, -, wmm, -, -⟩
    exact ⟨rates, operation, capability, wmm⟩
  · rintro ⟨rates, operation, capability, wmm⟩
    exact ⟨rates, operation, capability, fun _ => plain, wmm, fun _ => plain, fun _ => plain⟩

theorem updateOptional_set (done : updateOptional hw stack cur info = some info') :
    ExtSet hw (cur.search (byId eidExtSuppRates)) info info' := by
  unfold updateOptional at done
  simp only [Option.bind_eq_bind, Option.bind_eq_some_iff] at done
  obtain ⟨first, ext, second, operation, third, capability, fourth, erp, fifth, wmm, sixth, wpa,
    rsn⟩ := done
  have same : Same first info' :=
    ((((whenFound_same wfIeHtOperationInfoUpdate_frames operation).trans
      (whenFound_same wfIeHtCapabilityUpdate_frames capability)).trans
      (whenFound_same wfIeErpUpdate_frames erp)).trans
      (whenFound_same wfIeWmmUpdate_frames wmm)).trans
      ((whenFound_same wfIeWpaUpdate_frames wpa).trans (whenFound_same wfIeRsnUpdate_frames rsn))
  have set : ExtSet hw (cur.search (byId eidExtSuppRates)) info first := by
    cases found : cur.search (byId eidExtSuppRates) with
    | none =>
        rw [found] at ext
        cases ext
        exact ⟨rfl, rfl, rfl, .inl rfl⟩
    | some data =>
        rw [found] at ext
        obtain ⟨⟨code, after⟩, updates, rfl⟩ := Option.map_eq_some_iff.mp ext
        exact wfIeExtendSupportedRatesUpdate_set updates
  exact {
    ssid := same.ssid.trans set.ssid
    ssidLen := same.ssidLen.trans set.ssidLen
    datarate := same.datarate.trans set.datarate
    extDatarate := by
      rw [same.extDatarate]
      exact set.extDatarate }

/-! The update. -/

/-- The SSID is that of the element, or it was refused and the length is that of the network. -/
def SsidSet (cur : WlanNetwork) (before after : WdnNetInfo) : Prop :=
  (∃ data, cur.search (byId eidSsid) = some data ∧ data ≠ [] ∧ data.length < 32 ∧
    after.ssidLen.toNat = data.length ∧ after.ssid.toList.take data.length = data) ∨
  (∀ data, cur.search (byId eidSsid) = some data → 32 ≤ data.length ∨ data = []) ∧
    after.ssid = before.ssid ∧ after.ssidLen = cur.ssidLength.toUInt8

/-- What the update does to the arrays with a length. -/
structure Sets (hw : HwInfo) (cur : WlanNetwork) (before after : WdnNetInfo) : Prop where
  ssid : SsidSet cur before after
  rates : after.datarate = before.datarate ∨
    ∃ data, cur.search (byId eidSuppRates) = some data ∧
      after.datarate.held = suppRates hw data
  extRates : after.extDatarate = before.extDatarate ∨
    ∃ data, cur.search (byId eidExtSuppRates) = some data ∧
      after.extDatarate.held = extSuppRates hw data

variable {before after : WdnNetInfo}

theorem raid_same (info : WdnNetInfo) : Same info (wfWdnGetRaidByNetworkType info) :=
  ⟨rfl, rfl, rfl, rfl⟩

/-- The fields that come from the network itself. -/
def entered (cur : WlanNetwork) (before : WdnNetInfo) : WdnNetInfo :=
  wfIeCapInfoUpdate { before with ssidLen := cur.ssidLength.toUInt8, bwMode := cur.bw }
    cur.capInfo

theorem ssid_updated (found : cur.search (byId eidSsid) = some data) :
    ∃ info, (wfIeSsidUpdate (entered cur before) data).map Prod.snd = some info ∧
      SsidSet cur before info ∧ info.datarate = before.datarate ∧
      info.extDatarate = before.extDatarate := by
  by_cases refused : 32 ≤ data.length ∨ data = []
  · refine ⟨entered cur before, ?_, .inr ⟨?_, rfl, rfl⟩, rfl, rfl⟩
    · rw [wfIeSsidUpdate_refused refused]
      rfl
    · intro other same
      rw [found] at same
      cases same
      exact refused
  · rw [not_or, Nat.not_le] at refused
    obtain ⟨ssid, stores, same⟩ :=
      @wfIeSsidUpdate_stored (entered cur before) data refused.2 refused.1
    refine ⟨{ entered cur before with ssid := ssid, ssidLen := UInt8.ofNat data.length },
      ?_, .inl ⟨data, found, refused.2, refused.1, ?_, same⟩, rfl, rfl⟩
    · rw [stores]
      rfl
    · exact length_ofNat (search_short found)

theorem wfWdnDataUpdate_isSome :
    (wfWdnDataUpdate hw stack cur before).isSome ↔
      (cur.search (byId eidSsid) ≠ none → cur.search (byId eidSuppRates) ≠ none →
        OptionalFit hw cur) := by
  unfold wfWdnDataUpdate
  cases ssid : cur.search (byId eidSsid) with
  | none => simp
  | some data =>
      obtain ⟨first, done, -⟩ := @ssid_updated cur data before ssid
      dsimp only
      rw [← entered, done]
      cases rates : cur.search (byId eidSuppRates) with
      | none => simp
      | some data =>
          obtain ⟨code, second, updates, -⟩ := wfIeSupportedRatesUpdate_spec hw first data
          simp only [Option.bind_eq_bind, Option.bind_some, updates, Option.map_some]
          refine bind_some_isSome.trans (updateOptional_isSome.trans ?_)
          simp

theorem wfWdnDataUpdate_sets
    (done : wfWdnDataUpdate hw stack cur before = some (code, after)) :
    Sets hw cur before after := by
  unfold wfWdnDataUpdate at done
  cases ssid : cur.search (byId eidSsid) with
  | none =>
      rw [ssid] at done
      cases done
      exact ⟨.inr ⟨by simp [ssid], rfl, rfl⟩, .inl rfl, .inl rfl⟩
  | some data =>
      obtain ⟨first, stores, set, datarate, extDatarate⟩ := @ssid_updated cur data before ssid
      dsimp only at done
      rw [← entered, ssid] at done
      cases rates : cur.search (byId eidSuppRates) with
      | none =>
          simp only [stores, rates, Option.bind_eq_bind, Option.bind_some] at done
          cases done
          exact ⟨set, .inl datarate, .inl extDatarate⟩
      | some data =>
          obtain ⟨code, second, updates, sameSsid, sameLen, sameExt, stored⟩ :=
            wfIeSupportedRatesUpdate_spec hw first data
          simp only [stores, rates, updates, Option.bind_eq_bind, Option.bind_some,
            Option.map_some, Option.bind_eq_some_iff] at done
          obtain ⟨third, optional, done⟩ := done
          cases done
          have ext := updateOptional_set optional
          have raid := raid_same third
          exact {
            ssid := by
              have ssidSame := raid.ssid.trans (ext.ssid.trans sameSsid)
              have lenSame := raid.ssidLen.trans (ext.ssidLen.trans sameLen)
              simp only [SsidSet, ssidSame, lenSame]
              exact set
            rates := by
              rw [(raid.datarate.trans ext.datarate : _ = second.datarate), ← datarate]
              exact stored.imp_right fun held => ⟨data, rates, held⟩
            extRates := by
              rw [(raid.extDatarate : _ = third.extDatarate), ← extDatarate, ← sameExt]
              exact ext.extDatarate }

theorem ssid_stored_iff (set : SsidSet cur before after) :
    (after.ssid = before.ssid ∧ after.ssidLen = before.ssidLen ∨
      ∃ data, cur.search (byId eidSsid) = some data ∧ after.ssidLen.toNat = data.length ∧
        after.ssid.toList.take data.length = data) ↔ SsidFits cur before := by
  obtain ⟨data, found, some_, short, length, same⟩ | ⟨refused, ssid, length⟩ := set
  · exact iff_of_true (.inr ⟨data, found, length, same⟩) (.inl ⟨data, found, some_, short⟩)
  · simp only [ssid, length, true_and, SsidFits]
    constructor
    · exact .inr
    · rintro (⟨data, found, some_, short⟩ | right)
      · obtain long | empty := refused data found
        · omega
        · exact absurd empty some_
      · exact right

/-- The update keeps inside and the lengths right exactly when the elements fit. -/
theorem wdn_data_update_iff (hw : HwInfo) (stack : Stack) (cur : WlanNetwork)
    (before : WdnNetInfo) :
    Updates hw stack cur before ↔ ElementsFit hw cur before := by
  constructor
  · rintro ⟨code, after, done, stored⟩
    have sets := wfWdnDataUpdate_sets done
    have ends : (wfWdnDataUpdate hw stack cur before).isSome := by simp [done]
    exact ⟨(ssid_stored_iff sets.ssid).mp stored.ssid, wfWdnDataUpdate_isSome.mp ends⟩
  · intro fit
    have ends := (@wfWdnDataUpdate_isSome hw stack cur before).mpr fit.optional
    obtain ⟨⟨code, after⟩, done⟩ := Option.isSome_iff_exists.mp ends
    have sets := wfWdnDataUpdate_sets done
    exact ⟨code, after, done, {
      ssid := (ssid_stored_iff sets.ssid).mpr fit.ssid
      rates := sets.rates
      extRates := sets.extRates
      together := Nat.add_le_add after.datarate.le after.extDatarate.le }⟩

/-- The rates of 802.11b and 802.11g. -/
def rates11g : HwInfo where
  datarate := ⟨#[0x82, 0x84, 0x8b, 0x96, 0x8c, 0x92, 0x98, 0xa4, 0xb0, 0xc8, 0xe0, 0xec, 0], rfl⟩
  dot80211nSupport := true
  cbw40Support := false
  smPsSupport := 0
  ldpcSupport := false
  txStbcSupport := false
  rxStbcSupport := false
  rxStbcNum := 0
  rxPacketOffset := 0
  maxRecvbufSz := 0
  maxRxAmpduFactor := 0
  bestAmpduDensity := 0
  defaultSupportedMcsSet := .replicate 16 0

/-- A network with the four rates of 802.11b in the first element and the eight of 802.11g in
the other. -/
def mixedNetwork : WlanNetwork where
  ssidLength := 1
  bw := .width20
  capInfo := 1
  iesLength := 19
  ies := Mem.write (fun _ => 0) 0
    [0, 1, 0x61, 1, 4, 2, 4, 11, 22, 50, 8, 12, 18, 24, 36, 48, 72, 96, 108]
  small := by decide

/-- The record of `wf_wdn_add`. -/
def newWdn : WdnNetInfo where
  ssid := .replicate 32 0
  ssidLen := 0
  capInfo := 0
  essNet := false
  ibssNet := false
  privacy := false
  shortPreamble := false
  shortSlot := false
  radioMeasure := false
  datarate := ⟨.replicate 8 0, 0, by decide⟩
  extDatarate := ⟨.replicate 4 0, 0, by decide⟩
  htEnable := false
  htCap := ⟨0, 0, .replicate 16 0⟩
  htpriv := ⟨false, false, 0, 0, false, false, false, false, false, false, 0, false, false⟩
  htProtection := 0
  bwMode := .width20
  channleOffset := .dontCare
  wmmEnable := false
  wmmInfo := .replicate 24 0
  wpaEnable := false
  rsnEnable := false
  erpEnable := false
  erpFlag := 0
  authAlgo := .openSystem
  qosOption := false
  networkType := 0
  raid := 0
  txRate := 0
  cts2self := 0
  rtsen := 0
  ldpc := 0
  stbc := 0
  ieee8021xBlocked := false

theorem mixed_rates_overflow :
    ¬ Updates rates11g ⟨.replicate 22 0, .replicate 26 0⟩ mixedNetwork newWdn := by
  rintro ⟨code, after, done, -⟩
  have outside : (wfWdnDataUpdate rates11g ⟨.replicate 22 0, .replicate 26 0⟩ mixedNetwork
      newWdn).isNone := by decide +kernel
  simp [done] at outside

end Proofs

end DataUpdate

end Smartchip.Wdn
