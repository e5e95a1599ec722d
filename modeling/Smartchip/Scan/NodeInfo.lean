import Smartchip.Foundation.Checked
import Smartchip.Frame.Elements

/-!
# What a scan keeps of a frame

`wlan_mgmt_scan_node_info` of `nic/wlan_mgmt.c`.  The frame is the list of its bytes; a read
behind its end, or a write behind the end of a field of the node, leaves the function without a
value.  The time and the signal of the frame, which do not come from its bytes, are left out.
-/

namespace Smartchip.Scan

open Smartchip.Foundation Smartchip.Frame

namespace NodeInfo

def eidSsid : UInt8 := 0

def eidSuppRates : UInt8 := 1

def eidDsParams : UInt8 := 3

def eidHtCapability : UInt8 := 45

def eidRsn : UInt8 := 48

def eidExtSuppRates : UInt8 := 50

def eidHtOperation : UInt8 := 61

def eidVendorSpecific : UInt8 := 221

def wpaOui : List UInt8 := [0x00, 0x50, 0xf2, 0x01]

def wpsOui : List UInt8 := [0x00, 0x50, 0xf2, 0x04]

inductive HiddenSsid where
  | notInUse
  | zeroLen
  | zeroContents
  deriving DecidableEq

inductive OprMode where
  | unset
  | adhoc
  | master

/-- `wf_wlan_bss_name_e`; a new node has the first. -/
inductive BssName where
  | a
  | b
  | g
  | bg
  | an
  | bn
  | gn
  | bgn

/-- `wf_wlan_mgmt_scan_que_node_t`; the local `support_rate_cnt` is the length of
`spotRate`. -/
structure ScanNode where
  frameType : UInt16
  bssid : List UInt8
  oprMode : OprMode
  privacy : Bool
  ieLen : UInt16
  ies : Vector UInt8 768
  ssidType : HiddenSsid
  ssidLength : UInt32
  ssid : Vector UInt8 33
  spotRate : Counted UInt8 16
  channel : UInt8
  htSpot : Bool
  mcs : UInt16
  bw40mhz : Bool
  shortGi : Bool
  wpaIe : Vector UInt8 64
  wpsIe : Vector UInt8 64
  rsnIe : Vector UInt8 64
  name : BssName

theorem noRates_le : 0 ≤ 16 := Nat.zero_le _

/-- `wlan_mgmt_scan_que_node_new`. -/
def newNode : ScanNode where
  frameType := 0
  bssid := .replicate 6 0
  oprMode := .unset
  privacy := false
  ieLen := 0
  ies := .replicate 768 0
  ssidType := .notInUse
  ssidLength := 0
  ssid := .replicate 33 0
  spotRate := ⟨.replicate 16 0, 0, noRates_le⟩
  channel := 0
  htSpot := false
  mcs := 0
  bw40mhz := false
  shortGi := false
  wpaIe := .replicate 64 0
  wpsIe := .replicate 64 0
  rsnIe := .replicate 64 0
  name := .a

/-! ## One element

`rest` are the bytes of the frame behind the length of the element. -/

def setSsid (len : UInt8) (rest : List UInt8) (node : ScanNode) : Option (Int × ScanNode) := do
  let data ← fetch rest 0 len.toNat
  let ssid ← store node.ssid 0 data
  let ssid ← store ssid len.toNat [0]
  some (0, {
    node with ssidType := .notInUse, ssidLength := len.toUInt32, ssid := ssid })

def scanSsid (probeResp : Bool) (len : UInt8) (rest : List UInt8) (node : ScanNode) :
    Option (Int × ScanNode) :=
  if 33 ≤ len then some (-3, node)
  else if probeResp then
    if len = 0 then some (-4, node) else setSsid len rest node
  else if len = 0 then some (0, { node with ssidType := .zeroLen })
  else do
    let first ← fetch rest 0 1
    if first = [0] then some (0, { node with ssidType := .zeroContents })
    else setSsid len rest node

def clearRates (rates : Counted UInt8 16) : Counted UInt8 16 :=
  if rates.len = 0 then ⟨.replicate 16 0, 0, Nat.zero_le _⟩ else rates

def scanRates (len : UInt8) (rest : List UInt8) (node : ScanNode) : Option (Int × ScanNode) :=
  let rates := clearRates node.spotRate
  if len = 0 ∨ 16 < len.toNat + rates.len then some (-4, { node with spotRate := rates })
  else do
    let data ← fetch rest 0 len.toNat
    let rates ← rates.append data
    some (0, { node with spotRate := rates })

/-- The first byte of a DSSS parameter set, and of the HT operation. -/
def scanChannel (rest : List UInt8) (node : ScanNode) : Option (Int × ScanNode) := do
  let data ← fetch rest 0 1
  some (0, { node with channel := data.headD 0 })

def le16Of (bytes : List UInt8) : UInt16 :=
  bytes.foldr (fun byte word => word <<< 8 ||| byte.toUInt16) 0

def scanHtCapability (rest : List UInt8) (node : ScanNode) : Option (Int × ScanNode) := do
  let mcs ← fetch rest 3 2
  let capInfo ← fetch rest 0 2
  some (0, {
    node with
    htSpot := true
    mcs := le16Of mcs
    bw40mhz := le16Of capInfo &&& 0x0002 != 0
    shortGi := le16Of capInfo &&& 0x0060 != 0 })

/-- The length of the data is compared with the size of the array, and two bytes more are
copied. -/
def keepIe (array : Vector UInt8 64) (e len : UInt8) (rest : List UInt8) :
    Option (Vector UInt8 64) :=
  if len ≤ 64 then do
    let data ← fetch rest 0 len.toNat
    store array 0 (e :: len :: data)
  else some array

def scanVendor (e len : UInt8) (rest : List UInt8) (node : ScanNode) :
    Option (Int × ScanNode) := do
  let oui ← fetch rest 0 4
  if oui = wpaOui then do
    let wpaIe ← keepIe node.wpaIe e len rest
    some (0, { node with wpaIe := wpaIe })
  else if oui = wpsOui then do
    let wpsIe ← keepIe node.wpsIe e len rest
    some (0, { node with wpsIe := wpsIe })
  else some (0, node)

def scanRsn (e len : UInt8) (rest : List UInt8) (node : ScanNode) :
    Option (Int × ScanNode) := do
  let rsnIe ← keepIe node.rsnIe e len rest
  some (0, { node with rsnIe := rsnIe })

/-- The body of the loop. -/
def scanElement (probeResp : Bool) (e len : UInt8) (rest : List UInt8) (node : ScanNode) :
    Option (Int × ScanNode) :=
  if e = eidSsid then scanSsid probeResp len rest node
  else if e = eidSuppRates ∨ e = eidExtSuppRates then scanRates len rest node
  else if e = eidDsParams ∨ e = eidHtOperation then scanChannel rest node
  else if e = eidHtCapability then scanHtCapability rest node
  else if e = eidVendorSpecific then scanVendor e len rest node
  else if e = eidRsn then scanRsn e len rest node
  else some (0, node)

/-! ## The frame -/

/-- The loop over the elements, which takes one without a look at the length. -/
def scanElements (probeResp : Bool) (bytes : List UInt8) (node : ScanNode) :
    Option (Int × ScanNode) :=
  match bytes with
  | e :: len :: rest =>
      match scanElement probeResp e len rest node with
      | none => none
      | some (code, node) =>
          if code ≠ 0 then some (code, node)
          else if rest.length ≤ len.toNat then some (0, node)
          else scanElements probeResp (rest.drop len.toNat) node
  | _ => none
  termination_by bytes.length
  decreasing_by exact length_drop_lt e len rest

def cckRate (rate : UInt8) : Bool :=
  rate &&& 0x7f == 2 || rate &&& 0x7f == 4 || rate &&& 0x7f == 11 || rate &&& 0x7f == 22

def bssName (rates : List UInt8) (htSpot : Bool) : BssName :=
  let cckSpot := rates.any cckRate
  let ofdmSpot := rates.any fun rate => !cckRate rate
  if cckSpot && ofdmSpot then if htSpot then .bgn else .bg
  else if cckSpot then if htSpot then .bn else .b
  else if htSpot then .gn else .g

def frmProbeResp : UInt16 := 0x50

/-- A management frame, whose length has 16 bits. -/
structure MgmtFrame where
  bytes : List UInt8
  short : bytes.length < 65536

/-- Where the fixed fields of a beacon begin, and where its elements do. -/
def beaconOfs : Nat := 24

def variableOfs : Nat := 36

def iesSizeMax : UInt16 := 768

/-- `WF_80211_CAPAB_IS_MESH_STA_BSS`. -/
def isMeshStaBss (capab : UInt16) : Bool := capab &&& 0x0003 == 0

/-- The fixed fields and the elements are saved, then the loop goes over the elements. -/
def scanIes (frame : MgmtFrame) (node : ScanNode) : Option (Int × ScanNode) :=
  let ieLen := UInt16.ofNat frame.bytes.length - UInt16.ofNat beaconOfs
  let node := { node with ieLen := ieLen }
  if iesSizeMax ≤ ieLen then some (-2, node)
  else do
    let body ← fetch frame.bytes beaconOfs ieLen.toNat
    let ies ← store node.ies 0 body
    let ies ← store ies ieLen.toNat [0]
    let (code, node) ← scanElements (node.frameType == frmProbeResp)
      (frame.bytes.drop variableOfs) { node with ies := ies }
    some (code,
      if code ≠ 0 then node else { node with name := bssName node.spotRate.held node.htSpot })

def wlanMgmtScanNodeInfo (p2pIsValid : Bool) (frame : MgmtFrame) (node : ScanNode) :
    Option (Int × ScanNode) := do
  let control ← fetch frame.bytes 0 2
  let bssid ← fetch frame.bytes 16 6
  let capabBytes ← fetch frame.bytes 34 2
  let capab := le16Of capabBytes
  let node := { node with frameType := le16Of control &&& 0xfc, bssid := bssid }
  if isMeshStaBss capab ∧ ¬ p2pIsValid then some (-1, node)
  else do
    -- a comparison with `p2p_wildcard_ssid` that is only for the log
    let _ ← if isMeshStaBss capab then fetch frame.bytes 38 7 else some []
    scanIes frame {
      node with
      oprMode :=
        if isMeshStaBss capab then node.oprMode
        else if capab &&& 0x0001 ≠ 0 then .master else .adhoc
      privacy := capab &&& 0x0010 != 0 }

/-! ## What is to hold -/

/-- What the loop takes for an element of this vendor, by the bytes behind its length. -/
def vendorHit (oui : List UInt8) (e : UInt8) (rest : List UInt8) : Bool :=
  e == eidVendorSpecific && rest.take 4 == oui

def rsnHit (e : UInt8) (_ : List UInt8) : Bool := e == eidRsn

/-- The array is untouched, or an element of this kind is copied to it. -/
def CopyOf (hit : UInt8 → List UInt8 → Bool) (ies : List Ie) (array : Vector UInt8 64) : Prop :=
  array = .replicate 64 0 ∨
  ∃ ie ∈ ies, hit ie.elementId ie.data = true ∧
    array.toList.take ie.bytes.length = ie.bytes

structure Copies (ies : List Ie) (node : ScanNode) : Prop where
  wpa : CopyOf (vendorHit wpaOui) ies node.wpaIe
  wps : CopyOf (vendorHit wpsOui) ies node.wpsIe
  rsn : CopyOf rsnHit ies node.rsnIe

/-- Elements follow the fixed fields, and nothing else. -/
structure WellFormed (frame : MgmtFrame) (ies : List Ie) : Prop where
  bytes : frame.bytes.drop variableOfs = ieBytes ies
  short : ∀ ie ∈ ies, ie.data.length < 256

/-- Nothing is read or written outside, and the elements of a well-formed frame are kept as they
are. -/
def Extracts (p2pIsValid : Bool) (frame : MgmtFrame) : Prop :=
  ∃ code node, wlanMgmtScanNodeInfo p2pIsValid frame newNode = some (code, node) ∧
    ∀ ies, WellFormed frame ies → code = 0 → Copies ies node

/-! ## When it does -/

/-- The element ends the loop, with `cnt` rates before it. -/
def Refused (probeResp : Bool) (cnt : Nat) (e len : UInt8) : Prop :=
  if e = eidSsid then 33 ≤ len.toNat ∨ probeResp = true ∧ len = 0
  else if e = eidSuppRates ∨ e = eidExtSuppRates then len = 0 ∨ 16 < len.toNat + cnt
  else False

/-- The element is too long to be kept, or it fits with its header and is in the frame. -/
def KeptFits (len : UInt8) (rest : List UInt8) : Prop :=
  64 < len.toNat ∨ len.toNat ≤ 62 ∧ len.toNat ≤ rest.length

/-- What is read for the element is in the frame. -/
def ElementFits (probeResp : Bool) (e len : UInt8) (rest : List UInt8) : Prop :=
  if e = eidSsid then
    len.toNat ≤ rest.length ∨ probeResp = false ∧ rest.head? = some 0
  else if e = eidSuppRates ∨ e = eidExtSuppRates then len.toNat ≤ rest.length
  else if e = eidDsParams ∨ e = eidHtOperation then 1 ≤ rest.length
  else if e = eidHtCapability then 5 ≤ rest.length
  else if e = eidVendorSpecific then
    4 ≤ rest.length ∧ (rest.take 4 = wpaOui ∨ rest.take 4 = wpsOui → KeptFits len rest)
  else if e = eidRsn then KeptFits len rest
  else True

def ratesOf (e len : UInt8) : Nat :=
  if e = eidSuppRates ∨ e = eidExtSuppRates then len.toNat else 0

/-- The headers and what is read of the elements are inside, up to the end of the frame or to an
element that is refused. -/
inductive ScanFits (probeResp : Bool) : Nat → List UInt8 → Prop
  | refused {cnt : Nat} {e len : UInt8} {rest : List UInt8}
      (refuses : Refused probeResp cnt e len) : ScanFits probeResp cnt (e :: len :: rest)
  | last {cnt : Nat} {e len : UInt8} {rest : List UInt8}
      (fits : ElementFits probeResp e len rest) (ended : rest.length ≤ len.toNat) :
      ScanFits probeResp cnt (e :: len :: rest)
  | step {cnt : Nat} {e len : UInt8} {rest : List UInt8}
      (fits : ElementFits probeResp e len rest)
      (further : ScanFits probeResp (cnt + ratesOf e len) (rest.drop len.toNat)) :
      ScanFits probeResp cnt (e :: len :: rest)

/-- No element is refused. -/
inductive Accepts (probeResp : Bool) : Nat → List UInt8 → Prop
  | last {cnt : Nat} {e len : UInt8} {rest : List UInt8}
      (accepts : ¬ Refused probeResp cnt e len) (ended : rest.length ≤ len.toNat) :
      Accepts probeResp cnt (e :: len :: rest)
  | step {cnt : Nat} {e len : UInt8} {rest : List UInt8}
      (accepts : ¬ Refused probeResp cnt e len) (more : len.toNat < rest.length)
      (further : Accepts probeResp (cnt + ratesOf e len) (rest.drop len.toNat)) :
      Accepts probeResp cnt (e :: len :: rest)

/-- The last element that is taken for one of this kind and is not too long. -/
def lastKept (hit : UInt8 → List UInt8 → Bool) : List Ie → Option Ie
  | [] => none
  | ie :: ies =>
      (lastKept hit ies).or
        (if hit ie.elementId (ie.data ++ ieBytes ies) ∧ ie.data.length ≤ 64 then some ie
         else none)

/-- The four bytes that are compared belong to the element that is kept. -/
structure OwnOui (ies : List Ie) : Prop where
  wpa : ∀ ie, lastKept (vendorHit wpaOui) ies = some ie → 4 ≤ ie.data.length
  wps : ∀ ie, lastKept (vendorHit wpsOui) ies = some ie → 4 ≤ ie.data.length

def capabOf (frame : MgmtFrame) : UInt16 := le16Of ((frame.bytes.drop 34).take 2)

def isProbeResp (frame : MgmtFrame) : Bool :=
  le16Of (frame.bytes.take 2) &&& 0xfc == frmProbeResp

/-- The fixed fields are in the frame, and its elements fit where they are looked at. -/
structure FrameFits (p2pIsValid : Bool) (frame : MgmtFrame) : Prop where
  fixed : 36 ≤ frame.bytes.length
  wildcard : isMeshStaBss (capabOf frame) = true → p2pIsValid = true → 45 ≤ frame.bytes.length
  elements : (isMeshStaBss (capabOf frame) = true → p2pIsValid = true) →
    frame.bytes.length < 24 + 768 →
    ScanFits (isProbeResp frame) 0 (frame.bytes.drop variableOfs)
  own : (isMeshStaBss (capabOf frame) = true → p2pIsValid = true) →
    frame.bytes.length < 24 + 768 → ∀ ies, WellFormed frame ies →
    Accepts (isProbeResp frame) 0 (frame.bytes.drop variableOfs) → OwnOui ies

section Proofs

variable {probeResp : Bool} {e len : UInt8} {rest bytes : List UInt8}
  {node node' : ScanNode} {array array' : Vector UInt8 64} {code : Int}

/-! One element. -/

theorem le_64 (len : UInt8) : len ≤ 64 ↔ len.toNat ≤ 64 := UInt8.le_iff_toNat_le

theorem keepIe_isSome : (keepIe array e len rest).isSome ↔ KeptFits len rest := by
  unfold keepIe KeptFits
  split_ifs with small
  · rw [le_64] at small
    have room : ∀ data, fetch rest 0 len.toNat = some data →
        ((store array 0 (e :: len :: data)).isSome ↔ len.toNat ≤ 62) := by
      intro data fetched
      have length := congrArg List.length (fetch_eq_some.mp fetched).2
      have inside := (fetch_eq_some.mp fetched).1
      simp only [List.drop_zero, List.length_take] at length
      rw [store_isSome, List.length_cons, List.length_cons]
      omega
    rw [bind_isSome_iff fetch_isSome room]
    omega
  · rw [le_64] at small
    simp
    omega

/-- What becomes of an array when an element goes by. -/
def KeptIn (hit : Bool) (e len : UInt8) (rest : List UInt8) (array array' : Vector UInt8 64) :
    Prop :=
  if hit ∧ len.toNat ≤ 64 then
    array'.toList.take (len.toNat + 2) = e :: len :: rest.take len.toNat
  else array' = array

@[simp] theorem keptIn_miss : KeptIn false e len rest array array' ↔ array' = array := by
  simp [KeptIn]

theorem keepIe_keptIn (kept : keepIe array e len rest = some array') :
    KeptIn true e len rest array array' := by
  unfold keepIe at kept
  unfold KeptIn
  split_ifs at kept with small
  · rw [le_64] at small
    simp only [Option.bind_eq_bind, Option.bind_eq_some_iff] at kept
    obtain ⟨data, fetched, stored⟩ := kept
    obtain ⟨inside, same⟩ := fetch_eq_some.mp fetched
    have whole := take_store_zero stored
    rw [← same] at whole
    simp only [List.drop_zero, List.length_cons, List.length_take] at whole
    rw [Nat.min_eq_left (by omega)] at whole
    simpa [small] using whole
  · rw [le_64] at small
    cases kept
    simp [small]

/-- An element that is not refused. -/
structure Scanned (e len : UInt8) (rest : List UInt8) (node node' : ScanNode) : Prop where
  rates : node'.spotRate.len = node.spotRate.len + ratesOf e len
  wpa : KeptIn (vendorHit wpaOui e rest) e len rest node.wpaIe node'.wpaIe
  wps : KeptIn (vendorHit wpsOui e rest) e len rest node.wpsIe node'.wpsIe
  rsn : KeptIn (rsnHit e rest) e len rest node.rsnIe node'.rsnIe

/-- What one element comes to, when `fits` says what it needs. -/
structure Turn (refuses fits : Prop) (e len : UInt8) (rest : List UInt8) (node : ScanNode)
    (result : Option (Int × ScanNode)) : Prop where
  refused : refuses → ∃ code node', result = some (code, node') ∧ code ≠ 0
  isSome : ¬ refuses → (result.isSome ↔ fits)
  scanned : ¬ refuses → ∀ code node', result = some (code, node') →
    code = 0 ∧ Scanned e len rest node node'

/-- The kept elements and the rates are as they were. -/
structure Same (node node' : ScanNode) : Prop where
  rates : node'.spotRate.len = node.spotRate.len
  wpa : node'.wpaIe = node.wpaIe
  wps : node'.wpsIe = node.wpsIe
  rsn : node'.rsnIe = node.rsnIe

/-- An element of another kind. -/
structure Other (e : UInt8) : Prop where
  vendor : e ≠ eidVendorSpecific
  rsn : e ≠ eidRsn

theorem Other.misses (other : Other e) (oui : List UInt8) (rest : List UInt8) :
    vendorHit oui e rest = false ∧ rsnHit e rest = false := by
  simp [vendorHit, rsnHit, other.vendor, other.rsn]

theorem Other.scanned (other : Other e)
    (rates : node'.spotRate.len = node.spotRate.len + ratesOf e len)
    (wpa : node'.wpaIe = node.wpaIe) (wps : node'.wpsIe = node.wpsIe)
    (rsn : node'.rsnIe = node.rsnIe) : Scanned e len rest node node' where
  rates := rates
  wpa := by simp [other.misses, wpa]
  wps := by simp [other.misses, wps]
  rsn := by simp [(other.misses [] rest).2, rsn]

theorem Other.same (other : Other e) (none : ratesOf e len = 0) (same : Same node node') :
    Scanned e len rest node node' :=
  other.scanned (by rw [same.rates, none, Nat.add_zero]) same.wpa same.wps same.rsn

theorem setSsid_isSome (small : len.toNat < 33) :
    (setSsid len rest node).isSome ↔ len.toNat ≤ rest.length := by
  unfold setSsid
  refine (@bind_isSome_iff _ _ _ _ _ True fetch_isSome fun data fetched => ?_).trans ?_
  · have length := congrArg List.length (fetch_eq_some.mp fetched).2
    have inside := (fetch_eq_some.mp fetched).1
    simp only [List.drop_zero, List.length_take] at length
    refine (bind_isSome_iff store_isSome fun _ _ => bind_some_isSome.trans store_isSome).trans ?_
    simp only [List.length_singleton, iff_true]
    exact ⟨by omega, by omega⟩
  · rw [and_true, Nat.zero_add]

theorem setSsid_same (done : setSsid len rest node = some (code, node')) :
    code = 0 ∧ Same node node' := by
  simp only [setSsid, Option.bind_eq_bind, Option.bind_eq_some_iff] at done
  obtain ⟨data, -, first, -, second, -, done⟩ := done
  cases done
  exact ⟨rfl, rfl, rfl, rfl, rfl⟩

theorem scanSsid_turn :
    Turn (33 ≤ len.toNat ∨ probeResp = true ∧ len = 0)
      (len.toNat ≤ rest.length ∨ probeResp = false ∧ rest.head? = some 0) eidSsid len rest node
      (scanSsid probeResp len rest node) := by
  have other : Other eidSsid := ⟨by decide, by decide⟩
  have small : 33 ≤ len ↔ 33 ≤ len.toNat := UInt8.le_iff_toNat_le
  unfold scanSsid
  split_ifs with long probe empty empty
  · rw [small] at long
    exact ⟨fun _ => ⟨-3, node, rfl, by decide⟩, fun no => absurd (.inl long) no,
      fun no => absurd (.inl long) no⟩
  · exact ⟨fun _ => ⟨-4, node, rfl, by decide⟩, fun no => absurd (.inr ⟨probe, empty⟩) no,
      fun no => absurd (.inr ⟨probe, empty⟩) no⟩
  · rw [small] at long
    refine ⟨fun refused => absurd refused (by simp [long, empty]), fun _ => ?_,
      fun _ code node' done => ?_⟩
    · simp [setSsid_isSome (Nat.not_le.mp long), probe]
    · exact (setSsid_same done).imp id (other.same rfl)
  · rw [small] at long
    refine ⟨fun refused => absurd refused (by simp [long, probe]), fun _ => ?_,
      fun _ code node' done => ?_⟩
    · simp [empty]
    · cases done
      exact ⟨rfl, other.same rfl ⟨rfl, rfl, rfl, rfl⟩⟩
  · rw [small] at long
    refine ⟨fun refused => absurd refused (by simp [long, probe]), fun _ => ?_,
      fun _ code node' done => ?_⟩
    · have some_ : 0 < len.toNat := by
        rw [Nat.pos_iff_ne_zero, Ne, ← UInt8.toNat_zero, UInt8.toNat_inj]
        exact empty
      cases rest with
      | nil =>
          simp [fetch]
          omega
      | cons first rest =>
          by_cases hidden : first = 0
          · simp [fetch, hidden, probe]
          · simp [fetch, hidden, setSsid_isSome (Nat.not_le.mp long)]
    · simp only [Option.bind_eq_bind, Option.bind_eq_some_iff] at done
      obtain ⟨first, -, done⟩ := done
      split_ifs at done
      · cases done
        exact ⟨rfl, other.same rfl ⟨rfl, rfl, rfl, rfl⟩⟩
      · exact (setSsid_same done).imp id (other.same rfl)

theorem scanRates_turn (kind : e = eidSuppRates ∨ e = eidExtSuppRates) :
    Turn (len = 0 ∨ 16 < len.toNat + node.spotRate.len) (len.toNat ≤ rest.length) e len rest node
      (scanRates len rest node) := by
  have other : Other e := by
    obtain rfl | rfl := kind <;> exact ⟨by decide, by decide⟩
  have count : (clearRates node.spotRate).len = node.spotRate.len := by
    unfold clearRates
    split_ifs with none
    · exact none.symm
    · rfl
  unfold scanRates
  simp only [count]
  split_ifs with refused
  · exact ⟨fun _ => ⟨-4, _, rfl, by decide⟩, fun no => absurd refused no,
      fun no => absurd refused no⟩
  · refine ⟨fun also => absurd also refused, fun _ => ?_, fun _ code node' done => ?_⟩
    · refine (@bind_isSome_iff _ _ _ _ _ True fetch_isSome fun data fetched => ?_).trans ?_
      · have length := congrArg List.length (fetch_eq_some.mp fetched).2
        have inside := (fetch_eq_some.mp fetched).1
        simp only [List.drop_zero, List.length_take] at length
        rw [bind_some_isSome, Counted.append_isSome, count, iff_true]
        omega
      · rw [and_true, Nat.zero_add]
    · simp only [Option.bind_eq_bind, Option.bind_eq_some_iff] at done
      obtain ⟨data, fetched, rates, appended, done⟩ := done
      cases done
      have inside := (fetch_eq_some.mp fetched).1
      have length := congrArg List.length (fetch_eq_some.mp fetched).2
      simp only [List.drop_zero, List.length_take] at length
      refine ⟨rfl, other.scanned ?_ rfl rfl rfl⟩
      rw [Counted.append_len appended, count, ratesOf, if_pos kind]
      omega

theorem scanChannel_turn (kind : e = eidDsParams ∨ e = eidHtOperation) :
    Turn False (1 ≤ rest.length) e len rest node (scanChannel rest node) := by
  have other : Other e := by
    obtain rfl | rfl := kind <;> exact ⟨by decide, by decide⟩
  have none : ratesOf e len = 0 := by
    obtain rfl | rfl := kind <;> rfl
  refine ⟨False.elim, fun _ => bind_some_isSome.trans (by simp), fun _ code node' done => ?_⟩
  simp only [scanChannel, Option.bind_eq_bind, Option.bind_eq_some_iff] at done
  obtain ⟨data, -, done⟩ := done
  cases done
  exact ⟨rfl, other.same none ⟨rfl, rfl, rfl, rfl⟩⟩

theorem scanHtCapability_turn :
    Turn False (5 ≤ rest.length) eidHtCapability len rest node (scanHtCapability rest node) := by
  have other : Other eidHtCapability := ⟨by decide, by decide⟩
  refine ⟨False.elim, fun _ => ?_, fun _ code node' done => ?_⟩
  · refine (bind_isSome_iff fetch_isSome fun _ _ => bind_some_isSome.trans fetch_isSome).trans ?_
    omega
  · simp only [scanHtCapability, Option.bind_eq_bind, Option.bind_eq_some_iff] at done
    obtain ⟨mcs, -, capInfo, -, done⟩ := done
    cases done
    exact ⟨rfl, other.same rfl ⟨rfl, rfl, rfl, rfl⟩⟩

theorem vendorHit_own {oui : List UInt8} (same : rest.take 4 = oui) :
    vendorHit oui eidVendorSpecific rest = true := by
  simp [vendorHit, same]

theorem vendorHit_other {oui : List UInt8} (different : rest.take 4 ≠ oui) :
    vendorHit oui eidVendorSpecific rest = false := by
  simp [vendorHit, different]

theorem scanVendor_turn :
    Turn False
      (4 ≤ rest.length ∧ (rest.take 4 = wpaOui ∨ rest.take 4 = wpsOui → KeptFits len rest))
      eidVendorSpecific len rest node (scanVendor eidVendorSpecific len rest node) := by
  refine ⟨False.elim, fun _ => ?_, fun _ code node' done => ?_⟩
  · unfold scanVendor
    refine (bind_isSome_iff fetch_isSome fun oui fetched => ?_).trans (by rw [Nat.zero_add])
    rw [← (fetch_eq_some.mp fetched).2, List.drop_zero]
    split_ifs with wpa wps
    · rw [bind_some_isSome, keepIe_isSome]
      simp [wpa]
    · rw [bind_some_isSome, keepIe_isSome]
      simp [wps]
    · simp [wpa, wps]
  · simp only [scanVendor, Option.bind_eq_bind, Option.bind_eq_some_iff] at done
    obtain ⟨oui, fetched, done⟩ := done
    have same := (fetch_eq_some.mp fetched).2
    rw [List.drop_zero] at same
    subst same
    have rsn : rsnHit eidVendorSpecific rest = false := rfl
    split_ifs at done with wpa wps
    · obtain ⟨wpaIe, kept, done⟩ := Option.bind_eq_some_iff.mp done
      cases done
      have no : rest.take 4 ≠ wpsOui := by
        rw [wpa]
        decide
      refine ⟨rfl, rfl, ?_, ?_, ?_⟩
      · simpa [vendorHit_own wpa] using keepIe_keptIn kept
      · simp [vendorHit_other no]
      · simp [rsn]
    · obtain ⟨wpsIe, kept, done⟩ := Option.bind_eq_some_iff.mp done
      cases done
      refine ⟨rfl, rfl, ?_, ?_, ?_⟩
      · simp [vendorHit_other wpa]
      · simpa [vendorHit_own wps] using keepIe_keptIn kept
      · simp [rsn]
    · cases done
      refine ⟨rfl, rfl, ?_, ?_, ?_⟩
      · simp [vendorHit_other wpa]
      · simp [vendorHit_other wps]
      · simp [rsn]

theorem scanRsn_turn :
    Turn False (KeptFits len rest) eidRsn len rest node (scanRsn eidRsn len rest node) := by
  refine ⟨False.elim, fun _ => bind_some_isSome.trans keepIe_isSome, fun _ code node' done => ?_⟩
  have miss : ∀ oui, vendorHit oui eidRsn rest = false := by
    intro oui
    rfl
  simp only [scanRsn, Option.bind_eq_bind, Option.bind_eq_some_iff] at done
  obtain ⟨rsnIe, kept, done⟩ := done
  cases done
  exact ⟨rfl, rfl, by simp [miss], by simp [miss], keepIe_keptIn kept⟩

theorem scanElement_turn (probeResp : Bool) (e len : UInt8) (rest : List UInt8)
    (node : ScanNode) :
    Turn (Refused probeResp node.spotRate.len e len) (ElementFits probeResp e len rest) e len
      rest node (scanElement probeResp e len rest node) := by
  unfold scanElement Refused ElementFits
  split_ifs with ssid rates channel ht vendor rsn
  · subst ssid
    exact scanSsid_turn
  · exact scanRates_turn rates
  · exact scanChannel_turn channel
  · subst ht
    exact scanHtCapability_turn
  · subst vendor
    exact scanVendor_turn
  · subst rsn
    exact scanRsn_turn
  · refine ⟨False.elim, fun _ => by simp, fun _ code node' done => ?_⟩
    cases done
    exact ⟨rfl, Other.same ⟨vendor, rsn⟩ (by simp [ratesOf, rates]) ⟨rfl, rfl, rfl, rfl⟩⟩

/-! The loop. -/

theorem scanFits_cons {cnt : Nat} :
    ScanFits probeResp cnt (e :: len :: rest) ↔
      Refused probeResp cnt e len ∨
        ElementFits probeResp e len rest ∧
          (rest.length ≤ len.toNat ∨
            ScanFits probeResp (cnt + ratesOf e len) (rest.drop len.toNat)) := by
  constructor
  · rintro (refuses | ⟨fits, ended⟩ | ⟨fits, further⟩)
    · exact .inl refuses
    · exact .inr ⟨fits, .inl ended⟩
    · exact .inr ⟨fits, .inr further⟩
  · rintro (refuses | ⟨fits, ended | further⟩)
    · exact .refused refuses
    · exact .last fits ended
    · exact .step fits further

theorem not_scanFits_short {cnt : Nat}
    (short : ∀ e len rest, bytes = e :: len :: rest → False) :
    ¬ ScanFits probeResp cnt bytes := by
  rintro (_ | _ | _) <;> exact short _ _ _ rfl

/-- An element that the loop goes on behind. -/
theorem goes_on (turn : scanElement probeResp e len rest node = some (code, node'))
    (zero : ¬ code ≠ 0) :
    ¬ Refused probeResp node.spotRate.len e len ∧ ElementFits probeResp e len rest ∧
      Scanned e len rest node node' := by
  have spec := scanElement_turn probeResp e len rest node
  rw [turn] at spec
  have accepts : ¬ Refused probeResp node.spotRate.len e len := by
    intro refuses
    obtain ⟨code', other, same, bad⟩ := spec.refused refuses
    cases same
    exact zero bad
  exact ⟨accepts, (spec.isSome accepts).mp rfl, (spec.scanned accepts code node' rfl).2⟩

theorem scanElements_isSome (bytes : List UInt8) (node : ScanNode) :
    (scanElements probeResp bytes node).isSome ↔
      ScanFits probeResp node.spotRate.len bytes := by
  induction bytes, node using scanElements.induct probeResp with
  | case1 node e len rest outside =>
      have spec := scanElement_turn probeResp e len rest node
      rw [outside] at spec
      have accepts : ¬ Refused probeResp node.spotRate.len e len := by
        intro refuses
        obtain ⟨code, other, same, -⟩ := spec.refused refuses
        cases same
      have misses := spec.isSome accepts
      rw [scanElements, outside, scanFits_cons]
      simp_all
  | case2 node e len rest code node' turn bad =>
      have spec := scanElement_turn probeResp e len rest node
      rw [turn] at spec
      have refuses : Refused probeResp node.spotRate.len e len := by
        by_contra accepts
        exact bad (spec.scanned accepts code node' rfl).1
      rw [scanElements, turn, scanFits_cons]
      simp [bad, refuses]
  | case3 node e len rest code node' turn zero ended =>
      obtain ⟨accepts, fits, -⟩ := goes_on turn zero
      rw [scanElements, turn, scanFits_cons]
      simp [zero, ended, fits]
  | case4 node e len rest code node' turn zero more ih =>
      obtain ⟨accepts, fits, scanned⟩ := goes_on turn zero
      rw [scanElements, turn, scanFits_cons, ← scanned.rates, ← ih]
      simp [zero, more, fits, accepts]
  | case5 bytes node short =>
      rw [scanElements]
      · simp [not_scanFits_short short]
      · exact short

theorem accepts_of_zero (bytes : List UInt8) (node : ScanNode)
    (done : scanElements probeResp bytes node = some (0, node')) :
    Accepts probeResp node.spotRate.len bytes := by
  induction bytes, node using scanElements.induct probeResp with
  | case1 node e len rest outside => simp [scanElements, outside] at done
  | case2 node e len rest code other turn bad =>
      rw [scanElements, turn] at done
      simp [bad] at done
  | case3 node e len rest code other turn zero ended =>
      exact .last (goes_on turn zero).1 ended
  | case4 node e len rest code other turn zero more ih =>
      obtain ⟨accepts, fits, scanned⟩ := goes_on turn zero
      rw [scanElements, turn] at done
      simp only [zero, if_false, more] at done
      refine .step accepts (Nat.not_le.mp more) ?_
      rw [← scanned.rates]
      exact ih done
  | case5 bytes node short =>
      rw [scanElements] at done
      · cases done
      · exact short

theorem zero_of_accepts (bytes : List UInt8) (node : ScanNode)
    (accepts : Accepts probeResp node.spotRate.len bytes)
    (done : scanElements probeResp bytes node = some (code, node')) : code = 0 := by
  induction bytes, node using scanElements.induct probeResp with
  | case1 node e len rest outside => simp [scanElements, outside] at done
  | case2 node e len rest other last turn bad =>
      have spec := (scanElement_turn probeResp e len rest node).scanned
      have accepted : ¬ Refused probeResp node.spotRate.len e len := by
        cases accepts <;> assumption
      exact absurd (spec accepted other last turn).1 bad
  | case3 node e len rest other last turn zero ended =>
      rw [scanElements, turn] at done
      simp only [zero, if_false, ended, if_true] at done
      cases done
      rfl
  | case4 node e len rest other last turn zero more ih =>
      obtain ⟨-, -, scanned⟩ := goes_on turn zero
      rw [scanElements, turn] at done
      simp only [zero, if_false, more] at done
      refine ih ?_ done
      rw [scanned.rates]
      cases accepts with
      | last _ ended => exact absurd ended more
      | step _ _ further => exact further
  | case5 bytes node short =>
      rw [scanElements] at done
      · cases done
      · exact short

/-! What is kept of well-formed elements. -/

/-- The array after a walk, when `kept` is the last element that it took. -/
def Holds (array array' : Vector UInt8 64) : Option Ie → Prop
  | none => array' = array
  | some ie => array'.toList.take ie.bytes.length = ie.bytes

section Kept

variable {hit : UInt8 → List UInt8 → Bool} {ie : Ie} {ies : List Ie}
  {middle : Vector UInt8 64}

theorem KeptIn.holds (short : ie.data.length < 256)
    (kept : KeptIn (hit ie.elementId (ie.data ++ ieBytes ies)) ie.elementId
      (UInt8.ofNat ie.data.length) (ie.data ++ ieBytes ies) array middle)
    (holds : Holds middle array' (lastKept hit ies)) :
    Holds array array' (lastKept hit (ie :: ies)) := by
  unfold lastKept
  cases last : lastKept hit ies with
  | some other =>
      rw [last] at holds
      exact holds
  | none =>
      rw [last] at holds
      cases holds
      rw [Option.none_or]
      unfold KeptIn at kept
      rw [length_ofNat short] at kept
      split_ifs at kept ⊢ with taken
      · rw [List.take_left] at kept
        exact kept
      · exact kept

/-- The three arrays after a walk over these elements. -/
structure KeptAll (ies : List Ie) (node node' : ScanNode) : Prop where
  wpa : Holds node.wpaIe node'.wpaIe (lastKept (vendorHit wpaOui) ies)
  wps : Holds node.wpsIe node'.wpsIe (lastKept (vendorHit wpsOui) ies)
  rsn : Holds node.rsnIe node'.rsnIe (lastKept rsnHit ies)

theorem KeptAll.cons {first : ScanNode} (short : ie.data.length < 256)
    (scanned : Scanned ie.elementId (UInt8.ofNat ie.data.length) (ie.data ++ ieBytes ies)
      node first)
    (kept : KeptAll ies first node') : KeptAll (ie :: ies) node node' where
  wpa := scanned.wpa.holds short kept.wpa
  wps := scanned.wps.holds short kept.wps
  rsn := scanned.rsn.holds short kept.rsn

theorem scanElements_kept (ies : List Ie) (node : ScanNode)
    (short : ∀ ie ∈ ies, ie.data.length < 256)
    (done : scanElements probeResp (ieBytes ies) node = some (0, node')) :
    KeptAll ies node node' := by
  induction ies generalizing node with
  | nil => simp [ieBytes, scanElements] at done
  | cons ie ies ih =>
      have here := short ie (by simp)
      have bytes : ieBytes (ie :: ies) =
          ie.elementId :: UInt8.ofNat ie.data.length :: (ie.data ++ ieBytes ies) := rfl
      rw [bytes, scanElements] at done
      cases turn : scanElement probeResp ie.elementId (UInt8.ofNat ie.data.length)
          (ie.data ++ ieBytes ies) node with
      | none => simp [turn] at done
      | some result =>
          obtain ⟨code, first⟩ := result
          rw [turn] at done
          by_cases zero : code ≠ 0
          · simp [zero] at done
          · obtain ⟨-, -, scanned⟩ := goes_on turn zero
            simp only [zero, if_false, length_ofNat here, List.drop_left,
              List.length_append] at done
            refine .cons here scanned ?_
            split_ifs at done with ended
            · cases done
              have none : ies = [] := by
                cases ies with
                | nil => rfl
                | cons other ies =>
                    have header : ieBytes (other :: ies) = other.elementId ::
                        UInt8.ofNat other.data.length :: (other.data ++ ieBytes ies) := rfl
                    rw [header, List.length_cons] at ended
                    omega
              subst none
              exact ⟨rfl, rfl, rfl⟩
            · exact ih first (fun other member => short other (by simp [member])) done

theorem lastKept_some (last : lastKept hit ies = some ie) :
    ie ∈ ies ∧ ∃ behind, hit ie.elementId (ie.data ++ behind) = true := by
  induction ies with
  | nil => cases last
  | cons other ies ih =>
      rw [lastKept, Option.or_eq_some_iff] at last
      obtain found | ⟨-, here⟩ := last
      · exact (ih found).imp_left (List.mem_cons_of_mem other)
      · split_ifs at here with taken
        cases here
        exact ⟨List.mem_cons_self, _, taken.1⟩

/-- A byte of an array of which the beginning is known. -/
theorem getElem_of_take {list front : List UInt8} {n i : Nat} (same : list.take n = front)
    (inside : i < front.length) : list[i]? = front[i]? := by
  rw [← same, List.getElem?_take_of_lt]
  rw [← same, List.length_take] at inside
  omega

theorem lengths_eq {other : Ie} (short : ie.data.length < 256)
    (also : other.data.length < 256)
    (first : array.toList.take ie.bytes.length = ie.bytes)
    (second : array.toList.take other.bytes.length = other.bytes) :
    ie.data.length = other.data.length := by
  have here := @getElem_of_take array.toList ie.bytes _ 1 first (by simp [Ie.bytes])
  have there := @getElem_of_take array.toList other.bytes _ 1 second (by simp [Ie.bytes])
  rw [here] at there
  have bytes : UInt8.ofNat ie.data.length = UInt8.ofNat other.data.length := by
    simpa [Ie.bytes] using there
  rw [← length_ofNat short, bytes, length_ofNat also]

theorem not_zero_of_kept (some_ : ie.elementId ≠ 0)
    (kept : array.toList.take ie.bytes.length = ie.bytes) : array ≠ .replicate 64 0 := by
  rintro rfl
  have first := @getElem_of_take _ ie.bytes _ 0 kept (by simp [Ie.bytes])
  simp [Ie.bytes] at first
  exact some_ first.symm

theorem copyOf_vendor_iff {oui : List UInt8} (four : oui.length = 4)
    (short : ∀ ie ∈ ies, ie.data.length < 256)
    (holds : Holds (.replicate 64 0) array (lastKept (vendorHit oui) ies)) :
    CopyOf (vendorHit oui) ies array ↔
      ∀ ie, lastKept (vendorHit oui) ies = some ie → 4 ≤ ie.data.length := by
  cases last : lastKept (vendorHit oui) ies with
  | none =>
      rw [last] at holds
      simp only [CopyOf, show array = .replicate 64 0 from holds]
      simp
  | some ie =>
      rw [last] at holds
      obtain ⟨member, behind, hit⟩ := lastKept_some last
      simp only [vendorHit, Bool.and_eq_true, beq_iff_eq] at hit
      simp only [Option.some.injEq, forall_eq']
      constructor
      · rintro (zero | ⟨other, also, own, copied⟩)
        · refine absurd zero (not_zero_of_kept ?_ holds)
          rw [hit.1]
          decide
        · rw [lengths_eq (short ie member) (short other also) holds copied]
          simp only [vendorHit, Bool.and_eq_true, beq_iff_eq] at own
          have length := congrArg List.length own.2
          rw [List.length_take, four] at length
          omega
      · intro long
        refine .inr ⟨ie, member, ?_, holds⟩
        rw [List.take_append_of_le_length long] at hit
        simp [vendorHit, hit]

theorem copyOf_rsn (holds : Holds (.replicate 64 0) array (lastKept rsnHit ies)) :
    CopyOf rsnHit ies array := by
  cases last : lastKept rsnHit ies with
  | none =>
      rw [last] at holds
      exact .inl holds
  | some ie =>
      rw [last] at holds
      obtain ⟨member, behind, hit⟩ := lastKept_some last
      exact .inr ⟨ie, member, hit, holds⟩

theorem copies_iff (kept : KeptAll ies node node') (short : ∀ ie ∈ ies, ie.data.length < 256)
    (wpa : node.wpaIe = .replicate 64 0) (wps : node.wpsIe = .replicate 64 0)
    (rsn : node.rsnIe = .replicate 64 0) : Copies ies node' ↔ OwnOui ies := by
  have wpaHolds := kept.wpa
  have wpsHolds := kept.wps
  have rsnHolds := kept.rsn
  rw [wpa] at wpaHolds
  rw [wps] at wpsHolds
  rw [rsn] at rsnHolds
  have wpaIff := copyOf_vendor_iff rfl short wpaHolds
  have wpsIff := copyOf_vendor_iff rfl short wpsHolds
  constructor
  · intro copies
    exact ⟨wpaIff.mp copies.wpa, wpsIff.mp copies.wps⟩
  · intro own
    exact ⟨wpaIff.mpr own.wpa, wpsIff.mpr own.wps, copyOf_rsn rsnHolds⟩

end Kept

/-! The frame. -/

section Frame

variable {frame : MgmtFrame} {p2pIsValid : Bool}

theorem ieLen_toNat (fixed : 36 ≤ frame.bytes.length) :
    (UInt16.ofNat frame.bytes.length - UInt16.ofNat beaconOfs).toNat =
      frame.bytes.length - 24 := by
  have short := frame.short
  rw [UInt16.toNat_sub, UInt16.toNat_ofNat', UInt16.toNat_ofNat']
  unfold beaconOfs
  omega

theorem too_long_iff (fixed : 36 ≤ frame.bytes.length) :
    iesSizeMax ≤ UInt16.ofNat frame.bytes.length - UInt16.ofNat beaconOfs ↔
      24 + 768 ≤ frame.bytes.length := by
  rw [UInt16.le_iff_toNat_le, ieLen_toNat fixed]
  change 768 ≤ _ ↔ _
  omega

/-- The node that the loop begins with. -/
def beforeLoop (frame : MgmtFrame) (node : ScanNode) (ies : Vector UInt8 768) : ScanNode :=
  { node with
    ieLen := UInt16.ofNat frame.bytes.length - UInt16.ofNat beaconOfs
    ies := ies }

/-- The saved area always fits, and the loop decides. -/
theorem scanIes_eq (fixed : 36 ≤ frame.bytes.length) (short : frame.bytes.length < 24 + 768)
    (node : ScanNode) :
    ∃ ies, scanIes frame node =
      (scanElements (node.frameType == frmProbeResp) (frame.bytes.drop variableOfs)
        (beforeLoop frame node ies)).map fun result =>
          (result.1, if result.1 ≠ 0 then result.2
            else { result.2 with name := bssName result.2.spotRate.held result.2.htSpot }) := by
  have length := ieLen_toNat fixed
  have room : ¬ iesSizeMax ≤ UInt16.ofNat frame.bytes.length - UInt16.ofNat beaconOfs := by
    rw [too_long_iff fixed]
    omega
  have reads : (fetch frame.bytes beaconOfs (frame.bytes.length - 24)).isSome := by
    rw [fetch_isSome]
    unfold beaconOfs
    omega
  obtain ⟨body, reads⟩ := Option.isSome_iff_exists.mp reads
  have size := congrArg List.length (fetch_eq_some.mp reads).2
  rw [List.length_take, List.length_drop] at size
  have stores : (store node.ies 0 body).isSome := by
    rw [store_isSome]
    omega
  obtain ⟨first, stores⟩ := Option.isSome_iff_exists.mp stores
  have ends : (store first (frame.bytes.length - 24) [0]).isSome := by
    rw [store_isSome, List.length_singleton]
    omega
  obtain ⟨ies, ends⟩ := Option.isSome_iff_exists.mp ends
  refine ⟨ies, ?_⟩
  unfold scanIes
  simp only [room, if_false, length, reads, stores, ends, Option.bind_eq_bind, Option.bind_some,
    beforeLoop]
  cases scanElements (node.frameType == frmProbeResp) (frame.bytes.drop variableOfs) _ <;> rfl

theorem scanIes_long (fixed : 36 ≤ frame.bytes.length) (long : 24 + 768 ≤ frame.bytes.length)
    (node : ScanNode) :
    ∃ node', scanIes frame node = some (-2, node') := by
  unfold scanIes
  rw [if_pos ((too_long_iff fixed).mpr long)]
  exact ⟨_, rfl⟩

/-- The node that is given to the loop: its type is that of the frame, and nothing is kept
yet. -/
structure Fresh (frame : MgmtFrame) (node : ScanNode) : Prop where
  type : (node.frameType == frmProbeResp) = isProbeResp frame
  rates : node.spotRate.len = 0
  wpa : node.wpaIe = .replicate 64 0
  wps : node.wpsIe = .replicate 64 0
  rsn : node.rsnIe = .replicate 64 0

/-- What is needed behind the fixed fields. -/
structure IesFit (frame : MgmtFrame) : Prop where
  elements : frame.bytes.length < 24 + 768 →
    ScanFits (isProbeResp frame) 0 (frame.bytes.drop variableOfs)
  own : frame.bytes.length < 24 + 768 → ∀ ies, WellFormed frame ies →
    Accepts (isProbeResp frame) 0 (frame.bytes.drop variableOfs) → OwnOui ies

def Extracted (frame : MgmtFrame) (result : Option (Int × ScanNode)) : Prop :=
  ∃ code node, result = some (code, node) ∧
    ∀ ies, WellFormed frame ies → code = 0 → Copies ies node

theorem scanIes_iff (fixed : 36 ≤ frame.bytes.length) (fresh : Fresh frame node) :
    Extracted frame (scanIes frame node) ↔ IesFit frame := by
  by_cases long : 24 + 768 ≤ frame.bytes.length
  · obtain ⟨node', ends⟩ := scanIes_long fixed long node
    refine iff_of_true ⟨-2, node', ends, fun _ _ zero => by cases zero⟩ ⟨fun short => ?_,
      fun short => ?_⟩ <;> omega
  · obtain ⟨ies, ends⟩ := scanIes_eq fixed (Nat.not_le.mp long) node
    set begun := beforeLoop frame node ies with hbegun
    have fits := @scanElements_isSome (isProbeResp frame) (frame.bytes.drop variableOfs) begun
    have start : begun.spotRate.len = 0 := fresh.rates
    rw [start] at fits
    rw [fresh.type] at ends
    constructor
    · rintro ⟨code, node', done, copies⟩
      rw [ends, Option.map_eq_some_iff] at done
      obtain ⟨⟨other, last⟩, done, same⟩ := done
      refine ⟨fun _ => fits.mp (by simp [done]), fun _ elements formed accepts => ?_⟩
      rw [← start] at accepts
      obtain rfl := zero_of_accepts _ begun accepts done
      cases same
      have kept := scanElements_kept elements begun formed.short (by rw [← formed.bytes, done])
      have all := copies elements formed rfl
      exact (copies_iff kept formed.short fresh.wpa fresh.wps fresh.rsn).mp
        ⟨all.wpa, all.wps, all.rsn⟩
    · intro fit
      have short := Nat.not_le.mp long
      obtain ⟨⟨code, last⟩, done⟩ := Option.isSome_iff_exists.mp (fits.mpr (fit.elements short))
      refine ⟨code, _, by rw [ends, done]; rfl, ?_⟩
      rintro elements formed rfl
      have accepts := accepts_of_zero _ begun done
      rw [start] at accepts
      have kept := scanElements_kept elements begun formed.short (by rw [← formed.bytes, done])
      have all := (copies_iff kept formed.short fresh.wpa fresh.wps fresh.rsn).mpr
        (fit.own short elements formed accepts)
      exact ⟨all.wpa, all.wps, all.rsn⟩

theorem fetch_inside {ofs n : Nat} (inside : ofs + n ≤ bytes.length) :
    fetch bytes ofs n = some ((bytes.drop ofs).take n) :=
  fetch_eq_some.mpr ⟨inside, rfl⟩

theorem extracts_plain (fixed : 36 ≤ frame.bytes.length)
    (plain : isMeshStaBss (capabOf frame) = false) :
    Extracts p2pIsValid frame ↔ IesFit frame := by
  unfold capabOf at plain
  unfold Extracts wlanMgmtScanNodeInfo
  have control := @fetch_inside frame.bytes 0 2 (by omega)
  have bssid := @fetch_inside frame.bytes 16 6 (by omega)
  have capab := @fetch_inside frame.bytes 34 2 (by omega)
  simp only [control, bssid, capab, Option.bind_eq_bind, Option.bind_some, plain,
    Bool.false_eq_true, false_and, if_false]
  exact scanIes_iff fixed ⟨rfl, rfl, rfl, rfl, rfl⟩

/-- A frame of a mesh is not taken without P2P. -/
theorem extracts_refused (fixed : 36 ≤ frame.bytes.length)
    (mesh : isMeshStaBss (capabOf frame) = true) : Extracts false frame := by
  unfold capabOf at mesh
  unfold Extracts wlanMgmtScanNodeInfo
  have control := @fetch_inside frame.bytes 0 2 (by omega)
  have bssid := @fetch_inside frame.bytes 16 6 (by omega)
  have capab := @fetch_inside frame.bytes 34 2 (by omega)
  simp only [control, bssid, capab, Option.bind_eq_bind, Option.bind_some, mesh,
    Bool.false_eq_true, not_false_eq_true, and_self, if_true]
  exact ⟨-1, _, rfl, fun _ _ zero => by cases zero⟩

theorem extracts_mesh (fixed : 36 ≤ frame.bytes.length)
    (mesh : isMeshStaBss (capabOf frame) = true) :
    Extracts true frame ↔ 45 ≤ frame.bytes.length ∧ IesFit frame := by
  unfold capabOf at mesh
  unfold Extracts wlanMgmtScanNodeInfo
  have control := @fetch_inside frame.bytes 0 2 (by omega)
  have bssid := @fetch_inside frame.bytes 16 6 (by omega)
  have capab := @fetch_inside frame.bytes 34 2 (by omega)
  simp only [control, bssid, capab, Option.bind_eq_bind, Option.bind_some, mesh,
    not_true_eq_false, and_false, if_false, if_true]
  by_cases wildcard : 45 ≤ frame.bytes.length
  · rw [fetch_inside wildcard]
    simp only [Option.bind_some, wildcard, true_and]
    exact scanIes_iff fixed ⟨rfl, rfl, rfl, rfl, rfl⟩
  · have outside : fetch frame.bytes 38 7 = none := if_neg (by omega)
    simp [outside, wildcard]

theorem frameFits_iff (fixed : 36 ≤ frame.bytes.length) :
    FrameFits p2pIsValid frame ↔
      (isMeshStaBss (capabOf frame) = true → p2pIsValid = true → 45 ≤ frame.bytes.length) ∧
      ((isMeshStaBss (capabOf frame) = true → p2pIsValid = true) → IesFit frame) := by
  constructor
  · intro fits
    exact ⟨fits.wildcard, fun taken => ⟨fits.elements taken, fits.own taken⟩⟩
  · rintro ⟨wildcard, ies⟩
    exact ⟨fixed, wildcard, fun taken => (ies taken).elements, fun taken => (ies taken).own⟩

/-- The function keeps inside, and what it keeps is exact, exactly when the frame fits. -/
theorem scan_node_info_iff (p2pIsValid : Bool) (frame : MgmtFrame) :
    Extracts p2pIsValid frame ↔ FrameFits p2pIsValid frame := by
  by_cases fixed : 36 ≤ frame.bytes.length
  · rw [frameFits_iff fixed]
    cases mesh : isMeshStaBss (capabOf frame) with
    | false => simp [extracts_plain fixed mesh]
    | true =>
        cases p2pIsValid with
        | false => simp [extracts_refused fixed mesh]
        | true => simp [extracts_mesh fixed mesh]
  · refine iff_of_false ?_ fun fits => fixed fits.fixed
    rintro ⟨code, node, done, -⟩
    simp only [wlanMgmtScanNodeInfo, Option.bind_eq_bind, Option.bind_eq_some_iff] at done
    obtain ⟨control, -, bssid, -, capab, fetched, -⟩ := done
    have inside := (fetch_eq_some.mp fetched).1
    omega

/-- A beacon with an RSN element of 64 bytes behind its header. -/
def longRsn : MgmtFrame where
  bytes := [0x80, 0] ++ .replicate 32 0 ++ [1, 0] ++ [48, 64] ++ .replicate 64 0
  short := by decide

theorem long_rsn_overflow : ¬ Extracts false longRsn := by
  rw [extracts_plain (by decide) (by decide)]
  intro fit
  have fits := fit.elements (by decide)
  have bytes : longRsn.bytes.drop variableOfs = 48 :: 64 :: List.replicate 64 0 := by decide
  rw [bytes, scanFits_cons] at fits
  revert fits
  simp [Refused, ElementFits, KeptFits, eidSsid, eidSuppRates, eidExtSuppRates, eidDsParams,
    eidHtOperation, eidHtCapability, eidVendorSpecific, eidRsn]

end Frame

end Proofs

end NodeInfo

end Smartchip.Scan
