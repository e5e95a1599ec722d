import Smartchip.Ap.Beacon
import Smartchip.Ap.Survey
import Smartchip.Foundation.Checked
import Smartchip.Frame.SecIe

/-!
# The accesses of a beacon configuration

`wf_ap_set_beacon` of `nic/ap.c` up to the end of its loop over the elements, for any buffer and
any length, with `wf_ap_reset_beacon_channel` and the parsers that it calls.  An access outside of
the buffer or of a field has no value.  What it does behind the loop is in fields of a fixed size
and leaves the template alone.
-/

namespace Smartchip.Ap

open Smartchip.Foundation Smartchip.Frame

namespace SetBeacon

/-- `WF_80211_IES_SIZE_MAX`. -/
def iesSizeMax : Nat := 768

def p2pOui : List UInt8 := [0x50, 0x6f, 0x9a, 9]

/-! ## The records -/

/-- `psec_info`. -/
structure SecInfo where
  rsn : Ciphers
  wpa : Ciphers
  dot11AuthAlgrthm : UInt32
  wpaPsk : UInt32

/-- `p2p_group_ssid` and `p2p_ie[WF_P2P_IE_BEACON]`, a buffer of `P2P_IE_BUF_LEN` bytes. -/
structure P2pInfo where
  groupSsid : Vector UInt8 32
  groupSsidLen : UInt8
  beaconIe : Vector UInt8 1024
  beaconIeLen : Nat

/-- `pcur_network`, with the two records that are written too. -/
structure Network where
  macAddr : MacAddr
  bssid : MacAddr
  bcnInterval : UInt16
  capInfo : UInt16
  ssid : Vector UInt8 33
  ssidLen : Nat
  channel : UInt8
  rate : Counted UInt8 16
  pwmm : Vector UInt8 26
  phtCap : Vector UInt8 26
  phtOper : Vector UInt8 22
  htEnable : Bool
  ies : Vector UInt8 iesSizeMax
  iesLength : Nat
  sec : SecInfo
  p2p : P2pInfo

/-- What is sent in the beacons. -/
def Network.template (net : Network) : List UInt8 := net.ies.toList.take net.iesLength

/-- `datarate` is that of the hardware information. -/
structure Side where
  localAddr : MacAddr
  datarate : List UInt8
  p2pValid : Bool
  buddy : Option BuddyNic

/-- The buffer of the caller, with the places of it that have been written, and the records. -/
structure State where
  buf : Mem
  written : List Nat
  net : Network

/-! ## The channel of the template -/

/-- The loop of `wf_ap_reset_beacon_channel`. -/
def resetLoop (channel : UInt8) (ies : Vector UInt8 iesSizeMax) (iesLength : Nat) :
    Nat → UInt16 → Option (Vector UInt8 iesSizeMax)
  | 0, _ => none
  | fuel + 1, ofs =>
      if ofs.toNat < iesLength then do
        let elementId ← ies[ofs.toNat]?
        if elementId = eidDs then store ies (ofs.toNat + 2) [channel]
        else do
          let len ← ies[ofs.toNat + 1]?
          resetLoop channel ies iesLength fuel (ofs + (2 + len.toUInt16))
      else some ies

def wfApResetBeaconChannel (channel : UInt8) (ies : Vector UInt8 iesSizeMax)
    (iesLength : Nat) : Option (Vector UInt8 iesSizeMax) :=
  resetLoop channel ies iesLength (iesLength + 1) 0

/-! ## The elements -/

section Element

variable (side : Side) (len : Nat) (s : State) (pie : Nat)

/-- The element at `pie` is looked at from an offset on. -/
def look (ofs n : Nat) : Option Unit := inside len (pie + ofs) n

/-- A part of the element goes to the front of a field. -/
def copy {size : Nat} (field : Vector UInt8 size) (ofs n : Nat) :
    Option (Vector UInt8 size) := do
  look len pie ofs n
  store field 0 (s.buf.read (pie + ofs) n)

/-- The SSID is that of the group too. -/
def keepGroupSsid (p2p : P2pInfo) (ssid : Vector UInt8 33) (n : Nat) : Option P2pInfo :=
  if side.p2pValid then
    (store p2p.groupSsid 0 (ssid.toList.take n)).map fun groupSsid =>
      { p2p with groupSsid, groupSsidLen := UInt8.ofNat n }
  else some p2p

def ssidElement : Option State :=
  if 33 ≤ ieSize s.buf pie then some s
  else do
    let ssid ← copy len s pie s.net.ssid 2 (ieSize s.buf pie)
    let ssid ← store ssid (ieSize s.buf pie) [0]
    let p2p ← keepGroupSsid side s.net.p2p ssid (ieSize s.buf pie)
    some { s with net := { s.net with ssid, ssidLen := ieSize s.buf pie, p2p } }

/-- The channel that the element names. -/
def ownChannel : Option State := do
  look len pie 2 1
  some { s with net := { s.net with channel := s.buf (pie + 2) } }

def dsElement : Option State :=
  match side.buddy with
  | none => ownChannel len s pie
  | some buddy =>
      if buddy.connect = true ∧ buddy.workMode = .infra then
        match buddy.wdn with
        | none => some s
        | some channel => do
            let ies ← wfApResetBeaconChannel channel s.net.ies s.net.iesLength
            some { s with net := { s.net with channel, ies } }
      else ownChannel len s pie

def keepRate (datarate : List UInt8) (rate : Counted UInt8 16) (byte : UInt8) :
    Option (Counted UInt8 16) :=
  if knownRate datarate byte then rate.push byte else some rate

theorem noRates_le : 0 ≤ 16 := Nat.zero_le _

/-- The first rate goes into an array that is cleared. -/
def startRates (rate : Counted UInt8 16) : Counted UInt8 16 :=
  if rate.len = 0 then ⟨Vector.replicate 16 0, 0, noRates_le⟩ else rate

/-- The rates are not looked at when the hardware has none. -/
def ratesElement : Option State :=
  if 16 - s.net.rate.len ≤ ieSize s.buf pie then some s
  else do
    onlyIf (side.datarate.takeWhile (· ≠ 0) ≠ []) (look len pie 2 (ieSize s.buf pie))
    let rate ← (s.buf.read (pie + 2) (ieSize s.buf pie)).foldlM (keepRate side.datarate)
      (startRates s.net.rate)
    some { s with net := { s.net with rate } }

/-- `wf_80211_mgmt_wmm_parse`; a version that is not known is printed. -/
def wf80211MgmtWmmParseAt : Option Int :=
  if s.buf pie ≠ eidVendorSpecific then some (-2)
  else do
    look len pie 2 3
    if s.buf.read (pie + 2) 3 ≠ wmmOui.take 3 then some (-3)
    else do
      look len pie 5 1
      if s.buf.read (pie + 2) 4 ≠ wmmOui.take 4 then some (-3)
      else do
        look len pie 6 2
        if s.buf.read (pie + 2) 6 ≠ wmmOui then some (-4) else some 0

def wmmElement : Option State := do
  let pwmm ← copy len s pie s.net.pwmm 0 26
  some {
    buf := adjustWmm pie s.buf
    written := s.written ++ wmmPlaces pie
    net := { s.net with pwmm } }

/-- `wf_p2p_ie_valid`; the OUI and the type are printed. -/
def wfP2pIeValid : Option Int :=
  if s.buf pie ≠ eidVendorSpecific then some (-2)
  else do
    look len pie 2 4
    if s.buf.read (pie + 2) 4 ≠ p2pOui then some (-3) else some 0

/-- The element goes into a buffer that is cleared. -/
def keepP2pIe : Option State := do
  let beaconIe ← copy len s pie (Vector.replicate 1024 0) 0 (2 + ieSize s.buf pie)
  some { s with
    net := { s.net with
      p2p := { s.net.p2p with beaconIe, beaconIeLen := 2 + ieSize s.buf pie } } }

/-- `wf_p2p_parse_p2pie` for the element of a beacon. -/
def wfP2pParseP2pie : Option State := do
  let ret ← wfP2pIeValid len s pie
  if ret ≠ 0 then some s else keepP2pIe len s pie

/-- What is behind the parser for WPA. -/
def otherVendor : Option State := do
  let ret ← wf80211MgmtWmmParseAt len s pie
  if ret = 0 then wmmElement len s pie
  else if side.p2pValid then wfP2pParseP2pie len s pie
  else some s

def setSec (sec : SecInfo) : State := { s with net := { s.net with sec } }

/-- `dot11AuthAlgrthm_8021X`, with the bit for the kind of element. -/
def SecInfo.found (sec : SecInfo) (bit : UInt32) : SecInfo :=
  { sec with dot11AuthAlgrthm := 2, wpaPsk := sec.wpaPsk ||| bit }

/-- The bytes that a parser reads, at a length that is always that of the element. -/
def parseReads (r : Parsed) : Option Unit := forM r.reads fun o => look len pie o 1

def vendorElement : Option State := do
  let r := wf80211MgmtWpaParseAt (fromIe s.buf pie) (UInt16.ofNat (2 + ieSize s.buf pie))
  parseReads len pie r
  let sec := { s.net.sec with wpa := (r.onto s.net.sec.wpa).2 }
  if r.ret = 0 then some (setSec s (sec.found 1))
  else otherVendor side len (setSec s sec) pie

/-- An element that is not taken for one of RSN goes on as one of a vendor. -/
def rsnElement : Option State := do
  let r := wf80211MgmtRsnParseAt (fromIe s.buf pie) (UInt16.ofNat (2 + ieSize s.buf pie))
  parseReads len pie r
  let sec := { s.net.sec with rsn := (r.onto s.net.sec.rsn).2 }
  if r.ret = 0 then some (setSec s (sec.found 2))
  else vendorElement side len (setSec s sec) pie

def htCapElement : Option State := do
  let phtCap ← copy len s pie s.net.phtCap 2 (ieSize s.buf pie)
  some { s with net := { s.net with phtCap, htEnable := true } }

def htOperElement : Option State := do
  let phtOper ← copy len s pie s.net.phtOper 2 (ieSize s.buf pie)
  some { s with net := { s.net with phtOper } }

/-- One round; the step to the next element looks at the length whatever the element is. -/
def element : Option State := do
  look len pie 0 2
  if s.buf pie = eidSsid then ssidElement side len s pie
  else if s.buf pie = eidDs then dsElement side len s pie
  else if s.buf pie = eidSuppRates ∨ s.buf pie = eidExtSuppRates then
    ratesElement side len s pie
  else if s.buf pie = eidRsn then rsnElement side len s pie
  else if s.buf pie = eidVendorSpecific then vendorElement side len s pie
  else if s.buf pie = eidHtCapability then htCapElement len s pie
  else if s.buf pie = eidHtOperation then htOperElement len s pie
  else some s

end Element

/-! ## The function -/

section Function

variable (side : Side)

def elementsLoop (len : Nat) (varLen : UInt16) : Nat → UInt16 → State → Option State
  | 0, _, _ => none
  | fuel + 1, ofs, s =>
      if ofs < varLen then do
        let s ← element side len s (fixedFields + ofs.toNat)
        elementsLoop len varLen fuel
          (ofs + (2 + (s.buf (fixedFields + ofs.toNat + 1)).toUInt16)) s
      else some s

/-- The records before the loop, with the template that has been copied. -/
def Network.initial (net : Network) (buf : Mem) (ies : Vector UInt8 iesSizeMax)
    (varLen : UInt16) : Network :=
  { net with
    macAddr := side.localAddr
    bssid := side.localAddr
    bcnInterval := buf.readLe16 8
    capInfo := buf.readLe16 10
    ssidLen := 0
    channel := 0
    rate := net.rate.clear
    pwmm := Vector.replicate 26 0
    phtCap := Vector.replicate 26 0
    phtOper := Vector.replicate 22 0
    htEnable := false
    ies
    iesLength := varLen.toNat }

/-- `var_len`, which has 16 bits. -/
def varLenOf (len : UInt32) : UInt16 := (len - UInt32.ofNat fixedFields).toUInt16

def wfApSetBeacon (buf : Mem) (len : UInt32) (net : Network) : Option (Int × State) :=
  if len.toNat ≤ fixedFields then some (-1, ⟨buf, [], net⟩)
  else do
    inside len.toNat 8 4
    inside len.toNat fixedFields (varLenOf len).toNat
    let ies ← store net.ies 0 (buf.read fixedFields (varLenOf len).toNat)
    let s ← elementsLoop side len.toNat (varLenOf len) ((varLenOf len).toNat + 1) 0
      ⟨buf, [], net.initial side buf ies (varLenOf len)⟩
    some (0, s)

end Function

end SetBeacon

end Smartchip.Ap
