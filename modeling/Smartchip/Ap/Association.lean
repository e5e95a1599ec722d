import Smartchip.Ap.Auth

/-!
# Association at an access point

`wf_assoc_ap_thrd` of `nic/assoc.c` with the two parsers of `nic/wf_80211.c` that read the
cipher suites.  The thread has no wait: it looks at the message at the head of the queue,
walks over the elements of the request, and leaves at the first one that it refuses.
-/

namespace Smartchip.Ap

open Smartchip.Foundation Smartchip.Frame

/-- `wf_80211_mgmt_ie_t`. -/
structure MgmtIe where
  elementId : UInt8
  data : List UInt8
  deriving DecidableEq

def readIe (mem : Mem) (pie : Nat) : MgmtIe :=
  ⟨mem pie, mem.read (pie + 2) (mem (pie + 1)).toNat⟩

def eidSsid : UInt8 := 0

def eidSuppRates : UInt8 := 1

def eidHtCapability : UInt8 := 45

def eidRsn : UInt8 := 48

def eidExtSuppRates : UInt8 := 50

def eidHtOperation : UInt8 := 61

def eidVendorSpecific : UInt8 := 221

def statusUnspecifiedFailure : UInt16 := 1

def statusAssocDeniedRates : UInt16 := 18

def statusInvalidIe : UInt16 := 40

def statusInvalidGroupCipher : UInt16 := 41

def statusInvalidPairwiseCipher : UInt16 := 42

/-! ## Cipher suites -/

/-- The group cipher and the set of pairwise ciphers of an element. -/
structure Ciphers where
  group : UInt32
  pairwise : UInt32

def be32 (b0 b1 b2 b3 : UInt8) : UInt32 :=
  b0.toUInt32 <<< 24 ||| b1.toUInt32 <<< 16 ||| b2.toUInt32 <<< 8 ||| b3.toUInt32

def cipherSuiteNone : UInt32 := 1

def cipherSuiteWep40 : UInt32 := 2

def cipherSuiteWep104 : UInt32 := 4

def cipherSuiteTkip : UInt32 := 8

def cipherSuiteCcmp : UInt32 := 16

def rsneCipherSuiteParse (suite : UInt32) : UInt32 :=
  if suite = 0x000FAC00 then cipherSuiteNone
  else if suite = 0x000FAC01 then cipherSuiteWep40
  else if suite = 0x000FAC05 then cipherSuiteWep104
  else if suite = 0x000FAC02 then cipherSuiteTkip
  else if suite = 0x000FAC04 then cipherSuiteCcmp
  else 0

def ouiMicrosoft : UInt32 := 0x0050f2

def getWpaCipherSuite (suite : UInt32) : UInt32 :=
  if suite >>> 8 ≠ ouiMicrosoft then 0
  else
    match suite.toUInt8 with
    | 0 => cipherSuiteNone
    | 1 => cipherSuiteWep40
    | 2 => cipherSuiteTkip
    | 4 => cipherSuiteCcmp
    | 5 => cipherSuiteWep104
    | _ => 0

/-- The suites of a list, of which there are enough bytes. -/
def pairwiseSuites (suite : UInt32 → UInt32) : Nat → List UInt8 → UInt32
  | cnt + 1, b0 :: b1 :: b2 :: b3 :: rest =>
      suite (be32 b0 b1 b2 b3) ||| pairwiseSuites suite cnt rest
  | _, _ => 0

/-- What the two parsers do behind the version.  What is not in the element keeps the value
that it had. -/
def parseSuites (suite : UInt32 → UInt32) (c : Ciphers) : List UInt8 → Int × Ciphers
  | [] => (0, c)
  | b0 :: b1 :: b2 :: b3 :: rest =>
      let c := { c with group := suite (be32 b0 b1 b2 b3) }
      match rest with
      | [] => (0, c)
      | [_] => (-6, c)
      | low :: high :: list =>
          let cnt := (ofLe16 low high).toNat
          if cnt = 0 ∨ list.length < cnt * 4 then (-7, c)
          else (0, { c with pairwise := pairwiseSuites suite cnt list })
  | _ => (-5, c)

/-- The callers here give the length of the element itself. -/
def wf80211MgmtRsnParse (ie : MgmtIe) (len : UInt16) (c : Ciphers) : Int × Ciphers :=
  if len = 0 then (-1, c)
  else if ¬ (ie.elementId = eidRsn ∧ 2 + ie.data.length ≤ len.toNat) then (-2, c)
  else
    match ie.data with
    | low :: high :: rest =>
        if ofLe16 low high ≠ 1 then (-4, c) else parseSuites rsneCipherSuiteParse c rest
    | _ => (-3, c)

def wf80211MgmtWpaParse (ie : MgmtIe) (len : UInt16) (c : Ciphers) : Int × Ciphers :=
  if len = 0 then (-1, c)
  else if ¬ (ie.elementId = eidVendorSpecific ∧ 2 + ie.data.length ≤ len.toNat) then (-2, c)
  else
    match ie.data with
    | b0 :: b1 :: b2 :: b3 :: rest =>
        if be32 b0 b1 b2 b3 ≠ ouiMicrosoft <<< 8 ||| 1 then (-4, c)
        else
          match rest with
          | low :: high :: rest =>
              if ofLe16 low high ≠ 1 then (-4, c) else parseSuites getWpaCipherSuite c rest
          | _ => (-3, c)
    | _ => (-3, c)

/-- The bytes behind the length are read whatever the length is. -/
def wf80211MgmtWmmParse (ie : MgmtIe) (len : UInt16) (behind : List UInt8) : Int :=
  if len = 0 then -1
  else if ¬ (ie.elementId = eidVendorSpecific ∧ 2 + ie.data.length ≤ len.toNat) then -2
  else if behind.take 4 ≠ [0x00, 0x50, 0xf2, 2] then -3
  else if (behind.drop 4).take 2 ≠ [0, 1] then -4
  else 0

/-! ## The elements of a request -/

structure ApNetwork where
  ssid : List UInt8
  rate : List UInt8
  htEnable : Bool

structure AssocSec where
  rsnGroupCipher : UInt32
  rsnPairwiseCipher : UInt32
  wpaMulticastCipher : UInt32
  wpaUnicastCipher : UInt32

/-- What the thread writes in the WDN. -/
structure AssocInfo where
  ssidLen : Nat
  datarateLen : Nat
  extDatarateLen : Nat
  rsnPairwiseCipher : UInt32
  wpaUnicastCipher : UInt32
  rsnEnable : Bool
  wpaEnable : Bool
  wmmEnable : Bool
  htEnable : Bool
  wpaIe : List UInt8

/-- The local variables for ciphers are not initialised; they live as long as the loop. -/
structure AssocLoop where
  info : AssocInfo
  rsn : Ciphers
  wpa : Ciphers

/-- One of the rates of the network, which end at the first 0. -/
def knownRate (rate : List UInt8) (byte : UInt8) : Bool :=
  (rate.takeWhile (· ≠ 0)).any fun known => known &&& 0x7f = byte &&& 0x7f

def addRate (limit : Nat) (rate : List UInt8) (len : Nat) (byte : UInt8) :
    Except UInt16 Nat :=
  if knownRate rate byte then
    if len < limit then .ok (len + 1) else .error statusAssocDeniedRates
  else .ok len

/-- The two elements with rates: `len` counts those of earlier ones too. -/
def ratesElement (limit : Nat) (tooLong : UInt16) (rate data : List UInt8) (len : Nat) :
    Except UInt16 Nat :=
  if limit < data.length then .error tooLong
  else
    match data.foldlM (addRate limit rate) len with
    | .error status => .error status
    | .ok len => if len = 0 then .error statusAssocDeniedRates else .ok len

def suppRates (rate data : List UInt8) (len : Nat) : Except UInt16 Nat :=
  ratesElement 8 statusInvalidIe rate data len

def extSuppRates (rate data : List UInt8) (len : Nat) : Except UInt16 Nat :=
  ratesElement 4 statusAssocDeniedRates rate data len

/-- `wpa_ie_len` has eight bits. -/
def wpaIeLen (ie : MgmtIe) : UInt16 := (UInt8.ofNat (2 + ie.data.length)).toUInt16

/-- The element as it is kept, in an array of 32 bytes. -/
def keptIe (ie : MgmtIe) : List UInt8 :=
  (ie.elementId :: UInt8.ofNat ie.data.length :: ie.data).take
    (min 32 (wpaIeLen ie).toNat)

/-- The group cipher and one of the pairwise ciphers have to be those of the network. -/
def checkCiphers (c : Ciphers) (group pairwise : UInt32) : Except UInt16 UInt32 :=
  if c.group ≠ group then .error statusInvalidGroupCipher
  else if c.pairwise &&& pairwise = 0 then .error statusInvalidPairwiseCipher
  else .ok (c.pairwise &&& pairwise)

def rsnElement (sec : AssocSec) (ie : MgmtIe) (s : AssocLoop) : Except UInt16 AssocLoop :=
  match wf80211MgmtRsnParse ie (wpaIeLen ie) s.rsn with
  | (0, rsn) =>
      match checkCiphers rsn sec.rsnGroupCipher sec.rsnPairwiseCipher with
      | .error status => .error status
      | .ok pairwise => .ok {
          s with
          rsn := rsn
          info := {
            s.info with rsnPairwiseCipher := pairwise, wpaIe := keptIe ie, rsnEnable := true } }
  | _ => .error statusInvalidIe

/-- An element of another vendor, or one that is cut short behind its version, is passed
over. -/
def wpaElement (sec : AssocSec) (ie : MgmtIe) (s : AssocLoop) : Except UInt16 AssocLoop :=
  match wf80211MgmtWpaParse ie (wpaIeLen ie) s.wpa with
  | (0, wpa) =>
      match checkCiphers wpa sec.wpaMulticastCipher sec.wpaUnicastCipher with
      | .error status => .error status
      | .ok unicast => .ok {
          s with
          wpa := wpa
          info := {
            s.info with wpaUnicastCipher := unicast, wpaIe := keptIe ie, wpaEnable := true } }
  | (ret, wpa) =>
      if ret < 0 ∧ -3 ≤ ret then .error statusInvalidIe else .ok { s with wpa := wpa }

def wmmElement (ie : MgmtIe) (behind : List UInt8) (s : AssocLoop) :
    Except UInt16 AssocLoop :=
  let ret := wf80211MgmtWmmParse ie (UInt16.ofNat (2 + ie.data.length)) behind
  if ret < 0 ∧ -2 ≤ ret then .error statusInvalidIe
  else if ret = 0 then .ok { s with info := { s.info with wmmEnable := true } }
  else .ok s

def vendorElement (sec : AssocSec) (ie : MgmtIe) (behind : List UInt8) (s : AssocLoop) :
    Except UInt16 AssocLoop :=
  match wpaElement sec ie s with
  | .error status => .error status
  | .ok s => wmmElement ie behind s

def setInfo (s : AssocLoop) (info : AssocInfo) : AssocLoop := { s with info := info }

/-- The body of the loop; `behind` is the memory behind the length of the element. -/
def assocElement (net : ApNetwork) (sec : AssocSec) (ie : MgmtIe) (behind : List UInt8)
    (s : AssocLoop) : Except UInt16 AssocLoop :=
  if ie.elementId = eidSsid then
    if ie.data = net.ssid then .ok (setInfo s { s.info with ssidLen := net.ssid.length })
    else .error statusInvalidIe
  else if ie.elementId = eidSuppRates then
    match suppRates net.rate ie.data s.info.datarateLen with
    | .error status => .error status
    | .ok len => .ok (setInfo s { s.info with datarateLen := len })
  else if ie.elementId = eidExtSuppRates then
    match extSuppRates net.rate ie.data s.info.extDatarateLen with
    | .error status => .error status
    | .ok len => .ok (setInfo s { s.info with extDatarateLen := len })
  else if ie.elementId = eidRsn then rsnElement sec ie s
  else if ie.elementId = eidVendorSpecific then vendorElement sec ie behind s
  else if ie.elementId = eidHtCapability then
    if net.htEnable then .ok (setInfo s { s.info with htEnable := true })
    else .error statusUnspecifiedFailure
  else if ie.elementId = eidHtOperation then
    if net.htEnable then .ok s else .error statusUnspecifiedFailure
  else .ok s

/-- The loop over the elements; `none` when it has not ended. -/
def assocElements (net : ApNetwork) (sec : AssocSec) (mem : Mem) (pvar : Nat)
    (varLen : UInt16) : Nat → UInt16 → AssocLoop → Option (Except UInt16 AssocLoop)
  | 0, _, _ => none
  | fuel + 1, ofs, s =>
      if ofs < varLen then
        let pie := pvar + ofs.toNat
        match assocElement net sec (readIe mem pie) (mem.read (pie + 2) 6) s with
        | .error status => some (.error status)
        | .ok s =>
            assocElements net sec mem pvar varLen fuel
              (ofs + (2 + (mem (pie + 1)).toUInt16)) s
      else some (.ok s)

/-! ## The thread -/

/-- `sent` says whether there is a buffer to answer in; the rest is what the local variables
hold at first. -/
structure AssocAnswers where
  sent : Bool
  rsn : Ciphers
  wpa : Ciphers

structure AssocReply where
  type : UInt16
  statusCode : UInt16
  aid : UInt16
  deriving DecidableEq

/-- `freed` says whether the message goes back to its free queue, `reported` whether hostapd
is told about the station. -/
structure AssocOut where
  state : WdnState
  info : AssocInfo
  freed : Bool
  reply : Option AssocReply
  disassoc : Bool
  reported : Bool
  ret : PtRet

def frmAssocReq : UInt16 := 0x00

def frmReassocReq : UInt16 := 0x20

def wf80211GetFrameType (mem : Mem) : UInt16 := mem.readLe16 0 &&& 0xfc

/-- The fixed part of `assoc_ap_xmit_frame`. -/
def assocApXmitFrame (a : AssocAnswers) (aid : UInt32) (type status : UInt16) :
    Option AssocReply :=
  if a.sent then
    some {
      type :=
        if type = frmAssocReq then 0x10 else if type = frmReassocReq then 0x30 else type
      statusCode := status
      aid := aid.toUInt16 ||| 0xc000 }
  else none

def clearInfo (info : AssocInfo) : AssocInfo :=
  { info with
    ssidLen := 0
    datarateLen := 0
    extDatarateLen := 0
    rsnPairwiseCipher := 0
    rsnEnable := false
    wpaEnable := false
    wmmEnable := false
    wpaIe := [] }

/-- Where the elements of a request begin. -/
def variableOfs (type : UInt16) : Nat := if type = frmAssocReq then 28 else 34

def recvAssocReq (net : ApNetwork) (sec : AssocSec) (aid : UInt32) (info : AssocInfo)
    (msg : ApMsg) (a : AssocAnswers) : AssocOut :=
  let type := wf80211GetFrameType msg.mgmt
  let pvar := variableOfs type
  let varLen := msg.len - UInt16.ofNat pvar
  let start : AssocLoop := ⟨clearInfo info, a.rsn, a.wpa⟩
  match assocElements net sec msg.mgmt pvar varLen (varLen.toNat + 1) 0 start with
  -- the thread does not come back
  | none => ⟨.assoc, info, false, none, false, false, .waiting⟩
  | some (.error status) =>
      ⟨.assoc, info, true, assocApXmitFrame a aid type status, false, false, .exited⟩
  | some (.ok s) =>
      { state := .assoc
        info := s.info
        freed := true
        reply := assocApXmitFrame a aid type statusSuccess
        disassoc := false
        -- `wf_assoc_ap_event_up`
        reported := aid ≤ 2007
        ret := .ended }

/-- `wf_assoc_ap_thrd`. -/
def wfAssocApThrd (net : ApNetwork) (sec : AssocSec) (aid : UInt32) (state : WdnState)
    (info : AssocInfo) (head : Option ApMsg) (a : AssocAnswers) : AssocOut :=
  match head with
  | none => ⟨state, info, false, none, false, false, .exited⟩
  | some msg =>
      if msg.tag ≠ .assocReqFrame then ⟨state, info, true, none, true, false, .exited⟩
      else recvAssocReq net sec aid info msg a

end Smartchip.Ap
