import Smartchip.Ap.Survey
import Smartchip.Foundation.Checked

/-!
# The accesses of association at an access point

The accesses that `wf_assoc_ap_thrd` of `nic/assoc.c` makes to the request, to the fields that
it copies elements to and to the buffer of the response, with the functions of
`nic/p2p/p2p_frame_mgt.c` that it calls.  What the thread decides is in the module on
association.  A step outside of what it accesses, or a loop that does not end, has no value.
-/

namespace Smartchip.Ap

open Smartchip.Foundation Smartchip.Frame

namespace Bounds

/-! ## The message -/

/-- `WF_80211_MGMT_ASSOC_SIZE_MAX`. -/
def assocSizeMax : Nat := 796

/-- `wf_assoc_ap_work`, with whether the station is one of an access point and what the free
message holds, when there is one. -/
def wfAssocApWork (master : Bool) (free : Option Mem) (frame : List UInt8) : Option ApMsg :=
  if assocSizeMax < frame.length then none
  else
    let type := ofLe16 (frame.getD 0 0) (frame.getD 1 0) &&& 0xfc
    if type ≠ frmAssocReq ∧ type ≠ frmReassocReq then none
    else if master then free.map fun held => fillMsg held .assocReqFrame frame
    else none

/-- A message that the loader has queued. -/
structure Request where
  free : Mem
  frame : List UInt8
  msg : ApMsg
  accepted : wfAssocApWork true (some free) frame = some msg

/-! ## Accesses -/

/-- What stays as it is while a request is handled.  `alloc` says which allocations succeed, by
the element that they are for and the size; the lists are what is kept for the responses, and
`wfd` is there when it is enabled. -/
structure ApSide where
  net : ApNetwork
  sec : AssocSec
  rateLen : UInt8
  richv200 : Bool
  pointerSize : Nat
  alloc : Nat → Nat → Bool
  p2pValid : Bool
  groupOwner : Bool
  wpsAssocRespIe : List UInt8
  p2pIeAssocRsp : List UInt8
  wfd : Option (List UInt8)

section Element

variable (m : ApMsg) (pie : Nat)

/-- The element at `pie` is looked at from an offset on. -/
def look (ofs n : Nat) : Option Unit := inside m.len.toNat (pie + ofs) n

/-- A part of the element goes to a field of `size` bytes. -/
def copy (ofs n size : Nat) : Option Unit := do
  look m pie ofs n
  inside (2 + ieSize m.mgmt pie) ofs n
  inside size 0 n

/-- `wf_wlan_ssid_t` has 33 bytes for an SSID, the WDN 32. -/
def ssidChecks (net : ApNetwork) : Option Unit := do
  look m pie 2 (ieSize m.mgmt pie)
  onlyIf (ieSize m.mgmt pie = net.ssid.length) (do
    inside 33 0 net.ssid.length
    onlyIf ((readIe m.mgmt pie).data = net.ssid) (do
      inside 32 0 net.ssid.length
      inside 32 net.ssid.length 1))

/-- The rates from the `i`th on.  They are not looked at when the network has none. -/
def ratesLoop (limit : Nat) (rate : List UInt8) : Nat → Nat → Nat → Option Unit
  | 0, _, _ => some ()
  | left + 1, i, len => do
      onlyIf (rate.takeWhile (· ≠ 0) ≠ []) (look m pie (2 + i) 1)
      if knownRate rate (m.mgmt (pie + (2 + i))) then
        if len < limit then do
          inside limit len 1
          ratesLoop limit rate left (i + 1) (len + 1)
        else some ()
      else ratesLoop limit rate left (i + 1) len

def ratesChecks (limit : Nat) (rate : List UInt8) (len : Nat) : Option Unit :=
  onlyIf (ieSize m.mgmt pie ≤ limit) (ratesLoop m pie limit rate (ieSize m.mgmt pie) 0 len)

def suppRatesChecks (rate : List UInt8) (len : Nat) : Option Unit :=
  ratesChecks m pie 8 rate len

def extSuppRatesChecks (rate : List UInt8) (len : Nat) : Option Unit :=
  ratesChecks m pie 4 rate len

/-- Where the element is kept for the response. -/
def keepIe : Option Unit := copy m pie 0 (min 32 (wpaIeLen (readIe m.mgmt pie)).toNat) 32

def rsnChecks (sec : AssocSec) (s : AssocLoop) : Option Unit := do
  forM (wf80211MgmtRsnParseAt (fromIe m.mgmt pie) (wpaIeLen (readIe m.mgmt pie))).reads
    fun o => look m pie o 1
  onlyIf (rsnElement sec (readIe m.mgmt pie) s).toBool (keepIe m pie)

/-- `wf_80211_mgmt_wmm_parse` and the copy; a version that is not known is printed. -/
def wmmChecks : Option Unit := do
  look m pie 2 3
  onlyIf (m.mgmt.read (pie + 2) 3 = [0x00, 0x50, 0xf2]) (look m pie 5 1)
  onlyIf (m.mgmt.read (pie + 2) 4 = [0x00, 0x50, 0xf2, 2]) (look m pie 6 2)
  onlyIf (m.mgmt.read (pie + 2) 6 = [0x00, 0x50, 0xf2, 2, 0, 1])
    (copy m pie 0 (2 + ieSize m.mgmt pie) 24)

/-! ## P2P elements -/

def p2pOui : List UInt8 := [0x50, 0x6f, 0x9a, 9]

def p2pAttrCapability : UInt8 := 2

def p2pAttrDeviceInfo : UInt8 := 13

/-- `WPS_ATTR_DEVICE_NAME`. -/
def wpsAttrDeviceName : UInt16 := 0x1011

/-- The length of an attribute with its header has 16 bits. -/
def attrLen (attr : Nat) : UInt16 := (fromIe m.mgmt pie).readLe16 (attr + 1) + 3

/-- The loop of `p2p_get_attr`, with where the attribute is and how long it is. -/
def p2pGetAttrLoop (target : UInt8) : Nat → Nat → Option (Option (Nat × UInt16))
  | 0, _ => none
  | fuel + 1, attr =>
      if attr + 3 ≤ 2 + ieSize m.mgmt pie then do
        look m pie attr 3
        if 2 + ieSize m.mgmt pie < attr + (attrLen m pie attr).toNat then some none
        else if m.mgmt (pie + attr) = target then some (some (attr, attrLen m pie attr))
        else p2pGetAttrLoop target fuel (attr + (attrLen m pie attr).toNat)
      else some none

def p2pGetAttr (target : UInt8) : Option (Option (Nat × UInt16)) :=
  if 2 + ieSize m.mgmt pie ≤ 6 ∨ m.mgmt pie ≠ eidVendorSpecific then some none
  else do
    look m pie 2 4
    if m.mgmt.read (pie + 2) 4 ≠ p2pOui then some none
    else p2pGetAttrLoop m pie target (2 + ieSize m.mgmt pie) 6

/-- `attr_len - 3` has 32 bits. -/
def contentLen (len : UInt16) : Nat := (len.toUInt32 - 3).toNat

/-- `buf` is the size of the buffer for the content, when there is one. -/
def wfP2pGetAttrContent (target : UInt8) (buf : Option Nat) :
    Option (Option (Nat × Nat)) := do
  match ← p2pGetAttr m pie target with
  | none => some none
  | some (attr, len) =>
      if len = 0 then some none
      else do
        match buf with
        | none => some ()
        | some size => copy m pie (attr + 3) (contentLen len) size
        some (some (attr + 3, contentLen len))

/-- A field that is copied out of the content of an attribute. -/
def copyOut (content ofs n size : Nat) : Option Unit := do
  inside content ofs n
  inside size 0 n

/-- The content of the attribute, of which there is a copy of its own. -/
def deviceInfo (info : Mem) (content : Nat) : Option Unit := do
  copyOut content 0 6 6
  copyOut content 6 2 2
  copyOut content 8 8 8
  inside content 16 1
  let types := 8 * (info 16).toNat
  onlyIf (types ≠ 0) (copyOut content 17 (min 32 types) 32)
  inside content (17 + types) 2
  onlyIf (info.readBe16 (17 + types) = wpsAttrDeviceName) (do
    inside content (19 + types) 2
    copyOut content (21 + types) (min 32 (info.readBe16 (19 + types)).toNat) 32)

def wfP2pProcAssocReq (side : ApSide) : Option Unit :=
  onlyIf side.groupOwner (do
    let _ ← wfP2pGetAttrContent m pie p2pAttrCapability (some 2)
    match ← wfP2pGetAttrContent m pie p2pAttrDeviceInfo none with
    | none => some ()
    | some (ofs, content) =>
        onlyIf (side.alloc pie content) (do
          let _ ← wfP2pGetAttrContent m pie p2pAttrDeviceInfo (some content)
          deviceInfo (fromIe m.mgmt (pie + ofs)) content))

/-- `wf_p2p_parse_p2pie` keeps the element in a buffer of `P2P_IE_BUF_LEN` bytes. -/
def p2pChecks (side : ApSide) : Option Unit := do
  look m pie 2 4
  onlyIf (m.mgmt.read (pie + 2) 4 = p2pOui) (do
    copy m pie 0 (2 + ieSize m.mgmt pie) 1024
    wfP2pProcAssocReq m pie side)

/-! ## The elements -/

def vendorChecks (side : ApSide) (s : AssocLoop) : Option Unit := do
  forM (wf80211MgmtWpaParseAt (fromIe m.mgmt pie) (wpaIeLen (readIe m.mgmt pie))).reads
    fun o => look m pie o 1
  onlyIf (wpaElement side.sec (readIe m.mgmt pie) s).toBool (do
    onlyIf ((wf80211MgmtWpaParse (readIe m.mgmt pie) (wpaIeLen (readIe m.mgmt pie)) s.wpa).1 = 0)
      (keepIe m pie)
    wmmChecks m pie
    onlyIf side.p2pValid (p2pChecks m pie side))

/-- A field of `size` bytes takes the data of an element for 802.11n. -/
def htChecks (net : ApNetwork) (size : Nat) : Option Unit :=
  onlyIf net.htEnable (do
    look m pie 1 1
    copy m pie 2 (ieSize m.mgmt pie) size)

/-- The accesses of the body of the loop.  `ht_info` is a pointer, over which the element
goes. -/
def elementChecks (side : ApSide) (s : AssocLoop) : Option Unit := do
  look m pie 0 1
  if m.mgmt pie = eidSsid then do
    look m pie 1 1
    ssidChecks m pie side.net
  else if m.mgmt pie = eidSuppRates then do
    look m pie 1 1
    suppRatesChecks m pie side.net.rate s.info.datarateLen
  else if m.mgmt pie = eidExtSuppRates then do
    look m pie 1 1
    extSuppRatesChecks m pie side.net.rate s.info.extDatarateLen
  else if m.mgmt pie = eidRsn then do
    look m pie 1 1
    rsnChecks m pie side.sec s
  else if m.mgmt pie = eidVendorSpecific then do
    look m pie 1 1
    vendorChecks m pie side s
  else if m.mgmt pie = eidHtCapability then htChecks m pie side.net 26
  else if m.mgmt pie = eidHtOperation then htChecks m pie side.net side.pointerSize
  else look m pie 1 1

end Element

/-! ## The response -/

/-- The loop, with the length of the element in `p2p_ie[WF_P2P_IE_ASSOC_REQ]`. -/
structure Walk where
  loop : AssocLoop
  p2pReqLen : Nat

/-- How much of the variable fields is written, with what `var_len` says. -/
structure Written where
  varLen : UInt16
  bytes : Nat

def txdescOffset (side : ApSide) : Nat := if side.richv200 then 20 else 40

/-- `MAX_XMIT_EXTBUF_SZ`. -/
def maxXmitExtbufSz : Nat := 1536

def writeVar (side : ApSide) (w : Written) (n : Nat) : Option Written := do
  inside maxXmitExtbufSz (txdescOffset side + 30 + w.varLen.toNat) n
  some ⟨w.varLen + UInt16.ofNat n, w.bytes + n⟩

/-- `wf_p2p_fill_assoc_rsp`; without an element of the driver for WFD one of 34 bytes is
built. -/
def wfP2pFillAssocRsp (side : ApSide) (p2pReqLen : Nat) : List Nat :=
  if side.groupOwner then
    (if side.p2pIeAssocRsp ≠ [] then [side.p2pIeAssocRsp.length]
      else if 0 < p2pReqLen then [p2pReqLen] else []) ++
    (match side.wfd with
      | none => []
      | some [] => [34]
      | some ie => [ie.length])
  else []

/-- The sizes of the variable fields of a response, in their order. -/
def responseFields (side : ApSide) (w : Walk) : List Nat :=
  [2 + 8] ++
  (if 8 < side.rateLen then [2 + (side.rateLen - 8).toNat] else []) ++
  (if w.loop.info.htEnable then [2 + 26, 2 + 22] else []) ++
  (if w.loop.info.wpaEnable || w.loop.info.rsnEnable then [w.loop.info.wpaIe.length] else []) ++
  (if side.p2pValid then
    (if side.wpsAssocRespIe ≠ [] then [side.wpsAssocRespIe.length] else []) ++
      wfP2pFillAssocRsp side w.p2pReqLen
  else [])

/-- The length that is given to the transmission, and how many bytes are written. -/
structure Response where
  pktLen : Nat
  written : Nat

/-- `assoc_ap_xmit_frame`; more than four rates behind the first eight are read past the end of
`ext_datarate`. -/
def xmitFrame (side : ApSide) (w : Walk) : Option Response := do
  inside maxXmitExtbufSz 0 (txdescOffset side + 30)
  onlyIf (8 < side.rateLen) (inside 4 0 (side.rateLen - 8).toNat)
  onlyIf (side.p2pValid ∧ side.groupOwner ∧ side.p2pIeAssocRsp = [])
    (inside 1024 0 w.p2pReqLen)
  let fields ← (responseFields side w).foldlM (writeVar side) ⟨0, 0⟩
  some ⟨30 + fields.varLen.toNat, 30 + fields.bytes⟩

/-! ## The thread -/

section Thread

variable (side : ApSide) (m : ApMsg)

/-- What `wf_p2p_parse_p2pie` leaves for the length. -/
def p2pReqLenBehind (pie old : Nat) : Nat :=
  if m.mgmt pie = eidVendorSpecific ∧ side.p2pValid ∧ m.mgmt.read (pie + 2) 4 = p2pOui then
    2 + ieSize m.mgmt pie
  else old

def elementOf (pie : Nat) (s : AssocLoop) : Except UInt16 AssocLoop :=
  assocElement side.net side.sec (readIe m.mgmt pie) (m.mgmt.read (pie + 2) 6) s

/-- Where the elements begin. -/
def pvarOf : Nat := variableOfs (wf80211GetFrameType m.mgmt)

def varLenOf : UInt16 := m.len - UInt16.ofNat (pvarOf m)

/-- The loop over the elements, with the status that it is left with. -/
def elementsLoop : Nat → UInt16 → Walk → Option (Walk × UInt16)
  | 0, _, _ => none
  | fuel + 1, ofs, w =>
      if ofs < varLenOf m then do
        elementChecks m (pvarOf m + ofs.toNat) side w.loop
        match elementOf side m (pvarOf m + ofs.toNat) w.loop with
        | .error status => some (w, status)
        | .ok s =>
            elementsLoop fuel (ofs + (2 + (m.mgmt (pvarOf m + ofs.toNat + 1)).toUInt16))
              ⟨s, p2pReqLenBehind side m (pvarOf m + ofs.toNat) w.p2pReqLen⟩
      else some (w, statusSuccess)

/-- `wf_assoc_ap_thrd` with the message in front; `p2pReqLen` is what the last request has
left. -/
def wfAssocApThrd (info : AssocInfo) (p2pReqLen : Nat) (a : AssocAnswers) :
    Option (Option Response) := do
  inside m.len.toNat 0 m.len.toNat
  inside m.len.toNat 0 2
  inside m.len.toNat 24 4
  let (w, _) ← elementsLoop side m ((varLenOf m).toNat + 1) 0
    ⟨⟨clearInfo info, a.rsn, a.wpa⟩, p2pReqLen⟩
  if a.sent then (xmitFrame side w).map some else some none

end Thread

end Bounds

end Smartchip.Ap
