import Smartchip.Frame.Header
import Smartchip.Rx.Reorder
import Smartchip.Sec.Cipher

/-!
# From an MSDU to the MPDUs handed to the bus

The transmit data path of `nic/tx.c` and `os/linux/tx_linux.c`: the MAC header
is built in the transmit buffer, the MSDU is split behind it, the MIC is added
and every fragment is encrypted and written out.  The descriptor in front of a
fragment and the RTS/CTS choice do not touch the MPDU and are left out.
-/

namespace Smartchip.Tx

open Smartchip.Foundation Smartchip.Frame Smartchip.Sec

structure WdnNetInfo where
  qosOption : Bool
  txseqTid : UInt8 → UInt16
  htEnable : Bool
  ampduEnable : Bool
  aggEnableBitmap : UInt32
  baStartingSeqctrl : UInt8 → UInt16

/-- `wdnFindInfo` is `wf_wdn_find_info`, with stations named by numbers. -/
structure TxNic where
  workMode : WorkMode
  curBssid : MacAddr
  fragThresh : UInt16
  dot80211nSupport : Bool
  richv200 : Bool
  secInfo : SecInfo
  wdnFindInfo : List UInt8 → Option Nat
  wdn : Nat → WdnNetInfo

/-- `TXDESC_SIZE`; `PACKET_OFFSET_SZ` is zero in both builds. -/
def TxNic.txdescSize (nic : TxNic) : Nat := if nic.richv200 then 20 else 40

structure XmitFrame where
  etherType : UInt16
  bmcast : Bool
  seqnum : UInt16
  pktHdrlen : Nat
  hdrlen : Nat
  lastTxcmdsz : Nat
  nrFrags : UInt8
  encryptAlgo : EncryptAlgo
  bswenc : Bool
  ivLen : Nat
  icvLen : Nat
  iv : List UInt8
  priority : UInt8
  ampduEn : Bool
  dot11tkiptxmickey : Keytype
  dot118021xUncstKey : Keytype
  pwdn : Nat
  bufAddr : Nat

def wfRnd4 (x : Nat) : Nat := (x / 4 + if x % 4 = 0 then 0 else 1) * 4

/-! ## The MAC header -/

/-- The A-MPDU bookkeeping at the end of `tx_mac_hdr_build`. -/
def txAmpduUpdate (nic : TxNic) (frame : XmitFrame) : TxNic × XmitFrame :=
  let pwdn := nic.wdn frame.pwdn
  if nic.dot80211nSupport then
    let frame :=
      if pwdn.htEnable && pwdn.ampduEnable &&
          (pwdn.aggEnableBitmap &&& (1 : UInt32) <<< frame.priority.toUInt32) != 0 then
        { frame with ampduEn := true }
      else frame
    if frame.ampduEn then
      let tid := frame.priority &&& 0x0f
      let txSeq := pwdn.baStartingSeqctrl tid
      let moved (seq : UInt16) : WdnNetInfo := { pwdn with
        baStartingSeqctrl := Function.update pwdn.baStartingSeqctrl tid seq }
      let record (seq : UInt16) : TxNic := { nic with
        wdn := Function.update nic.wdn frame.pwdn (moved seq) }
      if Rx.snLess frame.seqnum txSeq then
        (nic, { frame with ampduEn := false })
      else if Rx.snEqual frame.seqnum txSeq then
        (record ((txSeq + 1) &&& 0xfff), { frame with ampduEn := true })
      else (record ((frame.seqnum + 1) &&& 0xfff), { frame with ampduEn := true })
    else (nic, frame)
  else (nic, frame)

/-- The direction bits and the three addresses; `none` in any other mode. -/
def txHdrAddrs (nic : TxNic) (msdu : List UInt8) (hdr : Nat) (mem : Mem) :
    Option Mem :=
  let dest := msdu.take 6
  let src := (msdu.drop 6).take 6
  let bssid := nic.curBssid.toList
  match nic.workMode with
  | .infra =>
      some ((((setToDs mem hdr).write (hdr + 16) dest).write (hdr + 10)
        src).write (hdr + 4) bssid)
  | .master =>
      some ((((setFrDs mem hdr).write (hdr + 16) src).write (hdr + 10)
        bssid).write (hdr + 4) dest)
  | .adhoc =>
      some (((mem.write (hdr + 16) bssid).write (hdr + 10) src).write
        (hdr + 4) dest)
  | .other => none

def txHdrQos (frame : XmitFrame) (hdr : Nat) (mem : Mem) : Mem :=
  let qc := hdr + frame.hdrlen - 2
  let mem := if frame.priority ≠ 0 then setPriority mem qc frame.priority
    else mem
  setAckpolicy (setEOSP mem qc 0) qc 0

def wlanhdrOffset : Nat := 64

def txMacHdrBuild (nic : TxNic) (frame : XmitFrame) (msdu : List UInt8)
    (hdr : Nat) (mem : Mem) : Option (TxNic × XmitFrame × Mem) := do
  let mem := mem.write hdr (List.replicate wlanhdrOffset 0)
  let mem := setFrameSubType mem hdr 0x0008
  let mem ← txHdrAddrs nic msdu hdr mem
  let addr1 := getAddr1 mem hdr
  let pwdn ← nic.wdnFindInfo (if isMcast addr1 then bcAddr else addr1)
  if frame.pwdn ≠ pwdn then none
  else
    let qosOption := (nic.wdn pwdn).qosOption
    let mem := if qosOption then setFrameSubType mem hdr 0x0088 else mem
    let mem :=
      if frame.encryptAlgo ≠ .noPrivacy then setPrivacy mem hdr else mem
    let mem := if qosOption then txHdrQos frame hdr mem else mem
    let seqnum := ((nic.wdn pwdn).txseqTid frame.priority + 1) &&& 0xFFF
    let counted : WdnNetInfo := { nic.wdn pwdn with
      txseqTid := Function.update (nic.wdn pwdn).txseqTid frame.priority seqnum }
    let nic := { nic with wdn := Function.update nic.wdn pwdn counted }
    let mem := setSeqNum mem hdr seqnum
    let updated := txAmpduUpdate nic { frame with seqnum }
    some (updated.1, updated.2, mem)

/-! ## The LLC header -/

def snapHeader (hProto : UInt16) : List UInt8 :=
  [0xaa, 0xaa, 0x03, 0x00, 0x00,
    if hProto = 0x8137 ∨ hProto = 0x80f3 then 0xf8 else 0x00] ++ be16 hProto

def txSetSnap (hProto : UInt16) (data : Nat) (mem : Mem) : Nat × Mem :=
  (8, mem.write data (snapHeader hProto))

/-! ## Splitting -/

/-- The loop variables of `wf_tx_msdu_to_mpdu`, and where the fragments so far
were written. -/
structure MpduCursor where
  mem : Mem
  memStart : Nat
  frgInx : Nat
  msduOffset : Nat
  written : List (Nat × Nat)

def MpduCursor.start (mem : Mem) (memStart : Nat) : MpduCursor :=
  { mem, memStart, frgInx := 0, msduOffset := ethHlen, written := [] }

/-- What is in front of the MSDU bytes of a fragment: the pointer behind it,
the room left, and the length of the LLC header. -/
def fragmentHead (nic : TxNic) (frame : XmitFrame) (cursor : MpduCursor) :
    Mem × Nat × Int × Nat :=
  let mem := setMFrag cursor.mem cursor.memStart
  let pframe := cursor.memStart + frame.hdrlen
  let mpduLen : Int := nic.fragThresh.toNat - frame.hdrlen
  let mem := if frame.ivLen ≠ 0 then
      mem.write pframe (frame.iv.take frame.ivLen) else mem
  let pframe := pframe + frame.ivLen
  let mpduLen := mpduLen - frame.ivLen
  let snap :=
    if cursor.frgInx = 0 then txSetSnap frame.etherType pframe mem else (0, mem)
  let mpduLen := mpduLen - snap.1
  let mpduLen :=
    if frame.icvLen ≠ 0 ∧ frame.bswenc then mpduLen - frame.icvLen else mpduLen
  (snap.2, pframe + snap.1, mpduLen, snap.1)

/--
The bytes of the MSDU that go into this fragment, their number `mem_sz`, and
the offset afterwards.  Both copies of a unicast MSDU start at `pkt_hdrlen`.  A
negative length would be taken as a huge one by `wf_memcpy`; the outcome is
`none`.
-/
def fragmentBody (frame : XmitFrame) (msdu : List UInt8) (mpduLen : Int)
    (msduOffset : Nat) : Option (List UInt8 × Nat × Nat) :=
  if frame.bmcast then
    if msdu.length < msduOffset then none
    else some (msdu.drop msduOffset, msdu.length - msduOffset, msduOffset)
  else
    let msduRemainLen : Int := msdu.length - msduOffset
    let memSz := if mpduLen < msduRemainLen then mpduLen else msduRemainLen
    if memSz < 0 then none
    else some ((msdu.drop frame.pktHdrlen).take memSz.toNat, memSz.toNat,
      msduOffset + memSz.toNat)

def XmitFrame.swIcvLen (frame : XmitFrame) : Nat :=
  if frame.icvLen ≠ 0 ∧ frame.bswenc then frame.icvLen else 0

/-- The loop variables when a fragment is in the buffer; `pframe` is behind
the room for the ICV. -/
structure Fragment where
  mem : Mem
  pframe : Nat
  llcSz : Nat
  memSz : Nat
  msduOffset : Nat

def fillFragment (nic : TxNic) (frame : XmitFrame) (msdu : List UInt8)
    (cursor : MpduCursor) : Option Fragment := do
  let head := fragmentHead nic frame cursor
  let body ← fragmentBody frame msdu head.2.2.1 cursor.msduOffset
  some {
    mem := head.1.write head.2.1 body.1
    pframe := head.2.1 + body.2.1 + frame.swIcvLen
    llcSz := head.2.2.2
    memSz := body.2.1
    msduOffset := body.2.2 }

def MpduCursor.record (cursor : MpduCursor) (fragment : Fragment) :
    List (Nat × Nat) :=
  cursor.written ++ [(cursor.memStart, fragment.pframe - cursor.memStart)]

def lastFragment (frame : XmitFrame) (cursor : MpduCursor)
    (fragment : Fragment) : XmitFrame × MpduCursor :=
  ({ frame with
      nrFrags := UInt8.ofNat (cursor.frgInx + 1)
      lastTxcmdsz := frame.hdrlen + frame.ivLen + fragment.llcSz +
        fragment.memSz + if frame.bswenc then frame.icvLen else 0 },
    { mem := clearMFrag fragment.mem cursor.memStart
      memStart := cursor.memStart
      frgInx := cursor.frgInx + 1
      msduOffset := fragment.msduOffset
      written := cursor.record fragment })

/-- The first header is copied in front of the next fragment. -/
def nextFragment (nic : TxNic) (frame : XmitFrame) (hdr : Nat)
    (cursor : MpduCursor) (fragment : Fragment) : MpduCursor :=
  let memStart := wfRnd4 fragment.pframe + nic.txdescSize
  { mem := fragment.mem.write memStart (fragment.mem.read hdr frame.hdrlen)
    memStart
    frgInx := cursor.frgInx + 1
    msduOffset := fragment.msduOffset
    written := cursor.record fragment }

def mpduLoop (nic : TxNic) (frame : XmitFrame) (msdu : List UInt8)
    (hdr : Nat) : Nat → MpduCursor → Option (XmitFrame × MpduCursor)
  | 0, _ => none
  | fuel + 1, cursor => do
      let fragment ← fillFragment nic frame msdu cursor
      if frame.bmcast ∨ fragment.msduOffset = msdu.length then
        some (lastFragment frame cursor fragment)
      else
        mpduLoop nic frame msdu hdr fuel
          (nextFragment nic frame hdr cursor fragment)

/-! ## The MIC -/

/-- Where `frame_txp_addmic` reads each fragment, and where it stops. -/
def micWalk (nic : TxNic) (frame : XmitFrame) :
    Nat → Nat → List (Nat × Nat) × Nat
  | 0, payload => ([], payload)
  | remaining + 1, payload =>
      let payload := wfRnd4 payload + (frame.hdrlen + frame.ivLen)
      if remaining = 0 then
        let length := frame.lastTxcmdsz - frame.hdrlen - frame.ivLen -
          frame.icvLen
        ([(payload, length)], payload + length)
      else
        let length := nic.fragThresh.toNat - frame.hdrlen - frame.ivLen -
          frame.icvLen
        let rest := micWalk nic frame remaining
          (payload + length + frame.icvLen + nic.txdescSize)
        ((payload, length) :: rest.1, rest.2)

def micPrefix (nic : TxNic) (frame : XmitFrame) (mem : Mem) (pframe : Nat) :
    List UInt8 :=
  let flags := mem (pframe + 1)
  let addrs :=
    if flags &&& 1 ≠ 0 then
      mem.read (pframe + 16) 6 ++
        (if flags &&& 2 ≠ 0 then mem.read (pframe + 24) 6
          else mem.read (pframe + 10) 6)
    else
      mem.read (pframe + 4) 6 ++
        (if flags &&& 2 ≠ 0 then mem.read (pframe + 16) 6
          else mem.read (pframe + 10) 6)
  addrs ++
    [if (nic.wdn frame.pwdn).qosOption then frame.priority else 0, 0, 0, 0]

def txMicKey (nic : TxNic) (frame : XmitFrame) : Keytype :=
  if frame.bmcast then
    nic.secInfo.dot118021XGrptxmickey nic.secInfo.dot118021XGrpKeyid
  else frame.dot11tkiptxmickey

def frameTxpAddmic (nic : TxNic) (frame : XmitFrame) (mem : Mem) :
    Option (XmitFrame × Mem) :=
  if frame.encryptAlgo = .tkip then
    let pframe := frame.bufAddr + nic.txdescSize
    let key := txMicKey nic frame
    if key.toList = List.replicate 16 0 then none
    else
      let walk := micWalk nic frame frame.nrFrags.toNat pframe
      let data := walk.1.flatMap fun part => mem.read part.1 part.2
      let mic := wfSecGetMic (wfSecMicAppend (wfSecMicSetKey key.toList)
        (micPrefix nic frame mem pframe ++ data))
      some ({ frame with lastTxcmdsz := frame.lastTxcmdsz + 8 },
        mem.write walk.2 mic)
  else some (frame, mem)

structure MpduResult where
  nic : TxNic
  frame : XmitFrame
  mem : Mem
  written : List (Nat × Nat)

def wfTxMsduToMpdu (nic : TxNic) (frame : XmitFrame) (msdu : List UInt8)
    (mem : Mem) : Option MpduResult := do
  let hdr := frame.bufAddr + nic.txdescSize
  let (nic, frame, mem) ← txMacHdrBuild nic frame msdu hdr mem
  let (frame, cursor) ← mpduLoop nic frame msdu hdr (msdu.length + 1)
    (MpduCursor.start mem hdr)
  let (frame, mem) ← frameTxpAddmic nic frame cursor.mem
  some { nic, frame, mem, written := cursor.written }

/-! ## Encryption -/

def encryptBody (frame : XmitFrame) (key : List UInt8) (pframe : Nat)
    (frameLen : Nat) (mem : Mem) : Mem :=
  let payload := pframe + frame.hdrlen + frame.ivLen
  let payloadLen := frameLen - (frame.hdrlen + frame.ivLen + frame.icvLen)
  let body := mem.read payload payloadLen
  let encrypted := arc4Encrypt (arc4Init key) body
  let mem := mem.write payload encrypted.1
  mem.write (payload + payloadLen) (arc4Encrypt encrypted.2
    ((le32 (getCrc32 body)).take frame.icvLen)).1

def wepEncrypt (nic : TxNic) (frame : XmitFrame) (pdata len : Nat)
    (mem : Mem) : Mem :=
  let pframe := pdata + nic.txdescSize
  let iv := mem.read (pframe + frame.hdrlen) 4
  encryptBody frame (wepKeyOf nic.secInfo iv) pframe (len - nic.txdescSize) mem

/-- `pwlanhdr` still points to the first header of the buffer. -/
def tkipEncrypt (nic : TxNic) (frame : XmitFrame) (pdata len : Nat)
    (mem : Mem) : Mem :=
  let pframe := pdata + nic.txdescSize
  let prwskey :=
    if frame.bmcast then
      nic.secInfo.dot118021XGrpKey nic.secInfo.dot118021XGrpKeyid
    else frame.dot118021xUncstKey
  let ta := getAddr2 mem (frame.bufAddr + nic.txdescSize)
  let key := tkipPacketKey prwskey.toList ta (mem.read (pframe + frame.hdrlen) 8)
  encryptBody frame key pframe (len - nic.txdescSize) mem

def wfSecEncrypt (nic : TxNic) (frame : XmitFrame) (pdata len : Nat)
    (mem : Mem) : Mem :=
  match frame.encryptAlgo with
  | .tkip => tkipEncrypt nic frame pdata len mem
  | .wep40 | .wep104 => wepEncrypt nic frame pdata len mem
  | _ => mem

/-! ## Writing out -/

structure IoWrite where
  memAddr : Nat
  bytes : List UInt8

/-- The loop of `mpdu_insert_sending_queue`; `ioWrite t` is whether the write
of fragment `t` succeeds, and the loop stops at the first one that fails. -/
def sendLoop (nic : TxNic) (frame : XmitFrame) (ioWrite : Nat → Bool) :
    Nat → Nat → Nat → Mem → List IoWrite
  | 0, _, _, _ => []
  | remaining + 1, t, memAddr, mem =>
      let sz :=
        if remaining ≠ 0 then nic.fragThresh.toNat - 4 else frame.lastTxcmdsz
      let wSz := sz + nic.txdescSize
      let mem := wfSecEncrypt nic frame memAddr wSz mem
      ⟨memAddr, mem.read memAddr wSz⟩ ::
        if ioWrite t then
          sendLoop nic frame ioWrite remaining (t + 1) (wfRnd4 (memAddr + wSz))
            mem
        else []

def mpduInsertSendingQueue (nic : TxNic) (frame : XmitFrame)
    (ioWrite : Nat → Bool) (mem : Mem) : List IoWrite :=
  sendLoop nic frame ioWrite frame.nrFrags.toNat 0 frame.bufAddr mem

end Smartchip.Tx
