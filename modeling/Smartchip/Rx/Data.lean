import Smartchip.Frame.Header
import Smartchip.Rx.Reorder
import Smartchip.Sec.Cipher

/-!
# Received data frames

From the receive descriptor and the MPDU to the Ethernet frames that are given
to `upload_skb` (`nic/rx.c`, `nic/sec_wep.c`, `nic/sec_tkip.c` and
`os/linux/rx_linux.c`).
-/

namespace Smartchip.Rx

open Smartchip.Foundation Smartchip.Frame Smartchip.Sec

structure RxDesc where
  seq : BitVec 12
  frag : BitVec 4
  moreFrag : Bool
  qos : Bool
  tid : BitVec 4

structure RxPktInfo where
  seqNum : BitVec 12
  fragNum : BitVec 4
  moreFrag : Bool
  wlanHdrLen : Nat
  qosFlag : Bool
  qosPri : UInt8
  ackPolicy : UInt8
  amsdu : Bool
  bdecrypted : Bool
  encryptAlgo : EncryptAlgo
  ivLen : Nat
  icvLen : Nat
  dstAddr : List UInt8
  srcAddr : List UInt8
  txAddr : List UInt8
  rxAddr : List UInt8
  bssid : List UInt8

/-- `rx_pkt_t`: the socket buffer is `len` bytes at `pdata`. -/
structure RxPkt where
  mem : Mem
  pdata : Nat
  len : Nat
  info : RxPktInfo

def RxPkt.skb (pkt : RxPkt) : List UInt8 := pkt.mem.read pkt.pdata pkt.len

structure RxWdn where
  bssid : MacAddr
  dot118021XPrivacy : EncryptAlgo
  dot118021xUncstKey : Keytype
  seqCtrlRecorder : BitVec 4 → UInt16

structure RxNic where
  workMode : WorkMode
  localAddr : MacAddr
  auth8021X : Bool
  dot118021XGrpPrivacy : EncryptAlgo
  dot11PrivacyAlgrthm : EncryptAlgo
  binstallGrpkey : Bool
  secInfo : SecInfo
  wdnFindInfo : List UInt8 → Option Nat
  wdn : Nat → RxWdn

/-- `wf_rx_rxd_prase` on a cleared `rx_pkt_t`. -/
def wfRxRxdPrase (rxd : RxDesc) : RxPktInfo where
  seqNum := rxd.seq
  fragNum := rxd.frag
  moreFrag := rxd.moreFrag
  wlanHdrLen := 0
  qosFlag := rxd.qos
  qosPri := UInt8.ofNat rxd.tid.toNat
  ackPolicy := 0
  amsdu := false
  bdecrypted := false
  encryptAlgo := .noPrivacy
  ivLen := 0
  icvLen := 0
  dstAddr := List.replicate 6 0
  srcAddr := List.replicate 6 0
  txAddr := List.replicate 6 0
  rxAddr := List.replicate 6 0
  bssid := List.replicate 6 0

/-! ## Addresses -/

def rxDataPktSta2sta (nic : RxNic) (wdn : RxWdn) (pkt : RxPkt) :
    Option RxPkt :=
  let da := getAddr1 pkt.mem pkt.pdata
  let sa := getAddr2 pkt.mem pkt.pdata
  let bssid := getAddr3 pkt.mem pkt.pdata
  if nic.workMode ≠ .adhoc then none
  else if isBcastAddr da = false ∧
      (bssid ≠ wdn.bssid.toList ∨ da ≠ nic.localAddr.toList) then none
  else some { pkt with info := { pkt.info with
    dstAddr := da, srcAddr := sa, bssid, rxAddr := da, txAddr := sa } }

def rxDataPktAp2sta (nic : RxNic) (wdn : RxWdn) (pkt : RxPkt) :
    Option RxPkt :=
  let da := getAddr1 pkt.mem pkt.pdata
  let sa := getAddr3 pkt.mem pkt.pdata
  let bssid := getAddr2 pkt.mem pkt.pdata
  if nic.workMode ≠ .infra then none
  else if isBcastAddr da = false ∧
      (bssid ≠ wdn.bssid.toList ∨ da ≠ nic.localAddr.toList) then none
  else some { pkt with info := { pkt.info with
    dstAddr := da, srcAddr := sa, bssid, rxAddr := da, txAddr := bssid } }

def rxDataPktSta2ap (nic : RxNic) (pkt : RxPkt) : Option RxPkt :=
  let da := getAddr3 pkt.mem pkt.pdata
  let sa := getAddr2 pkt.mem pkt.pdata
  let bssid := getAddr1 pkt.mem pkt.pdata
  if nic.workMode ≠ .master then none
  else if bssid ≠ nic.localAddr.toList then none
  else some { pkt with info := { pkt.info with
    dstAddr := da, srcAddr := sa, rxAddr := bssid, txAddr := sa, bssid } }

def rxCheckSeqCtrl (wdn : RxWdn) (rxd : RxDesc) (pkt : RxPkt) : Option RxWdn :=
  let seqCtrl : UInt16 :=
    ⟨(pkt.info.fragNum.setWidth 16) ||| (pkt.info.seqNum.setWidth 16 <<< 4)⟩
  if wdn.seqCtrlRecorder rxd.tid = seqCtrl ∧ getHdrRetry pkt.mem pkt.pdata then
    none
  else some { wdn with
    seqCtrlRecorder := Function.update wdn.seqCtrlRecorder rxd.tid seqCtrl }

/-- The switch of `rx_check_data_frame_valid`.  In the modes that are not
checked the addresses stay cleared. -/
def rxCheckAddrs (nic : RxNic) (wdn : RxWdn) (pkt : RxPkt) : Option RxPkt :=
  match nic.workMode with
  | .infra =>
      if getHdrToFromDs pkt.mem pkt.pdata ≠ 0x0200 then none
      else rxDataPktAp2sta nic wdn pkt
  | .master =>
      if getHdrToFromDs pkt.mem pkt.pdata ≠ 0x0100 then none
      else rxDataPktSta2ap nic pkt
  | .adhoc => rxDataPktSta2sta nic wdn pkt
  | .other => some pkt

def rxCheckDataFrameValid (nic : RxNic) (wdn : RxWdn) (rxd : RxDesc)
    (pkt : RxPkt) : Option (RxWdn × RxPkt) := do
  let pkt ← rxCheckAddrs nic wdn pkt
  let wdn ← rxCheckSeqCtrl wdn rxd pkt
  some (wdn, pkt)

/-! ## Header fields -/

/-- `MAC_FRAME_TYPE_QOS_DATA` has a type bit that `GET_HDR_SubTpye` masks out. -/
def rxParseQosCtrlField (pkt : RxPkt) : RxPkt :=
  let info := pkt.info
  let qosFlag := info.qosFlag ||
    (getHdrSubType pkt.mem pkt.pdata &&& 0x0088 == 0x0088)
  let offset :=
    if getHdrToFromDs pkt.mem pkt.pdata >>> 8 = 0x03 then 30 else 24
  let qc := pkt.pdata + offset
  if qosFlag then
    { pkt with info := { info with
        qosFlag
        wlanHdrLen := offset + 2
        qosPri := (getTid pkt.mem qc).toUInt8
        ackPolicy := (getAckPolicy pkt.mem qc).toUInt8
        amsdu := getAmsdu pkt.mem qc } }
  else
    { pkt with info := { info with
        qosFlag
        wlanHdrLen := offset
        qosPri := 0
        ackPolicy := 0
        amsdu := false } }

def rxParseHtCtrlField (pkt : RxPkt) : RxPkt :=
  if getHdrOrder pkt.mem pkt.pdata then
    { pkt with info := { pkt.info with wlanHdrLen := pkt.info.wlanHdrLen + 4 } }
  else pkt

def setEncryptAlgoNum (nic : RxNic) (wdn : RxWdn) (pkt : RxPkt) : RxPkt :=
  let encryptAlgo :=
    if getHdrProtected pkt.mem pkt.pdata = false then .noPrivacy
    else if nic.auth8021X then
      if isMcast pkt.info.rxAddr then nic.dot118021XGrpPrivacy
      else wdn.dot118021XPrivacy
    else nic.dot11PrivacyAlgrthm
  { pkt with info := { pkt.info with encryptAlgo } }

def rxIvLen : EncryptAlgo → Nat
  | .wep40 | .wep104 => 4
  | .tkip | .aes => 8
  | .sms4 => 18
  | _ => 0

def rxIcvLen : EncryptAlgo → Nat
  | .wep40 | .wep104 | .tkip => 4
  | .sms4 => 16
  | _ => 0

def setIvIcvLen (pkt : RxPkt) : RxPkt :=
  { pkt with info := { pkt.info with
      ivLen := rxIvLen pkt.info.encryptAlgo
      icvLen := rxIcvLen pkt.info.encryptAlgo } }

/-! ## Decryption -/

def decryptBody (key : List UInt8) (pkt : RxPkt) : Option RxPkt :=
  let payload := pkt.pdata + pkt.info.wlanHdrLen + pkt.info.ivLen
  let payloadLen := pkt.len -
    (pkt.info.wlanHdrLen + pkt.info.ivLen + pkt.info.icvLen)
  let plain := (arc4Encrypt (arc4Init key)
    (pkt.mem.read payload (payloadLen + pkt.info.icvLen))).1
  if (le32 (getCrc32 (plain.take payloadLen))).take pkt.info.icvLen ≠
      plain.drop payloadLen then none
  else some { pkt with mem := pkt.mem.write payload plain }

def wepDecrypt (nic : RxNic) (pkt : RxPkt) : Option RxPkt :=
  let iv := pkt.mem.read (pkt.pdata + pkt.info.wlanHdrLen) 4
  decryptBody (wepKeyOf nic.secInfo iv) pkt

def tkipKey (nic : RxNic) (info : RxPktInfo) (iv : List UInt8) :
    Option Keytype :=
  if isMcast info.rxAddr then
    if nic.binstallGrpkey then
      some (nic.secInfo.dot118021XGrpKey ((iv.getD 3 0 >>> 6) &&& 0x3))
    else none
  else (nic.wdnFindInfo info.txAddr).map fun id =>
    (nic.wdn id).dot118021xUncstKey

def tkipDecrypt (nic : RxNic) (pkt : RxPkt) : Option RxPkt := do
  let iv := pkt.mem.read (pkt.pdata + pkt.info.wlanHdrLen) 8
  let prwskey ← tkipKey nic pkt.info iv
  decryptBody (tkipPacketKey prwskey.toList pkt.info.txAddr iv) pkt

def wfSecDecryptor (nic : RxNic) (pkt : RxPkt) : Option RxPkt :=
  let res :=
    match pkt.info.encryptAlgo with
    | .wep40 | .wep104 => wepDecrypt nic pkt
    | .tkip => tkipDecrypt nic pkt
    | _ => some pkt
  res.map fun pkt => { pkt with info := { pkt.info with bdecrypted := true } }

def parseHeader (nic : RxNic) (wdn : RxWdn) (pkt : RxPkt) : RxPkt :=
  setIvIcvLen (setEncryptAlgoNum nic wdn
    (rxParseHtCtrlField (rxParseQosCtrlField pkt)))

/-- What `rx_defrag` returns is not used: every fragment is dropped. -/
def rxProcessDataFrame (nic : RxNic) (wdn : RxWdn) (pkt : RxPkt) :
    Option RxPkt :=
  let pkt := parseHeader nic wdn pkt
  let res :=
    if getHdrProtected pkt.mem pkt.pdata then wfSecDecryptor nic pkt
    else some pkt
  res.filter fun pkt => !pkt.info.moreFrag && pkt.info.fragNum == 0

/-- `wf_rx_common_process` on a data frame; the station is that of the
transmitter address. -/
def wfRxCommonProcess (nic : RxNic) (rxd : RxDesc) (mem : Mem)
    (pdata len : Nat) : Option (RxNic × RxPkt) := do
  let pkt : RxPkt := { mem, pdata, len, info := wfRxRxdPrase rxd }
  let pwdn ← nic.wdnFindInfo (getAddr2 mem pdata)
  if getHdrType mem pdata ≠ 0x0008 then none
  else
    let (wdn, pkt) ← rxCheckDataFrameValid nic (nic.wdn pwdn) rxd pkt
    let nic := { nic with wdn := Function.update nic.wdn pwdn wdn }
    let pkt ← rxProcessDataFrame nic wdn pkt
    some (nic, pkt)

/-! ## From 802.11 to Ethernet -/

/-- `pkt_trim` leaves a buffer that is too short as it is. -/
def pktTrim (pkt : RxPkt) (size : Nat) : RxPkt :=
  if pkt.len < size then pkt else { pkt with len := pkt.len - size }

/-- The header is replaced in place; `none` is the return of `-1`. -/
def transferHdr (pkt : RxPkt) : Option RxPkt :=
  if pkt.len = pkt.info.wlanHdrLen then none
  else
    let snapHdrOffset := pkt.info.wlanHdrLen + pkt.info.ivLen
    let bsnap := isSnapHdr pkt.mem (pkt.pdata + snapHdrOffset)
    let rmvLen := snapHdrOffset + if bsnap then snapHdrSize else 0
    if pkt.len < rmvLen then none
    else
      let dataLen := UInt16.ofNat (pkt.len - rmvLen)
      let pull := rmvLen - ethHlen + if bsnap then 2 else 0
      if pkt.len < pull then none
      else
        let pbuf := pkt.pdata + pull
        let mem := (pkt.mem.write pbuf pkt.info.dstAddr).write (pbuf + 6)
          pkt.info.srcAddr
        let mem := if bsnap then mem else mem.write (pbuf + 12) (be16 dataLen)
        some { pkt with mem, pdata := pbuf, len := pkt.len - pull }

def wlanToEth (pkt : RxPkt) : Option RxPkt :=
  transferHdr
    (if pkt.info.bdecrypted then pktTrim pkt pkt.info.icvLen else pkt)

/-! ## A-MSDUs -/

/-- The new buffer has room for the addresses in front of the MSDU; what is
behind the MSDU in it is what the allocator left there. -/
def allocMsdu (fresh : Mem) (da sa msdu : List UInt8) : List UInt8 :=
  let mem := fresh.write 14 msdu
  if isSnapHdr mem 14 then
    da ++ sa ++ if msdu.length < snapHdrSize then msdu
      else msdu.drop snapHdrSize
  else da ++ sa ++ be16 (UInt16.ofNat msdu.length) ++ msdu

def maxSubframeCount : Nat := 64

/-- The loop of `process_amsdu`; `allocSkb i` is the `i`-th new buffer. -/
def amsduLoop (allocSkb : Nat → Option Mem) (mem : Mem) :
    Nat → Nat → Nat → Nat → List (List UInt8)
  | 0, _, _, _ => []
  | fuel + 1, nrSubframes, pdata, pktlen =>
      let subframeSize := (mem.readBe16 (pdata + 12)).toNat
      if pktlen < subframeSize + ethHlen then []
      else
        match allocSkb nrSubframes with
        | none => []
        | some fresh =>
            let msdu := mem.read (pdata + ethHlen) subframeSize
            allocMsdu fresh (mem.read pdata 6) (mem.read (pdata + 6) 6) msdu ::
              if maxSubframeCount < nrSubframes + 1 then []
              else
                let pdata := pdata + ethHlen + subframeSize
                let pktlen := pktlen - ethHlen - subframeSize
                let paddingLen := if pktlen = 0 then 0
                  else (4 - (subframeSize + ethHlen) % 4) % 4
                if pktlen < paddingLen then []
                else if ethHlen < pktlen - paddingLen then
                  amsduLoop allocSkb mem fuel (nrSubframes + 1)
                    (pdata + paddingLen) (pktlen - paddingLen)
                else []

/-- The ICV is still behind the last subframe. -/
def processAmsdu (allocSkb : Nat → Option Mem) (pkt : RxPkt) :
    List (List UInt8) :=
  if getHdrType pkt.mem pkt.pdata ≠ 0x0008 then []
  else
    let offset := pkt.info.wlanHdrLen + pkt.info.ivLen
    amsduLoop allocSkb pkt.mem (pkt.len + 1) 0 (pkt.pdata + offset)
      (pkt.len - offset)

/-! ## The two delivery paths -/

def rxDataUploadProcess (allocSkb : Nat → Option Mem) (pkt : RxPkt) :
    List (List UInt8) :=
  if pkt.info.amsdu then processAmsdu allocSkb pkt
  else (wlanToEth pkt).toList.map RxPkt.skb

def withTimeout (ba : RecvBaCtrl (List UInt8)) : RecvBaCtrl (List UInt8) :=
  if ba.waitTimeout = 0 then { ba with waitTimeout := 50 } else ba

/--
The buffers given to `upload_skb` and the control blocks afterwards.  `baCtl` is
`none` when the station has none, and the outcome is `none` when the reorder
engine does not return.
-/
def rxDataReorderProcess (baCtl : Option (BaCtl (List UInt8))) (pkt : RxPkt) :
    Option (List (List UInt8) × Option (BaCtl (List UInt8))) :=
  if prio : pkt.info.qosPri.toNat < tidNum then
    match wlanToEth pkt with
    | none => some ([], baCtl)
    | some pkt =>
        if pkt.info.qosFlag = false then some ([pkt.skb], baCtl)
        else
          match baCtl with
          | none => some ([pkt.skb], none)
          | some baCtl =>
              let ba := baCtl ⟨_, prio⟩
              if ba.enable = false then some ([pkt.skb], some baCtl)
              else
                (wfRxDataReorderCore (seqField pkt.info.seqNum) (some pkt.skb)
                  (withTimeout ba)).map fun next =>
                    (next.uploaded.drop ba.uploaded.length,
                      some (Function.update baCtl ⟨_, prio⟩ next))
  else some ([], baCtl)

end Smartchip.Rx
