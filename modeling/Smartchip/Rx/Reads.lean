import Smartchip.Foundation.Touch
import Smartchip.Rx.Data
import Smartchip.Rx.Slicing

/-!
# The reads of the receive path

What `rx_work`, `mpdu_process`, `wlan_to_eth` (`os/linux/rx_linux.c`),
`wf_rx_common_process` (`nic/rx.c`) and the decryption (`nic/sec_wep.c`, `nic/sec_tkip.c`)
read of a received packet, whatever is in it.  The functions that these call for a
management frame, for A-MSDUs and for the signal strength are not followed.
-/

namespace Smartchip.Rx

open Smartchip.Foundation Smartchip.Frame Smartchip.Sec

/-! ## The packet and what it meets -/

/-- What a packet finds when it comes: whether the interface saves power, whether it knows
any station, whether there is a socket buffer, whether `wf_wlan_mgmt_rx_frame` returns 0,
and whether packets are put in order. -/
structure RxEnv where
  lps : Bool
  nic : RxNic
  stations : Bool
  alloc : Bool
  mgmtDone : Bool
  baEnable : Bool

/-- The fields of a descriptor that `wf_rx_rxd_prase` takes. -/
def rxdOf (build : RxBuild) (mem : Mem) : RxDesc :=
  if build.richv200 then
    { seq := BitVec.ofNat 12 (rxdBits mem 16 0 12)
      frag := BitVec.ofNat 4 (rxdBits mem 8 20 4)
      moreFrag := rxdBits mem 8 19 1 == 1
      qos := rxdBits mem 4 27 1 == 1
      tid := BitVec.ofNat 4 (rxdBits mem 4 28 4) }
  else
    { seq := BitVec.ofNat 12 (rxdBits mem 8 0 12)
      frag := BitVec.ofNat 4 (rxdBits mem 8 12 4)
      moreFrag := rxdBits mem 4 6 1 == 1
      qos := rxdBits mem 0 23 1 == 1
      tid := BitVec.ofNat 4 (rxdBits mem 4 0 4) }

def rxdPhyStatus (build : RxBuild) (mem : Mem) : Bool :=
  rxdBits mem 0 (if build.richv200 then 18 else 26) 1 == 1

def rxdLenField (build : RxBuild) (mem : Mem) : Nat :=
  rxdBits mem (if build.richv200 then 4 else 0) 0 14

def wfPktTypeFrame : Nat := 3

def hifHdrLen : Nat := rxdescSize + 32

/-- `sizeof(recv_phy_status_st)` -/
def phyStatusSize : Nat := 28

/-- The frame behind the descriptor and the driver information. -/
def framePkt (build : RxBuild) (mem : Mem) (pktLen : Nat) : RxPkt where
  mem := mem
  pdata := hifHdrLen
  len := pktLen - hifHdrLen
  info := wfRxRxdPrase (rxdOf build mem)

section Fields

variable (pkt : RxPkt)

def frameControl : Touch := .read pkt.pdata 2

def addr1 : Touch := .read (pkt.pdata + 4) 6

def addr2 : Touch := .read (pkt.pdata + 10) 6

def addr3 : Touch := .read (pkt.pdata + 16) 6

end Fields

/-! ## `wf_rx_common_process` -/

/-- Where `get_da` finds the destination. -/
def getDa (mem : Mem) (pframe : Nat) : Nat :=
  if mem.readLe16 pframe &&& 0x0100 = 0 then pframe + 4 else pframe + 16

/-- How many bytes `MacAddr_isBcst` looks at: it stops at the first that is not `0xff`. -/
def bcstLooks (mem : Mem) (addr : Nat) : Nat :=
  ((mem.read addr 5).takeWhile (· == 0xff)).length + 1

def lpsTouches (pkt : RxPkt) : List Touch :=
  let da := getDa pkt.mem pkt.pdata
  [frameControl pkt, .read da (bcstLooks pkt.mem da)] ++
    if pkt.mem.read da 6 = bcAddr then [] else [frameControl pkt, .read da 1]

/-- `rx_data_pkt_ap2sta` -/
def ap2staTouches (nic : RxNic) (wdn : RxWdn) (pkt : RxPkt) : List Touch :=
  let copies := [addr1 pkt, addr3 pkt, addr1 pkt, addr2 pkt, addr2 pkt]
  let da := getAddr1 pkt.mem pkt.pdata
  [addr1 pkt] ++
    if isBcastAddr da = true then copies
    else
      [addr2 pkt] ++
        if getAddr2 pkt.mem pkt.pdata ≠ wdn.bssid.toList then []
        else [addr1 pkt] ++ if da ≠ nic.localAddr.toList then [] else copies

/-- `rx_data_pkt_sta2ap` -/
def sta2apTouches (nic : RxNic) (pkt : RxPkt) : List Touch :=
  [addr1 pkt] ++
    if getAddr1 pkt.mem pkt.pdata ≠ nic.localAddr.toList then []
    else [addr3 pkt, addr2 pkt, addr1 pkt, addr2 pkt, addr1 pkt]

/-- `rx_data_pkt_sta2sta` -/
def sta2staTouches (nic : RxNic) (wdn : RxWdn) (pkt : RxPkt) : List Touch :=
  let copies := [addr1 pkt, addr2 pkt, addr3 pkt, addr1 pkt, addr2 pkt]
  let da := getAddr1 pkt.mem pkt.pdata
  [addr1 pkt] ++
    if isBcastAddr da = true then copies
    else
      [addr3 pkt] ++
        if getAddr3 pkt.mem pkt.pdata ≠ wdn.bssid.toList then []
        else [addr1 pkt] ++ if da ≠ nic.localAddr.toList then [] else copies

/-- The switch of `rx_check_data_frame_valid`. -/
def addrTouches (nic : RxNic) (wdn : RxWdn) (pkt : RxPkt) : List Touch :=
  match nic.workMode with
  | .infra =>
      frameControl pkt ::
        if getHdrToFromDs pkt.mem pkt.pdata ≠ 0x0200 then [] else ap2staTouches nic wdn pkt
  | .master =>
      frameControl pkt ::
        if getHdrToFromDs pkt.mem pkt.pdata ≠ 0x0100 then [] else sta2apTouches nic pkt
  | .adhoc => sta2staTouches nic wdn pkt
  | .other => []

/-- The length that the two ciphers compute is unsigned. -/
def payloadLen (pkt : RxPkt) : UInt32 :=
  UInt32.ofNat pkt.len -
    UInt32.ofNat (pkt.info.wlanHdrLen + pkt.info.ivLen + pkt.info.icvLen)

def lengthTouches (pkt : RxPkt) : List Touch :=
  if pkt.len < pkt.info.wlanHdrLen + pkt.info.ivLen + pkt.info.icvLen then [.below] else []

/-- The payload with the ICV is decrypted, its checksum is computed, the ICV compared. -/
def bodyTouches (pkt : RxPkt) : List Touch :=
  let payloadOfs := pkt.info.wlanHdrLen + pkt.info.ivLen
  let icvOfs := UInt32.ofNat payloadOfs + payloadLen pkt
  [.read (pkt.pdata + payloadOfs) (payloadLen pkt + UInt32.ofNat pkt.info.icvLen).toNat,
    .read (pkt.pdata + payloadOfs) (payloadLen pkt).toNat,
    .read (pkt.pdata + icvOfs.toNat) pkt.info.icvLen]

/-- `wep_decrypt` -/
def wepTouches (pkt : RxPkt) : List Touch :=
  lengthTouches pkt ++ [.read (pkt.pdata + pkt.info.wlanHdrLen) 4] ++ bodyTouches pkt

/-- `tkip_decrypt` -/
def tkipTouches (nic : RxNic) (pkt : RxPkt) : List Touch :=
  let iv := pkt.mem.read (pkt.pdata + pkt.info.wlanHdrLen) 8
  lengthTouches pkt ++
    if (tkipKey nic pkt.info iv).isNone = true then []
    else [.read (pkt.pdata + pkt.info.wlanHdrLen) 8] ++ bodyTouches pkt

/-- `wf_sec_decryptor` -/
def decryptTouches (nic : RxNic) (pkt : RxPkt) : List Touch :=
  frameControl pkt ::
    match pkt.info.encryptAlgo with
    | .wep40 | .wep104 => wepTouches pkt
    | .tkip => tkipTouches nic pkt
    | _ => []

def qosOffset (pkt : RxPkt) : Nat :=
  if getHdrToFromDs pkt.mem pkt.pdata >>> 8 = 0x03 then 30 else 24

/-- `rx_process_data_frame` -/
def processTouches (nic : RxNic) (wdn : RxWdn) (pkt : RxPkt) : List Touch :=
  let parsed := parseHeader nic wdn pkt
  [frameControl pkt, frameControl pkt] ++
    (if (rxParseQosCtrlField pkt).info.qosFlag = true then
      [.read (pkt.pdata + qosOffset pkt) 2] else []) ++
    [frameControl pkt, frameControl pkt, frameControl pkt] ++
    if getHdrProtected pkt.mem pkt.pdata = true then decryptTouches nic parsed else []

/-! ## `wlan_to_eth` -/

/-- `is_snap_hdr` -/
def snapTouches (mem : Mem) (phdr : Nat) : List Touch :=
  let rfc1042 := mem.read phdr snapHdrSize = wlRfc1042Header
  let ipx := mem.read (phdr + snapHdrSize) 2 = snapEthTypeIpx
  let aarp := mem.read (phdr + snapHdrSize) 2 = snapEthTypeAppletalkAarp
  [.read phdr snapHdrSize] ++
    (if rfc1042 then
      .read (phdr + snapHdrSize) 2 :: if ipx then [] else [.read (phdr + snapHdrSize) 2]
    else []) ++
    if rfc1042 ∧ ¬ ipx ∧ ¬ aarp then [] else [.read phdr snapHdrSize]

/-- The packet with the ICV cut off. -/
def trimmed (pkt : RxPkt) : RxPkt :=
  if pkt.info.bdecrypted then pktTrim pkt pkt.info.icvLen else pkt

def wlanToEthTouches (pkt : RxPkt) : List Touch :=
  let pkt := trimmed pkt
  let snapHdrOffset := pkt.info.wlanHdrLen + pkt.info.ivLen
  let rmvLen := snapHdrOffset +
    if isSnapHdr pkt.mem (pkt.pdata + snapHdrOffset) then snapHdrSize else 0
  if pkt.len = pkt.info.wlanHdrLen then []
  else
    snapTouches pkt.mem (pkt.pdata + snapHdrOffset) ++
      if pkt.len < rmvLen then [] else [.read (pkt.pdata + rmvLen) 2]

/-! ## `mpdu_process` -/

def station (env : RxEnv) (pkt : RxPkt) : Option Nat :=
  if env.stations = true then env.nic.wdnFindInfo (getAddr2 pkt.mem pkt.pdata) else none

/-- A data frame, from the check of it to the upload. -/
def dataTouches (env : RxEnv) (rxd : RxDesc) (pwdn : Nat) (pkt : RxPkt) : List Touch :=
  let nic := env.nic
  addrTouches nic (nic.wdn pwdn) pkt ++
    match rxCheckAddrs nic (nic.wdn pwdn) pkt with
    | none => [.free true]
    | some pkt =>
        frameControl pkt ::
          match rxCheckSeqCtrl (nic.wdn pwdn) rxd pkt with
          | none => [.free true]
          | some wdn =>
              let nic := { nic with wdn := Function.update nic.wdn pwdn wdn }
              processTouches nic wdn pkt ++
                match rxProcessDataFrame nic wdn pkt with
                | none => [.free true]
                | some pkt =>
                    frameControl pkt ::
                      if env.baEnable = true ∨ pkt.info.amsdu = false then
                        wlanToEthTouches pkt
                      else []

/-- `rx_check_mngt_frame_valid` and the end of a management frame. -/
def mgmtTouches (env : RxEnv) (lenField : Nat) (pkt : RxPkt) : List Touch :=
  let pra := getAddr1 pkt.mem pkt.pdata
  let done := (if env.mgmtDone = true then [frameControl pkt] else []) ++ [.free true]
  match env.nic.workMode with
  | .infra | .adhoc =>
      if 2304 + 28 < lenField then [.free true]
      else
        [addr1 pkt, addr1 pkt] ++
          if isBcastAddr pra = true then addr2 pkt :: done
          else
            addr1 pkt ::
              if pra ≠ env.nic.localAddr.toList then [.free true] else addr2 pkt :: done
  | _ => done

/-- `wf_rx_common_process` and what `mpdu_process` does behind it. -/
def frameTouches (build : RxBuild) (env : RxEnv) (pkt : RxPkt) : List Touch :=
  (if env.stations = true then [addr2 pkt] else []) ++
    (if env.lps = true then lpsTouches pkt else []) ++
    frameControl pkt ::
      if getHdrType pkt.mem pkt.pdata = 0x0008 then
        match station env pkt with
        | none => [.free true]
        | some pwdn => dataTouches env (rxdOf build pkt.mem) pwdn pkt
      else if getHdrType pkt.mem pkt.pdata = 0 then
        mgmtTouches env (rxdLenField build pkt.mem) pkt
      else [frameControl pkt, .free true]

/-- The packet is at address 0.  The first exit is in front of the `wf_memset` of `pkt`. -/
def mpduTouches (build : RxBuild) (env : RxEnv) (mem : Mem) (pktLen : Nat) : List Touch :=
  if build.richv200 = true ∧ rxdBits mem 0 0 2 ≠ wfPktTypeFrame then
    [.read 0 1, .free false]
  else if env.alloc = false then [.read 0 1]
  else
    [.read 0 1, .read 0 pktLen, .read 0 rxdescSize] ++
      if pktLen < hifHdrLen then [.free true]
      else
        (if rxdPhyStatus build mem = true then [.read rxdescSize phyStatusSize] else []) ++
          frameTouches build env (framePkt build mem pktLen)

/-! ## `rx_work` -/

/-- Where the loop of `rx_work` checks a descriptor, and what remains of the buffer. -/
def rxTurns (build : RxBuild) (mem : Mem) : Nat → Nat → Nat → List (Nat × Nat)
  | 0, _, _ => []
  | fuel + 1, pbuf, remainLen =>
      let packet := wfRxGetPktLenAndCheckValid build mem pbuf remainLen
      let onceLen := wfRnd8 packet.1
      (pbuf, remainLen) ::
        if packet.2 = false ∨ remainLen ≤ onceLen then []
        else rxTurns build mem fuel (pbuf + onceLen) (remainLen - onceLen)

end Smartchip.Rx
