import Smartchip.Rx.Data

/-!
# What the receive path leaves in a packet

The facts about a packet that `wf_rx_common_process` accepts, and the Ethernet
frame that `wlan_to_eth` makes of it.
-/

namespace Smartchip.Rx

open Smartchip.Foundation Smartchip.Frame Smartchip.Sec

structure Processed (pkt : RxPkt) : Prop where
  type : getHdrType pkt.mem pkt.pdata = 0x0008
  hdrLen : 24 ≤ pkt.info.wlanHdrLen
  qosPri : pkt.info.qosPri.toNat < tidNum
  dstAddr : pkt.info.dstAddr.length = 6
  srcAddr : pkt.info.srcAddr.length = 6

structure Addressed (pkt pkt' : RxPkt) : Prop where
  mem : pkt'.mem = pkt.mem
  pdata : pkt'.pdata = pkt.pdata
  len : pkt'.len = pkt.len
  info : ∃ dstAddr srcAddr txAddr rxAddr bssid, pkt'.info = { pkt.info with
    dstAddr, srcAddr, txAddr, rxAddr, bssid }
  dstAddr : pkt'.info.dstAddr.length = 6
  srcAddr : pkt'.info.srcAddr.length = 6

/-- The two addresses of a packet are read from its header. -/
theorem Addressed.ofHeader (pkt : RxPkt) (dst src : Nat) (txAddr rxAddr bssid : List UInt8) :
    Addressed pkt { pkt with info := { pkt.info with
      dstAddr := pkt.mem.read dst 6, srcAddr := pkt.mem.read src 6, txAddr, rxAddr, bssid } } :=
  ⟨rfl, rfl, rfl, ⟨_, _, _, _, _, rfl⟩, Mem.length_read _ _ _, Mem.length_read _ _ _⟩

theorem rxDataPktSta2sta_addressed {nic : RxNic} {wdn : RxWdn}
    {pkt pkt' : RxPkt} (h : rxDataPktSta2sta nic wdn pkt = some pkt') :
    Addressed pkt pkt' := by
  unfold rxDataPktSta2sta at h
  simp only [Option.ite_none_left_eq_some, Option.some.injEq] at h
  obtain ⟨-, -, rfl⟩ := h
  exact .ofHeader pkt _ _ _ _ _

theorem rxDataPktAp2sta_addressed {nic : RxNic} {wdn : RxWdn}
    {pkt pkt' : RxPkt} (h : rxDataPktAp2sta nic wdn pkt = some pkt') :
    Addressed pkt pkt' := by
  unfold rxDataPktAp2sta at h
  simp only [Option.ite_none_left_eq_some, Option.some.injEq] at h
  obtain ⟨-, -, rfl⟩ := h
  exact .ofHeader pkt _ _ _ _ _

theorem rxDataPktSta2ap_addressed {nic : RxNic} {pkt pkt' : RxPkt}
    (h : rxDataPktSta2ap nic pkt = some pkt') : Addressed pkt pkt' := by
  unfold rxDataPktSta2ap at h
  simp only [Option.ite_none_left_eq_some, Option.some.injEq] at h
  obtain ⟨-, -, rfl⟩ := h
  exact .ofHeader pkt _ _ _ _ _

theorem rxCheckAddrs_addressed {nic : RxNic} {wdn : RxWdn}
    {pkt pkt' : RxPkt} (dst : pkt.info.dstAddr.length = 6)
    (src : pkt.info.srcAddr.length = 6)
    (h : rxCheckAddrs nic wdn pkt = some pkt') : Addressed pkt pkt' := by
  unfold rxCheckAddrs at h
  cases mode : nic.workMode with
  | infra =>
      simp only [mode, Option.ite_none_left_eq_some] at h
      exact rxDataPktAp2sta_addressed h.2
  | master =>
      simp only [mode, Option.ite_none_left_eq_some] at h
      exact rxDataPktSta2ap_addressed h.2
  | adhoc =>
      simp only [mode] at h
      exact rxDataPktSta2sta_addressed h
  | other =>
      simp only [mode, Option.some.injEq] at h
      subst pkt'
      exact ⟨rfl, rfl, rfl, ⟨_, _, _, _, _, rfl⟩, dst, src⟩

/-! ## The parsed header -/

def hdrLenOf (pkt : RxPkt) : Nat :=
  (if getHdrToFromDs pkt.mem pkt.pdata >>> 8 = 0x03 then 30 else 24) +
    (if pkt.info.qosFlag then 2 else 0) +
    if getHdrOrder pkt.mem pkt.pdata then 4 else 0

def algoOf (nic : RxNic) (wdn : RxWdn) (pkt : RxPkt) : EncryptAlgo :=
  (setEncryptAlgoNum nic wdn pkt).info.encryptAlgo

theorem getTid_lt (mem : Mem) (qc : Nat) :
    (getTid mem qc).toUInt8.toNat < tidNum := by
  have low : (getTid mem qc).toNat ≤ 15 := by
    rw [getTid, UInt16.toNat_and]
    exact Nat.and_le_right
  rw [UInt16.toNat_toUInt8]
  unfold tidNum
  omega

/-- The subtype alone never marks a frame as QoS. -/
theorem subType_not_qos (mem : Mem) (pbuf : Nat) :
    (getHdrSubType mem pbuf &&& 0x0088 == 0x0088) = false := by
  rw [getHdrSubType, UInt16.and_assoc,
    show (0x00F0 : UInt16) &&& 0x0088 = 0x0080 from rfl, beq_eq_false_iff_ne]
  intro equal
  have bit := congrArg (· &&& (0x0008 : UInt16)) equal
  simp only [UInt16.and_assoc] at bit
  rw [show (0x0080 : UInt16) &&& 0x0008 = 0 from rfl, UInt16.and_zero] at bit
  exact absurd bit (by decide)

theorem rxParseQosCtrlField_eq (pkt : RxPkt) :
    ∃ qosPri ackPolicy amsdu,
      rxParseQosCtrlField pkt = { pkt with info := { pkt.info with
          wlanHdrLen :=
            (if getHdrToFromDs pkt.mem pkt.pdata >>> 8 = 0x03 then 30 else 24) +
              if pkt.info.qosFlag then 2 else 0
          qosPri, ackPolicy, amsdu } } ∧
        qosPri.toNat < tidNum ∧ (pkt.info.qosFlag = false → amsdu = false) := by
  unfold rxParseQosCtrlField
  simp only [subType_not_qos, Bool.or_false]
  cases qos : pkt.info.qosFlag with
  | false => exact ⟨0, 0, false, rfl, by decide, fun _ => rfl⟩
  | true =>
      refine ⟨_, _, _, rfl, getTid_lt _ _, ?_⟩
      intro absent
      contradiction

theorem parseHeader_eq (nic : RxNic) (wdn : RxWdn) (pkt : RxPkt) :
    ∃ qosPri ackPolicy amsdu,
      parseHeader nic wdn pkt = { pkt with info := { pkt.info with
          wlanHdrLen := hdrLenOf pkt
          qosPri, ackPolicy, amsdu
          encryptAlgo := algoOf nic wdn pkt
          ivLen := rxIvLen (algoOf nic wdn pkt)
          icvLen := rxIcvLen (algoOf nic wdn pkt) } } ∧
        qosPri.toNat < tidNum ∧ (pkt.info.qosFlag = false → amsdu = false) := by
  obtain ⟨qosPri, ackPolicy, amsdu, hqos, bounds⟩ := rxParseQosCtrlField_eq pkt
  refine ⟨qosPri, ackPolicy, amsdu, ?_, bounds⟩
  unfold parseHeader rxParseHtCtrlField
  rw [hqos]
  cases order : getHdrOrder pkt.mem pkt.pdata with
  | false => simp [setIvIcvLen, setEncryptAlgoNum, algoOf, hdrLenOf, order]
  | true => simp [setIvIcvLen, setEncryptAlgoNum, algoOf, hdrLenOf, order]

/-! ## Decryption -/

structure Opened (pkt pkt' : RxPkt) : Prop where
  pdata : pkt'.pdata = pkt.pdata
  len : pkt'.len = pkt.len
  info : ∃ bdecrypted, pkt'.info = { pkt.info with bdecrypted }
  before : ∀ start n,
    start + n ≤ pkt.pdata + pkt.info.wlanHdrLen + pkt.info.ivLen →
      pkt'.mem.read start n = pkt.mem.read start n

theorem Opened.refl (pkt : RxPkt) : Opened pkt pkt :=
  ⟨rfl, rfl, ⟨_, rfl⟩, fun _ _ _ => rfl⟩

theorem decryptBody_opened {key : List UInt8} {pkt pkt' : RxPkt}
    (h : decryptBody key pkt = some pkt') : Opened pkt pkt' := by
  unfold decryptBody at h
  simp only [Option.ite_none_left_eq_some, Option.some.injEq] at h
  obtain ⟨-, rfl⟩ := h
  refine ⟨rfl, rfl, ⟨_, rfl⟩, ?_⟩
  intro start n before
  exact Mem.read_write_apart _ (.inl before)

theorem wfSecDecryptor_opened {nic : RxNic} {pkt pkt' : RxPkt}
    (h : wfSecDecryptor nic pkt = some pkt') :
    Opened pkt pkt' ∧ pkt'.info.bdecrypted = true := by
  unfold wfSecDecryptor at h
  simp only [Option.map_eq_some_iff] at h
  obtain ⟨found, hfound, rfl⟩ := h
  have opened : Opened pkt found := by
    cases algo : pkt.info.encryptAlgo with
    | wep40 =>
        simp only [algo] at hfound
        exact decryptBody_opened hfound
    | wep104 =>
        simp only [algo] at hfound
        exact decryptBody_opened hfound
    | tkip =>
        simp only [algo, tkipDecrypt, Option.bind_eq_bind,
          Option.bind_eq_some_iff] at hfound
        obtain ⟨prwskey, -, hfound⟩ := hfound
        exact decryptBody_opened hfound
    | _ =>
        simp only [algo, Option.some.injEq] at hfound
        subst found
        exact Opened.refl pkt
  obtain ⟨bdecrypted, hinfo⟩ := opened.info
  refine ⟨⟨opened.pdata, opened.len, ⟨true, ?_⟩, opened.before⟩, rfl⟩
  rw [hinfo]

theorem rxProcessDataFrame_opened {nic : RxNic} {wdn : RxWdn}
    {pkt pkt' : RxPkt} (h : rxProcessDataFrame nic wdn pkt = some pkt') :
    Opened (parseHeader nic wdn pkt) pkt' := by
  unfold rxProcessDataFrame at h
  simp only [Option.filter_eq_some_iff] at h
  obtain ⟨h, -⟩ := h
  split at h
  · exact (wfSecDecryptor_opened h).1
  · rw [Option.some.injEq] at h
    subst pkt'
    exact Opened.refl _

/-! ## Accepted packets -/

theorem wfRxCommonProcess_cases {nic nic' : RxNic} {rxd : RxDesc} {mem : Mem}
    {pdata len : Nat} {pkt : RxPkt}
    (h : wfRxCommonProcess nic rxd mem pdata len = some (nic', pkt)) :
    ∃ pwdn wdn checked,
      nic.wdnFindInfo (getAddr2 mem pdata) = some pwdn ∧
        getHdrType mem pdata = 0x0008 ∧
        rxCheckAddrs nic (nic.wdn pwdn)
          { mem, pdata, len, info := wfRxRxdPrase rxd } = some checked ∧
        rxCheckSeqCtrl (nic.wdn pwdn) rxd checked = some wdn ∧
        nic' = { nic with wdn := Function.update nic.wdn pwdn wdn } ∧
        rxProcessDataFrame nic' wdn checked = some pkt := by
  unfold wfRxCommonProcess rxCheckDataFrameValid at h
  simp only [Option.bind_eq_bind, Option.bind_eq_some_iff,
    Option.ite_none_left_eq_some, Option.some.injEq, Prod.mk.injEq] at h
  obtain ⟨pwdn, found, type, ⟨wdn, checked⟩, ⟨_, hcheck, _, hseq, hpair⟩, _,
    hprocess, hnic, rfl⟩ := h
  rw [Prod.mk.injEq] at hpair
  obtain ⟨rfl, rfl⟩ := hpair
  rw [hnic] at hprocess
  exact ⟨pwdn, _, _, found, not_not.mp type, hcheck, hseq, hnic.symm, hprocess⟩

theorem wfRxCommonProcess_of {nic : RxNic} {rxd : RxDesc} {mem : Mem}
    {pdata len pwdn : Nat} {wdn : RxWdn} {checked pkt : RxPkt}
    (found : nic.wdnFindInfo (getAddr2 mem pdata) = some pwdn)
    (type : getHdrType mem pdata = 0x0008)
    (hcheck : rxCheckAddrs nic (nic.wdn pwdn)
      { mem, pdata, len, info := wfRxRxdPrase rxd } = some checked)
    (hseq : rxCheckSeqCtrl (nic.wdn pwdn) rxd checked = some wdn)
    (hprocess : rxProcessDataFrame
      { nic with wdn := Function.update nic.wdn pwdn wdn } wdn checked =
        some pkt) :
    wfRxCommonProcess nic rxd mem pdata len =
      some ({ nic with wdn := Function.update nic.wdn pwdn wdn }, pkt) := by
  unfold wfRxCommonProcess rxCheckDataFrameValid
  simp only [found, type, hcheck, hseq, hprocess, Option.bind_eq_bind,
    Option.bind_some, ne_eq, not_true_eq_false, if_false]

theorem getHdrType_congr {mem mem' : Mem} {pbuf : Nat}
    (same : mem.read pbuf 2 = mem'.read pbuf 2) :
    getHdrType mem pbuf = getHdrType mem' pbuf := by
  rw [getHdrType, Mem.readLe16_congr same, getHdrType]

theorem wfRxCommonProcess_processed {nic nic' : RxNic} {rxd : RxDesc}
    {mem : Mem} {pdata len : Nat} {pkt : RxPkt}
    (h : wfRxCommonProcess nic rxd mem pdata len = some (nic', pkt)) :
    Processed pkt := by
  obtain ⟨pwdn, wdn, checked, -, type, hcheck, -, -, hprocess⟩ :=
    wfRxCommonProcess_cases h
  have addressed := rxCheckAddrs_addressed (by rfl) (by rfl) hcheck
  have opened := rxProcessDataFrame_opened hprocess
  obtain ⟨qosPri, ackPolicy, amsdu, hparsed, bound, -⟩ :=
    parseHeader_eq nic' wdn checked
  obtain ⟨bdecrypted, hinfo⟩ := opened.info
  have long : 24 ≤ hdrLenOf checked := by
    unfold hdrLenOf
    split <;> omega
  rw [hparsed] at opened hinfo
  constructor
  · have same := opened.before checked.pdata 2 (by simp only; omega)
    rw [opened.pdata, getHdrType_congr same]
    simp only [addressed.mem, addressed.pdata]
    exact type
  · rw [hinfo]
    exact long
  · rw [hinfo]
    exact bound
  · rw [hinfo]
    exact addressed.dstAddr
  · rw [hinfo]
    exact addressed.srcAddr

/-! ## The Ethernet frame -/

def RxPkt.bodyOffset (pkt : RxPkt) : Nat :=
  pkt.info.wlanHdrLen + pkt.info.ivLen

def RxPkt.bsnap (pkt : RxPkt) : Bool :=
  isSnapHdr pkt.mem (pkt.pdata + pkt.bodyOffset)

/-- The body from the type on, behind a SNAP header; without one the length and
the whole body. -/
def RxPkt.ethRest (pkt : RxPkt) : List UInt8 :=
  if pkt.bsnap then
    pkt.mem.read (pkt.pdata + pkt.bodyOffset + 6) (pkt.len - pkt.bodyOffset - 6)
  else be16 (UInt16.ofNat (pkt.len - pkt.bodyOffset)) ++
    pkt.mem.read (pkt.pdata + pkt.bodyOffset) (pkt.len - pkt.bodyOffset)

theorem read_write_addrs (mem : Mem) (addr k : Nat) {dst src : List UInt8}
    (hdst : dst.length = 6) (hsrc : src.length = 6) :
    ((mem.write addr dst).write (addr + 6) src).read addr (6 + (6 + k)) =
      dst ++ (src ++ mem.read (addr + 12) k) := by
  have first := Mem.read_write_self mem addr dst
  have second := Mem.read_write_self (mem.write addr dst) (addr + 6) src
  rw [hdst] at first
  rw [hsrc] at second
  rw [Mem.read_add, Mem.read_add, Mem.read_write_apart _ (by omega), first,
    second, Mem.read_write_apart _ (by omega), Mem.read_write_apart _ (by omega)]

theorem read_write_addrs_type (mem : Mem) (addr k : Nat)
    {dst src type : List UInt8} (hdst : dst.length = 6) (hsrc : src.length = 6)
    (htype : type.length = 2) :
    (((mem.write addr dst).write (addr + 6) src).write (addr + 12) type).read
        addr (6 + (6 + (2 + k))) =
      dst ++ (src ++ (type ++ mem.read (addr + 14) k)) := by
  have first := Mem.read_write_self mem addr dst
  have second := Mem.read_write_self (mem.write addr dst) (addr + 6) src
  have third := Mem.read_write_self
    ((mem.write addr dst).write (addr + 6) src) (addr + 12) type
  rw [hdst] at first
  rw [hsrc] at second
  rw [htype] at third
  rw [Mem.read_add, Mem.read_add, Mem.read_add, Nat.add_assoc addr 6 6,
    Nat.add_assoc addr (6 + 6) 2, third, Mem.read_write_apart _ (by omega),
    Mem.read_write_apart _ (by omega), first, Mem.read_write_apart _ (by omega),
    second, Mem.read_write_apart _ (by omega), Mem.read_write_apart _ (by omega),
    Mem.read_write_apart _ (by omega)]

section Transfer

variable {pkt : RxPkt}

theorem transferHdr_eq (processed : Processed pkt)
    (long : pkt.bodyOffset + 6 ≤ pkt.len) :
    ∃ eth, transferHdr pkt = some eth ∧ eth.info = pkt.info ∧
      eth.skb = pkt.info.dstAddr ++ (pkt.info.srcAddr ++ pkt.ethRest) := by
  have hdst := processed.dstAddr
  have hsrc := processed.srcAddr
  have hhdr := processed.hdrLen
  have hoffset : pkt.bodyOffset = pkt.info.wlanHdrLen + pkt.info.ivLen := rfl
  unfold transferHdr
  rw [if_neg (by omega), ← hoffset]
  cases hsnap : isSnapHdr pkt.mem (pkt.pdata + pkt.bodyOffset) with
  | true =>
      simp only [hsnap, if_true, snapHdrSize, ethHlen]
      rw [if_neg (by omega), if_neg (by omega)]
      refine ⟨_, rfl, rfl, ?_⟩
      have rest : pkt.ethRest = pkt.mem.read (pkt.pdata + pkt.bodyOffset + 6)
          (pkt.len - pkt.bodyOffset - 6) := by
        rw [RxPkt.ethRest, RxPkt.bsnap, hsnap, if_pos rfl]
      have place : pkt.pdata + (pkt.bodyOffset + 6 - 14 + 2) + 12 =
          pkt.pdata + pkt.bodyOffset + 6 := by omega
      have split : pkt.len - (pkt.bodyOffset + 6 - 14 + 2) =
          6 + (6 + (pkt.len - pkt.bodyOffset - 6)) := by omega
      simp only [RxPkt.skb]
      rw [split, read_write_addrs _ _ _ hdst hsrc, place, rest]
  | false =>
      simp only [hsnap, Bool.false_eq_true, if_false, Nat.add_zero, ethHlen]
      rw [if_neg (by omega), if_neg (by omega)]
      refine ⟨_, rfl, rfl, ?_⟩
      have rest : pkt.ethRest =
          be16 (UInt16.ofNat (pkt.len - pkt.bodyOffset)) ++
            pkt.mem.read (pkt.pdata + pkt.bodyOffset)
              (pkt.len - pkt.bodyOffset) := by
        rw [RxPkt.ethRest, RxPkt.bsnap, hsnap]
        rfl
      have place : pkt.pdata + (pkt.bodyOffset - 14) + 14 =
          pkt.pdata + pkt.bodyOffset := by omega
      have split : pkt.len - (pkt.bodyOffset - 14) =
          6 + (6 + (2 + (pkt.len - pkt.bodyOffset))) := by omega
      simp only [RxPkt.skb]
      rw [split, read_write_addrs_type _ _ _ hdst hsrc (length_be16 _), place,
        rest]

theorem transferHdr_length (processed : Processed pkt) {eth : RxPkt}
    (h : transferHdr pkt = some eth) :
    eth.info = pkt.info ∧ eth.skb.length + pkt.bodyOffset =
      pkt.len + if pkt.bsnap then 6 else 14 := by
  have hhdr := processed.hdrLen
  have hoffset : pkt.bodyOffset = pkt.info.wlanHdrLen + pkt.info.ivLen := rfl
  unfold transferHdr at h
  rw [Option.ite_none_left_eq_some, ← hoffset] at h
  obtain ⟨-, h⟩ := h
  cases hsnap : isSnapHdr pkt.mem (pkt.pdata + pkt.bodyOffset) with
  | true =>
      simp only [hsnap, if_true, snapHdrSize, ethHlen,
        Option.ite_none_left_eq_some, Option.some.injEq] at h
      obtain ⟨inside, -, rfl⟩ := h
      refine ⟨rfl, ?_⟩
      rw [RxPkt.bsnap, hsnap, RxPkt.skb, Mem.length_read, if_pos rfl]
      simp only
      omega
  | false =>
      simp only [hsnap, Bool.false_eq_true, if_false, Nat.add_zero, ethHlen,
        Option.ite_none_left_eq_some, Option.some.injEq] at h
      obtain ⟨inside, -, rfl⟩ := h
      refine ⟨rfl, ?_⟩
      rw [RxPkt.bsnap, hsnap, RxPkt.skb, Mem.length_read,
        if_neg Bool.false_ne_true]
      simp only
      omega

end Transfer

def trimIcv (pkt : RxPkt) : RxPkt :=
  if pkt.info.bdecrypted then pktTrim pkt pkt.info.icvLen else pkt

theorem trimIcv_eq (pkt : RxPkt) :
    trimIcv pkt = { pkt with len := (trimIcv pkt).len } := by
  unfold trimIcv pktTrim
  split
  · split
    · rfl
    · rfl
  · rfl

theorem trimIcv_fields (pkt : RxPkt) :
    (trimIcv pkt).mem = pkt.mem ∧ (trimIcv pkt).pdata = pkt.pdata ∧
      (trimIcv pkt).info = pkt.info := by
  rw [trimIcv_eq]
  exact ⟨rfl, rfl, rfl⟩

theorem Processed.trimIcv {pkt : RxPkt} (processed : Processed pkt) :
    Processed (trimIcv pkt) := by
  rw [trimIcv_eq]
  exact ⟨processed.type, processed.hdrLen, processed.qosPri, processed.dstAddr,
    processed.srcAddr⟩

end Smartchip.Rx
