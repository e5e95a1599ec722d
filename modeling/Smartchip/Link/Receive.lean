import Smartchip.Link.Air

/-!
# What the receiver makes of an MPDU

A station and its access point run the same driver.  The MPDU that one of them
sends is found, parsed, decrypted and turned into an Ethernet frame by the
other.
-/

namespace Smartchip.Link

open Smartchip.Foundation Smartchip.Frame Smartchip.Sec Smartchip.Tx Smartchip.Rx

def receive (nic : RxNic) (rxd : RxDesc) (mem : Mem) (pdata : Nat)
    (mpdu : List UInt8) : Option (List UInt8) := do
  let (_, pkt) ← wfRxCommonProcess nic rxd (mem.write pdata mpdu) pdata
    mpdu.length
  let eth ← wlanToEth pkt
  some eth.skb

/-! ## The MPDU in the memory of the receiver -/

section Copy

variable {nic : TxNic} {frame : XmitFrame} {msdu rest mpdu : List UInt8}

theorem header_copy {seqnum : UInt16} {hdr pdata : Nat} {mem mem' : Mem}
    (header : Header nic frame msdu seqnum hdr mem)
    (prepared : Prepared nic frame msdu)
    (copied : ∀ k n, k + n ≤ frame.hdrlen →
      mem'.read (pdata + k) n = mem.read (hdr + k) n) :
    Header nic frame msdu seqnum pdata mem' := by
  have hlen := prepared.hdrlen_ge
  constructor
  · rw [← header.control]
    exact Mem.readLe16_congr (copied 0 2 (by omega))
  · rw [copied 4 18 (by omega), header.addrs]
  · rw [← header.seqCtrl]
    exact Mem.readLe16_congr (copied 22 2 (by omega))
  · intro qos
    rw [← header.qosCtrl qos]
    exact Mem.readLe16_congr (copied 24 2 (by rw [prepared.qosLen qos]))

theorem MpduOf.length (mpduOf : MpduOf nic frame msdu rest mpdu)
    (prepared : Prepared nic frame msdu)
    (supported : Supported frame.encryptAlgo) :
    mpdu.length =
      frame.hdrlen + frame.ivLen + (8 + rest.length + frame.icvLen) := by
  obtain ⟨seqnum, hdr, mem, -, head⟩ := mpduOf.head
  have front := congrArg List.length head
  have back := congrArg List.length mpduOf.body
  rw [List.length_take, Mem.length_read] at front
  rw [List.length_drop, length_airBody prepared supported, List.length_append,
    length_snapHeader] at back
  omega

theorem MpduOf.copied (mpduOf : MpduOf nic frame msdu rest mpdu)
    (prepared : Prepared nic frame msdu)
    (supported : Supported frame.encryptAlgo) (mem : Mem) (pdata : Nat) :
    ∃ seqnum, Headed nic frame msdu seqnum pdata (mem.write pdata mpdu) ∧
      (mem.write pdata mpdu).read (pdata + frame.hdrlen + frame.ivLen)
          (8 + rest.length + frame.icvLen) =
        airBody frame.encryptAlgo (frameKey nic frame msdu)
          (snapHeader frame.etherType ++ rest) := by
  obtain ⟨seqnum, hdr, sent, headed, head⟩ := mpduOf.head
  have copied : ∀ k n, k + n ≤ frame.hdrlen + frame.ivLen →
      (mem.write pdata mpdu).read (pdata + k) n = sent.read (hdr + k) n :=
    fun k n inside => Mem.read_write_copy mem head inside
  have length := mpduOf.length prepared supported
  refine ⟨seqnum, ⟨header_copy headed.header prepared ?_, ?_⟩, ?_⟩
  · intro k n inside
    exact copied k n (by omega)
  · rw [copied _ _ (Nat.le_refl _), headed.iv]
  · rw [Nat.add_assoc pdata, Mem.read_write_inside mem (by omega), mpduOf.body]
    apply List.take_of_length_le
    rw [length_airBody prepared supported, List.length_append,
      length_snapHeader]

end Copy

/-! ## The two ends -/

/--
The sender knows the receiver, the receiver knows the sender as station `id`,
and both use one cipher and the same keys for the frame.
-/
structure Linked (tx : TxNic) (rx : RxNic) (id : Nat) (frame : XmitFrame)
    (msdu : List UInt8) : Prop where
  ends : tx.workMode = .infra ∧ rx.workMode = .master ∧
      rx.localAddr = tx.curBssid ∨
    tx.workMode = .master ∧ rx.workMode = .infra ∧
      (rx.wdn id).bssid = tx.curBssid ∧
      (msdu.take 6 = rx.localAddr.toList ∨ isMcast (msdu.take 6) = true)
  receiver : Tx.Addressed tx frame msdu
  sender : rx.wdnFindInfo (transmitterAddr tx msdu) = some id
  supported : Supported frame.encryptAlgo
  cipher : frame.encryptAlgo ≠ .noPrivacy →
    (if rx.auth8021X then
      if frame.bmcast then rx.dot118021XGrpPrivacy
      else (rx.wdn id).dot118021XPrivacy
    else rx.dot11PrivacyAlgrthm) = frame.encryptAlgo
  wepKeys : frame.encryptAlgo = .wep40 ∨ frame.encryptAlgo = .wep104 →
    rx.secInfo.dot11DefKey = tx.secInfo.dot11DefKey
  tkipKeys : frame.encryptAlgo = .tkip →
    if frame.bmcast then rx.binstallGrpkey = true ∧
      rx.secInfo.dot118021XGrpKey ((frame.iv.getD 3 0 >>> 6) &&& 0x3) =
        temporalKey tx frame
    else (rx.wdn id).dot118021xUncstKey = temporalKey tx frame

/-- The destinations that `rx_data_pkt_ap2sta` lets through. -/
def Reaches (tx : TxNic) (rx : RxNic) (msdu : List UInt8) : Prop :=
  tx.workMode = .master →
    isBcastAddr (msdu.take 6) = true ∨ msdu.take 6 = rx.localAddr.toList

/-! ## The header at the receiver -/

theorem frameControl_fields (mode : WorkMode) (qosOption privacy : Bool) :
    frameControl mode qosOption privacy &&& 0x000C = 0x0008 ∧
      frameControl mode qosOption privacy &&& 0x0300 = dsBits mode ∧
      frameControl mode qosOption privacy &&& 0x0800 = 0 ∧
      (frameControl mode qosOption privacy &&& 0x4000 != 0) = privacy ∧
      frameControl mode qosOption privacy &&& 0x8000 = 0 := by
  cases mode <;> cases qosOption <;> cases privacy <;> decide

section Header

variable {tx : TxNic} {frame : XmitFrame} {msdu : List UInt8}
  {seqnum : UInt16} {pdata : Nat} {mem : Mem}

theorem header_fields (header : Header tx frame msdu seqnum pdata mem) :
    getHdrType mem pdata = 0x0008 ∧
      getHdrToFromDs mem pdata = dsBits tx.workMode ∧
      getHdrRetry mem pdata = false ∧
      getHdrProtected mem pdata = decide (frame.encryptAlgo ≠ .noPrivacy) ∧
      getHdrOrder mem pdata = false := by
  obtain ⟨type, direction, retry, privacy, order⟩ := frameControl_fields
    tx.workMode (tx.wdn frame.pwdn).qosOption
    (decide (frame.encryptAlgo ≠ .noPrivacy))
  rw [← header.control] at type direction retry privacy order
  refine ⟨type, direction, ?_, privacy, ?_⟩
  · rw [getHdrRetry, retry]
    rfl
  · rw [getHdrOrder, order]
    rfl

variable {rx : RxNic} {id : Nat} {pkt checked : RxPkt}

theorem rxCheckAddrs_linked (linked : Linked tx rx id frame msdu)
    (prepared : Prepared tx frame msdu)
    (header : Header tx frame msdu seqnum pkt.pdata pkt.mem) :
    (Reaches tx rx msdu →
        ∃ checked, rxCheckAddrs rx (rx.wdn id) pkt = some checked) ∧
      ∀ checked, rxCheckAddrs rx (rx.wdn id) pkt = some checked →
        Reaches tx rx msdu ∧
          checked.info.dstAddr = msdu.take 6 ∧
          checked.info.srcAddr = (msdu.drop 6).take 6 ∧
          checked.info.rxAddr = receiverAddr tx msdu ∧
          checked.info.txAddr = transmitterAddr tx msdu := by
  obtain ⟨addr1, addr2, addr3, addr3'⟩ := getAddrs_header prepared.long header
  have direction := (header_fields header).2.1
  rcases linked.ends with ⟨mode, mode', bssid⟩ | ⟨mode, mode', bssid, -⟩
  · have addr3 := addr3 mode
    simp only [receiverAddr, transmitterAddr, mode] at addr1 addr2 ⊢
    simp only [rxCheckAddrs, mode', direction, mode, dsBits, ne_eq,
      not_true_eq_false, if_false, rxDataPktSta2ap, addr1, addr2, addr3, bssid]
    refine ⟨fun _ => ⟨_, rfl⟩, ?_⟩
    rintro checked ⟨⟩
    refine ⟨?_, rfl, rfl, rfl, rfl⟩
    intro master
    rw [mode] at master
    contradiction
  · have addr3 := addr3' mode
    simp only [receiverAddr, transmitterAddr, mode] at addr1 addr2 ⊢
    simp only [rxCheckAddrs, mode', direction, mode, dsBits, ne_eq,
      not_true_eq_false, if_false, rxDataPktAp2sta, addr1, addr2, addr3, bssid,
      false_or, Reaches, forall_const]
    constructor
    · intro reaches
      rw [if_neg]
      · exact ⟨_, rfl⟩
      · rintro ⟨bcast, other⟩
        rw [bcast] at reaches
        exact other (reaches.resolve_left Bool.false_ne_true)
    · intro checked h
      rw [Option.ite_none_left_eq_some] at h
      obtain ⟨reaches, ⟨⟩⟩ := h
      refine ⟨?_, rfl, rfl, rfl, rfl⟩
      rw [not_and, not_not, Bool.eq_false_iff] at reaches
      by_cases bcast : isBcastAddr (msdu.take 6) = true
      · exact .inl bcast
      · exact .inr (reaches bcast)

end Header

/-! ## The parsed packet -/

structure Parsed (tx : TxNic) (frame : XmitFrame) (msdu : List UInt8)
    (rxd : RxDesc) (mem : Mem) (pdata len : Nat) (pkt : RxPkt) : Prop where
  mem : pkt.mem = mem
  pdata : pkt.pdata = pdata
  len : pkt.len = len
  hdrLen : pkt.info.wlanHdrLen = 24 + if rxd.qos then 2 else 0
  encryptAlgo : pkt.info.encryptAlgo = frame.encryptAlgo
  ivLen : pkt.info.ivLen = frame.ivLen
  icvLen : pkt.info.icvLen = frame.icvLen
  bdecrypted : pkt.info.bdecrypted = false
  moreFrag : pkt.info.moreFrag = rxd.moreFrag
  fragNum : pkt.info.fragNum = rxd.frag
  dstAddr : pkt.info.dstAddr = msdu.take 6
  srcAddr : pkt.info.srcAddr = (msdu.drop 6).take 6
  rxAddr : pkt.info.rxAddr = receiverAddr tx msdu
  txAddr : pkt.info.txAddr = transmitterAddr tx msdu

section Parse

variable {tx : TxNic} {frame : XmitFrame} {msdu : List UInt8}
  {seqnum : UInt16} {pdata len : Nat} {mem : Mem} {rx : RxNic} {id : Nat}
  {rxd : RxDesc}

theorem rxCheckSeqCtrl_linked {checked : RxPkt}
    (header : Header tx frame msdu seqnum pdata mem)
    (hcheck : rxCheckAddrs rx (rx.wdn id)
      { mem, pdata, len, info := wfRxRxdPrase rxd } = some checked) :
    ∃ seqCtrlRecorder, rxCheckSeqCtrl (rx.wdn id) rxd checked =
      some { rx.wdn id with seqCtrlRecorder } := by
  have addressed := rxCheckAddrs_addressed (by rfl) (by rfl) hcheck
  have retry : getHdrRetry checked.mem checked.pdata = false := by
    rw [addressed.mem, addressed.pdata]
    exact (header_fields header).2.2.1
  unfold rxCheckSeqCtrl
  rw [retry, if_neg (by simp)]
  exact ⟨_, rfl⟩

theorem Supported.rxLens {algo : EncryptAlgo} (supported : Supported algo) :
    rxIvLen algo = txIvLen algo ∧ rxIcvLen algo = txIcvLen algo := by
  rcases supported with rfl | rfl | rfl | rfl
  · exact ⟨rfl, rfl⟩
  · exact ⟨rfl, rfl⟩
  · exact ⟨rfl, rfl⟩
  · exact ⟨rfl, rfl⟩

theorem hdrLenOf_linked {pkt : RxPkt}
    (header : Header tx frame msdu seqnum pkt.pdata pkt.mem) :
    hdrLenOf pkt = 24 + if pkt.info.qosFlag then 2 else 0 := by
  obtain ⟨-, direction, -, -, order⟩ := header_fields header
  have short : ¬ dsBits tx.workMode >>> 8 = 0x03 := by
    cases tx.workMode <;> decide
  rw [hdrLenOf, direction, order, if_neg short]
  rfl

theorem algoOf_linked {pkt : RxPkt} (linked : Linked tx rx id frame msdu)
    (prepared : Prepared tx frame msdu)
    (header : Header tx frame msdu seqnum pkt.pdata pkt.mem)
    (rxAddr : pkt.info.rxAddr = receiverAddr tx msdu) {rx' : RxNic}
    {wdn : RxWdn} (same : ∃ table, rx' = { rx with wdn := table })
    (same' : wdn.dot118021XPrivacy = (rx.wdn id).dot118021XPrivacy) :
    algoOf rx' wdn pkt = frame.encryptAlgo := by
  obtain ⟨table, rfl⟩ := same
  obtain ⟨-, -, -, privacy, -⟩ := header_fields header
  simp only [algoOf, setEncryptAlgoNum, privacy, rxAddr, ← prepared.bmcast, same']
  by_cases clear : frame.encryptAlgo = .noPrivacy
  · simp [clear]
  · simp only [ne_eq, clear, not_false_eq_true, decide_true, Bool.true_eq_false,
      if_false]
    exact linked.cipher clear

theorem parseHeader_linked {checked : RxPkt}
    (linked : Linked tx rx id frame msdu) (prepared : Prepared tx frame msdu)
    (header : Header tx frame msdu seqnum pdata mem)
    (hcheck : rxCheckAddrs rx (rx.wdn id)
      { mem, pdata, len, info := wfRxRxdPrase rxd } = some checked)
    {rx' : RxNic} {wdn : RxWdn} (same : ∃ table, rx' = { rx with wdn := table })
    (same' : wdn.dot118021XPrivacy = (rx.wdn id).dot118021XPrivacy) :
    Parsed tx frame msdu rxd mem pdata len (parseHeader rx' wdn checked) := by
  have addressed := rxCheckAddrs_addressed (by rfl) (by rfl) hcheck
  obtain ⟨-, dst, src, ra, ta⟩ := (@rxCheckAddrs_linked tx frame msdu seqnum rx
    id { mem, pdata, len, info := wfRxRxdPrase rxd } linked prepared header).2
      checked hcheck
  have header' : Header tx frame msdu seqnum checked.pdata checked.mem := by
    rw [addressed.pdata, addressed.mem]
    exact header
  obtain ⟨qosPri, ackPolicy, amsdu, hparsed, -⟩ := parseHeader_eq rx' wdn checked
  obtain ⟨_, _, _, _, _, hinfo⟩ := addressed.info
  have lens := linked.supported.rxLens
  rw [hparsed, algoOf_linked linked prepared header' ra same same',
    hdrLenOf_linked header']
  constructor
  · exact addressed.mem
  · exact addressed.pdata
  · exact addressed.len
  · simp only [hinfo]
    rfl
  · rfl
  · exact lens.1.trans prepared.ivLen.symm
  · exact lens.2.trans prepared.icvLen.symm
  · simp only [hinfo]
    rfl
  · simp only [hinfo]
    rfl
  · simp only [hinfo]
    rfl
  · exact dst
  · exact src
  · exact ra
  · exact ta

/-! ## Decryption -/

theorem decryptBody_sealed {key body : List UInt8} {pkt : RxPkt}
    (icv : pkt.info.icvLen = 4)
    (length : pkt.len =
      pkt.info.wlanHdrLen + pkt.info.ivLen + (body.length + 4))
    (sealed : pkt.mem.read (pkt.pdata + pkt.info.wlanHdrLen + pkt.info.ivLen)
      (body.length + 4) = sealBody key body) :
    ∃ pkt', decryptBody key pkt = some pkt' ∧
      pkt'.mem.read (pkt.pdata + pkt.info.wlanHdrLen + pkt.info.ivLen)
        body.length = body := by
  have count : pkt.len - (pkt.info.wlanHdrLen + pkt.info.ivLen + 4) =
      body.length := by omega
  unfold decryptBody
  simp only [icv, count, sealed, arc4Encrypt_sealBody, List.take_left,
    List.drop_left]
  rw [if_neg (by simp [le32])]
  refine ⟨_, rfl, ?_⟩
  have inside := @Mem.read_write_inside pkt.mem
    (pkt.pdata + pkt.info.wlanHdrLen + pkt.info.ivLen) 0 body.length
    (body ++ le32 (getCrc32 body)) (by simp)
  simpa using inside

section Open

variable {seqCtrlRecorder : BitVec 4 → UInt16} {plain : List UInt8}
  {pkt : RxPkt}

def recorded (rx : RxNic) (id : Nat) (seqCtrlRecorder : BitVec 4 → UInt16) :
    RxNic :=
  let wdn := { rx.wdn id with seqCtrlRecorder }
  { rx with wdn := Function.update rx.wdn id wdn }

theorem tkipKey_linked (linked : Linked tx rx id frame msdu)
    (prepared : Prepared tx frame msdu) (tkip : frame.encryptAlgo = .tkip)
    {info : RxPktInfo} (rxAddr : info.rxAddr = receiverAddr tx msdu)
    (txAddr : info.txAddr = transmitterAddr tx msdu) :
    tkipKey (recorded rx id seqCtrlRecorder) info (frame.iv.take 8) =
      some (temporalKey tx frame) := by
  have keys := linked.tkipKeys tkip
  have index : (frame.iv.take 8).getD 3 0 = frame.iv.getD 3 0 := by
    simp
  unfold tkipKey recorded
  rw [rxAddr, ← prepared.bmcast, txAddr, index]
  cases cast : frame.bmcast with
  | true =>
      rw [cast, if_pos rfl] at keys
      simp only [if_true, keys.1, keys.2]
  | false =>
      rw [cast, if_neg Bool.false_ne_true] at keys
      simp only [Bool.false_eq_true, if_false, linked.sender, Option.map_some,
        Function.update_self, keys]

theorem decryptBody_linked (parsed : Parsed tx frame msdu rxd mem pdata len pkt)
    (hdrLen : pkt.info.wlanHdrLen = frame.hdrlen) (icv : frame.icvLen = 4)
    (length : len = frame.hdrlen + frame.ivLen + (plain.length + frame.icvLen))
    {key : List UInt8}
    (body : mem.read (pdata + frame.hdrlen + frame.ivLen)
      (plain.length + frame.icvLen) = sealBody key plain) :
    ∃ pkt', decryptBody key pkt = some pkt' ∧
      pkt'.mem.read (pdata + frame.hdrlen + frame.ivLen) plain.length = plain := by
  rw [icv] at body length
  have opened := @decryptBody_sealed key plain pkt (parsed.icvLen.trans icv)
  rw [parsed.len, parsed.mem, parsed.pdata, parsed.ivLen, hdrLen] at opened
  exact opened length body

theorem wepDecrypt_linked (linked : Linked tx rx id frame msdu)
    (wep : frame.encryptAlgo = .wep40 ∨ frame.encryptAlgo = .wep104)
    (headed : Headed tx frame msdu seqnum pdata mem)
    (parsed : Parsed tx frame msdu rxd mem pdata len pkt)
    (hdrLen : pkt.info.wlanHdrLen = frame.hdrlen)
    (ivLen : frame.ivLen = 4) (icvLen : frame.icvLen = 4)
    (length : len = frame.hdrlen + frame.ivLen + (plain.length + frame.icvLen))
    (body : mem.read (pdata + frame.hdrlen + frame.ivLen)
      (plain.length + frame.icvLen) =
        sealBody (wepKeyOf tx.secInfo (frame.iv.take 4)) plain) :
    ∃ pkt', wepDecrypt (recorded rx id seqCtrlRecorder) pkt = some pkt' ∧
      pkt'.mem.read (pdata + frame.hdrlen + frame.ivLen) plain.length = plain := by
  have key : wepKeyOf (recorded rx id seqCtrlRecorder).secInfo
      (frame.iv.take 4) = wepKeyOf tx.secInfo (frame.iv.take 4) := by
    rw [wepKeyOf, recorded, linked.wepKeys wep, wepKeyOf]
  have iv : pkt.mem.read (pkt.pdata + pkt.info.wlanHdrLen) 4 =
      frame.iv.take 4 := by
    rw [parsed.mem, parsed.pdata, hdrLen, ← ivLen, headed.iv]
  simp only [wepDecrypt]
  rw [iv, key]
  exact decryptBody_linked parsed hdrLen icvLen length body

theorem tkipDecrypt_linked (linked : Linked tx rx id frame msdu)
    (prepared : Prepared tx frame msdu) (tkip : frame.encryptAlgo = .tkip)
    (headed : Headed tx frame msdu seqnum pdata mem)
    (parsed : Parsed tx frame msdu rxd mem pdata len pkt)
    (hdrLen : pkt.info.wlanHdrLen = frame.hdrlen)
    (ivLen : frame.ivLen = 8) (icvLen : frame.icvLen = 4)
    (length : len = frame.hdrlen + frame.ivLen + (plain.length + frame.icvLen))
    (body : mem.read (pdata + frame.hdrlen + frame.ivLen)
      (plain.length + frame.icvLen) =
        sealBody (tkipPacketKey (temporalKey tx frame).toList
          (transmitterAddr tx msdu) (frame.iv.take 8)) plain) :
    ∃ pkt', tkipDecrypt (recorded rx id seqCtrlRecorder) pkt = some pkt' ∧
      pkt'.mem.read (pdata + frame.hdrlen + frame.ivLen) plain.length = plain := by
  have iv : pkt.mem.read (pkt.pdata + pkt.info.wlanHdrLen) 8 =
      frame.iv.take 8 := by
    rw [parsed.mem, parsed.pdata, hdrLen, ← ivLen, headed.iv]
  simp only [tkipDecrypt]
  rw [iv, tkipKey_linked linked prepared tkip parsed.rxAddr parsed.txAddr,
    parsed.txAddr]
  exact decryptBody_linked parsed hdrLen icvLen length body

theorem wfSecDecryptor_linked (linked : Linked tx rx id frame msdu)
    (prepared : Prepared tx frame msdu)
    (headed : Headed tx frame msdu seqnum pdata mem)
    (parsed : Parsed tx frame msdu rxd mem pdata len pkt)
    (hdrLen : pkt.info.wlanHdrLen = frame.hdrlen)
    (guarded : frame.encryptAlgo ≠ .noPrivacy)
    (length : len = frame.hdrlen + frame.ivLen + (plain.length + frame.icvLen))
    (body : mem.read (pdata + frame.hdrlen + frame.ivLen)
      (plain.length + frame.icvLen) =
        airBody frame.encryptAlgo (frameKey tx frame msdu) plain) :
    ∃ pkt', wfSecDecryptor (recorded rx id seqCtrlRecorder) pkt = some pkt' ∧
      pkt'.mem.read (pdata + frame.hdrlen + frame.ivLen) plain.length = plain := by
  have ivLen := prepared.ivLen
  have icvLen := prepared.icvLen
  -- the flag that is set afterwards does not touch the body
  have marked : ∀ res : Option RxPkt,
      (∃ pkt', res = some pkt' ∧
        pkt'.mem.read (pdata + frame.hdrlen + frame.ivLen) plain.length =
          plain) →
      ∃ pkt', res.map (fun pkt => { pkt with
          info := { pkt.info with bdecrypted := true } }) = some pkt' ∧
        pkt'.mem.read (pdata + frame.hdrlen + frame.ivLen) plain.length =
          plain := by
    rintro _ ⟨pkt', rfl, read⟩
    exact ⟨_, rfl, read⟩
  unfold wfSecDecryptor
  rw [parsed.encryptAlgo]
  rcases linked.supported with algo | algo | algo | algo
  · contradiction
  · rw [algo] at ivLen icvLen
    simp only [airBody, frameKey, algo] at body ⊢
    exact marked _ (wepDecrypt_linked linked (.inl algo) headed parsed hdrLen
      ivLen icvLen length body)
  · rw [algo] at ivLen icvLen
    simp only [airBody, frameKey, algo] at body ⊢
    exact marked _ (wepDecrypt_linked linked (.inr algo) headed parsed hdrLen
      ivLen icvLen length body)
  · rw [algo] at ivLen icvLen
    simp only [airBody, frameKey, algo] at body ⊢
    exact marked _ (tkipDecrypt_linked linked prepared algo headed parsed hdrLen
      ivLen icvLen length body)

end Open

/-! ## The accepted packet -/

structure Accepted (tx : TxNic) (rx : RxNic) (frame : XmitFrame)
    (msdu : List UInt8) (rxd : RxDesc) (pdata len : Nat) (pkt : RxPkt) :
    Prop where
  reaches : Reaches tx rx msdu
  pdata : pkt.pdata = pdata
  bodyOffset : pkt.bodyOffset = 24 + (if rxd.qos then 2 else 0) + frame.ivLen
  trimmed : (trimIcv pkt).len = len - frame.icvLen
  dstAddr : pkt.info.dstAddr = msdu.take 6
  srcAddr : pkt.info.srcAddr = (msdu.drop 6).take 6

theorem trimIcv_linked {parsed pkt : RxPkt}
    (prepared : Prepared tx frame msdu)
    (header : Header tx frame msdu seqnum pdata mem)
    (hparsed : Parsed tx frame msdu rxd mem pdata len parsed)
    (long : frame.icvLen ≤ len) {rx' : RxNic}
    (h : (if getHdrProtected parsed.mem parsed.pdata then
      wfSecDecryptor rx' parsed else some parsed) = some pkt) :
    (trimIcv pkt).len = len - frame.icvLen := by
  obtain ⟨-, -, -, privacy, -⟩ := header_fields header
  rw [hparsed.mem, hparsed.pdata, privacy] at h
  by_cases clear : frame.encryptAlgo = .noPrivacy
  · have icv : frame.icvLen = 0 := by
      rw [prepared.icvLen, clear]
      rfl
    simp only [clear, ne_eq, not_true_eq_false, decide_false,
      Bool.false_eq_true, if_false, Option.some.injEq] at h
    subst pkt
    rw [trimIcv, hparsed.bdecrypted, if_neg Bool.false_ne_true, hparsed.len, icv]
    rfl
  · simp only [ne_eq, clear, not_false_eq_true, decide_true, if_true] at h
    obtain ⟨opened, decrypted⟩ := wfSecDecryptor_opened h
    obtain ⟨_, hinfo⟩ := opened.info
    have icv : pkt.info.icvLen = frame.icvLen := by
      rw [hinfo]
      exact hparsed.icvLen
    have length : pkt.len = len := opened.len.trans hparsed.len
    rw [trimIcv, decrypted, if_pos rfl, pktTrim, icv, length,
      if_neg (by omega)]

theorem wfRxCommonProcess_accepted {rx' : RxNic} {pkt : RxPkt}
    (linked : Linked tx rx id frame msdu) (prepared : Prepared tx frame msdu)
    (header : Header tx frame msdu seqnum pdata mem)
    (long : frame.icvLen ≤ len)
    (h : wfRxCommonProcess rx rxd mem pdata len = some (rx', pkt)) :
    Accepted tx rx frame msdu rxd pdata len pkt := by
  obtain ⟨pwdn, wdn, checked, found, -, hcheck, hseq, hnic, hprocess⟩ :=
    wfRxCommonProcess_cases h
  rw [(getAddrs_header prepared.long header).2.1, linked.sender,
    Option.some.injEq] at found
  subst pwdn
  have reaches := ((@rxCheckAddrs_linked tx frame msdu seqnum rx id
    { mem, pdata, len, info := wfRxRxdPrase rxd } linked prepared header).2
      checked hcheck).1
  obtain ⟨recorder, hseq'⟩ := rxCheckSeqCtrl_linked header hcheck
  rw [hseq, Option.some.injEq] at hseq'
  have parsed := parseHeader_linked linked prepared header hcheck ⟨_, hnic⟩
    (by rw [hseq'] : wdn.dot118021XPrivacy = (rx.wdn id).dot118021XPrivacy)
  have opened := rxProcessDataFrame_opened hprocess
  obtain ⟨bdecrypted, hinfo⟩ := opened.info
  unfold rxProcessDataFrame at hprocess
  simp only [Option.filter_eq_some_iff] at hprocess
  constructor
  · exact reaches
  · rw [opened.pdata, parsed.pdata]
  · rw [RxPkt.bodyOffset, hinfo]
    simp only [parsed.hdrLen, parsed.ivLen]
  · exact trimIcv_linked prepared header parsed long hprocess.1
  · rw [hinfo]
    exact parsed.dstAddr
  · rw [hinfo]
    exact parsed.srcAddr

theorem wfRxCommonProcess_opens {plain : List UInt8}
    (linked : Linked tx rx id frame msdu) (prepared : Prepared tx frame msdu)
    (headed : Headed tx frame msdu seqnum pdata mem)
    (reaches : Reaches tx rx msdu)
    (qos : rxd.qos = (tx.wdn frame.pwdn).qosOption)
    (unfragmented : rxd.moreFrag = false ∧ rxd.frag = 0)
    (length : len = frame.hdrlen + frame.ivLen + (plain.length + frame.icvLen))
    (body : mem.read (pdata + frame.hdrlen + frame.ivLen)
      (plain.length + frame.icvLen) =
        airBody frame.encryptAlgo (frameKey tx frame msdu) plain) :
    ∃ rx' pkt, wfRxCommonProcess rx rxd mem pdata len = some (rx', pkt) ∧
      pkt.mem.read (pdata + frame.hdrlen + frame.ivLen) plain.length = plain := by
  have header := headed.header
  obtain ⟨type, -, -, privacy, -⟩ := header_fields header
  obtain ⟨checked, hcheck⟩ := (@rxCheckAddrs_linked tx frame msdu seqnum rx id
    { mem, pdata, len, info := wfRxRxdPrase rxd } linked prepared header).1
      reaches
  obtain ⟨recorder, hseq⟩ := rxCheckSeqCtrl_linked header hcheck
  have parsed : Parsed tx frame msdu rxd mem pdata len
      (parseHeader (recorded rx id recorder)
        { rx.wdn id with seqCtrlRecorder := recorder } checked) :=
    parseHeader_linked linked prepared header hcheck ⟨_, rfl⟩ rfl
  have hdrLen : (parseHeader (recorded rx id recorder)
      { rx.wdn id with seqCtrlRecorder := recorder } checked).info.wlanHdrLen =
        frame.hdrlen := by
    rw [parsed.hdrLen, prepared.hdrlen, qos]
    split
    · rfl
    · rfl
  have opened : ∃ pkt,
      rxProcessDataFrame (recorded rx id recorder)
          { rx.wdn id with seqCtrlRecorder := recorder } checked = some pkt ∧
        pkt.mem.read (pdata + frame.hdrlen + frame.ivLen) plain.length =
          plain := by
    unfold rxProcessDataFrame
    simp only [parsed.mem, parsed.pdata, privacy, Option.filter_eq_some_iff]
    by_cases clear : frame.encryptAlgo = .noPrivacy
    · simp only [clear, ne_eq, not_true_eq_false, decide_false,
        Bool.false_eq_true, if_false, Option.some.injEq]
      refine ⟨_, ⟨rfl, ?_⟩, ?_⟩
      · simp [parsed.moreFrag, parsed.fragNum, unfragmented]
      · have icv : frame.icvLen = 0 := by
          rw [prepared.icvLen, clear]
          rfl
        rw [clear, icv, Nat.add_zero] at body
        rw [parsed.mem, body]
        rfl
    · simp only [ne_eq, clear, not_false_eq_true, decide_true, if_true]
      obtain ⟨pkt, hopen, read⟩ := wfSecDecryptor_linked linked prepared headed
        parsed hdrLen clear length body
      refine ⟨pkt, ⟨hopen, ?_⟩, read⟩
      obtain ⟨_, hinfo⟩ := (wfSecDecryptor_opened hopen).1.info
      simp [hinfo, parsed.moreFrag, parsed.fragNum, unfragmented]
  obtain ⟨pkt, hprocess, read⟩ := opened
  refine ⟨_, pkt, wfRxCommonProcess_of ?_ type hcheck hseq hprocess, read⟩
  rw [(getAddrs_header prepared.long header).2.1, linked.sender]

end Parse

/-! ## The Ethernet frame at the receiver -/

theorem isSnapHdr_snapHeader {mem : Mem} {phdr : Nat} {hProto : UInt16}
    (h : mem.read phdr 8 = snapHeader hProto) : isSnapHdr mem phdr = true := by
  rw [show (8 : Nat) = 6 + 2 from rfl, Mem.read_add, snapHeader] at h
  obtain ⟨llc, type⟩ := List.append_inj h rfl
  unfold isSnapHdr snapHdrSize
  rw [llc, type]
  by_cases tunnel : hProto = 0x8137 ∨ hProto = 0x80f3
  · simp [tunnel, wlBridgeTunnelHeader]
  · rw [not_or] at tunnel
    have ipx : be16 hProto ≠ snapEthTypeIpx :=
      fun same => tunnel.1 (@be16_inj hProto 0x8137 same)
    have aarp : be16 hProto ≠ snapEthTypeAppletalkAarp :=
      fun same => tunnel.2 (@be16_inj hProto 0x80f3 same)
    simp [tunnel, ipx, aarp, wlRfc1042Header]

theorem take_ethHlen {frame : XmitFrame} {tx : TxNic} {msdu : List UInt8}
    (prepared : Prepared tx frame msdu) :
    msdu.take ethHlen =
      msdu.take 6 ++ ((msdu.drop 6).take 6 ++ be16 frame.etherType) := by
  have second : msdu.drop 12 = (msdu.drop 6).drop 6 := by
    rw [List.drop_drop]
  rw [prepared.etherType, second, ← List.take_add, ← List.take_add]
  rfl

section Receive

variable {tx : TxNic} {frame : XmitFrame} {msdu rest mpdu : List UInt8}
  {rx : RxNic} {id : Nat} {rxd : RxDesc} {mem : Mem} {pdata : Nat}

/-- The receiver hands on the addresses, the type and all that follows. -/
theorem MpduOf.received (mpduOf : MpduOf tx frame msdu rest mpdu)
    (linked : Linked tx rx id frame msdu) (prepared : Prepared tx frame msdu)
    (reaches : Reaches tx rx msdu)
    (qos : rxd.qos = (tx.wdn frame.pwdn).qosOption)
    (unfragmented : rxd.moreFrag = false ∧ rxd.frag = 0) :
    receive rx rxd mem pdata mpdu = some (msdu.take ethHlen ++ rest) := by
  obtain ⟨seqnum, headed, body⟩ := mpduOf.copied prepared linked.supported mem pdata
  have length := mpduOf.length prepared linked.supported
  have count : (snapHeader frame.etherType ++ rest).length = 8 + rest.length := by
    rw [List.length_append, length_snapHeader]
  rw [← count] at body length
  obtain ⟨rx', pkt, h, read⟩ := wfRxCommonProcess_opens linked prepared headed
    reaches qos unfragmented length body
  have accepted := wfRxCommonProcess_accepted linked prepared headed.header
    (by omega) h
  have processed := (wfRxCommonProcess_processed h).trimIcv
  obtain ⟨hmem, hpdata, hinfo⟩ := trimIcv_fields pkt
  have offset : (trimIcv pkt).bodyOffset = frame.hdrlen + frame.ivLen := by
    rw [RxPkt.bodyOffset, hinfo, ← RxPkt.bodyOffset, accepted.bodyOffset, qos,
      prepared.hdrlen]
    split
    · rfl
    · rfl
  have trimmed : (trimIcv pkt).len =
      frame.hdrlen + frame.ivLen + (8 + rest.length) := by
    rw [accepted.trimmed]
    omega
  have place : (trimIcv pkt).pdata + (trimIcv pkt).bodyOffset =
      pdata + frame.hdrlen + frame.ivLen := by
    rw [hpdata, accepted.pdata, offset]
    omega
  rw [count, Mem.read_add] at read
  obtain ⟨llc, payload⟩ := List.append_inj read rfl
  have snap : (trimIcv pkt).bsnap = true := by
    rw [RxPkt.bsnap, place, hmem]
    exact isSnapHdr_snapHeader llc
  obtain ⟨eth, heth, -, hskb⟩ := transferHdr_eq processed (by omega)
  have ethRest : (trimIcv pkt).ethRest = be16 frame.etherType ++ rest := by
    rw [RxPkt.ethRest, snap, if_pos rfl, place, hmem, trimmed, offset]
    have type := congrArg (List.drop 6) llc
    rw [Mem.drop_read] at type
    have size : frame.hdrlen + frame.ivLen + (8 + rest.length) -
        (frame.hdrlen + frame.ivLen) - 6 = 2 + rest.length := by omega
    rw [size, Mem.read_add, type, Nat.add_assoc _ 6 2, payload]
    rfl
  unfold receive
  simp only [h, Option.bind_eq_bind, Option.bind_some]
  rw [wlanToEth, ← trimIcv, heth, Option.bind_some, hskb, hinfo,
    accepted.dstAddr, accepted.srcAddr, ethRest, take_ethHlen prepared]
  simp only [List.append_assoc]

theorem MpduOf.received_length {eth : List UInt8}
    (mpduOf : MpduOf tx frame msdu rest mpdu)
    (linked : Linked tx rx id frame msdu) (prepared : Prepared tx frame msdu)
    (h : receive rx rxd mem pdata mpdu = some eth) :
    Reaches tx rx msdu ∧
      (eth.length + (24 + if rxd.qos then 2 else 0) =
          frame.hdrlen + (14 + rest.length) ∨
        eth.length + (24 + if rxd.qos then 2 else 0) =
          frame.hdrlen + (22 + rest.length)) := by
  obtain ⟨seqnum, headed, -⟩ := mpduOf.copied prepared linked.supported mem pdata
  have length := mpduOf.length prepared linked.supported
  unfold receive at h
  simp only [Option.bind_eq_bind, Option.bind_eq_some_iff, Option.some.injEq]
    at h
  obtain ⟨⟨rx', pkt⟩, hprocess, found, heth, rfl⟩ := h
  have accepted := wfRxCommonProcess_accepted linked prepared headed.header
    (by omega) hprocess
  have processed := (wfRxCommonProcess_processed hprocess).trimIcv
  obtain ⟨-, count⟩ := transferHdr_length processed heth
  obtain ⟨-, -, hinfo⟩ := trimIcv_fields pkt
  rw [RxPkt.bodyOffset, hinfo, ← RxPkt.bodyOffset, accepted.bodyOffset,
    accepted.trimmed] at count
  refine ⟨accepted.reaches, ?_⟩
  cases snap : (trimIcv pkt).bsnap with
  | true =>
      rw [snap, if_pos rfl] at count
      omega
  | false =>
      rw [snap, if_neg Bool.false_ne_true] at count
      omega

end Receive

end Smartchip.Link
