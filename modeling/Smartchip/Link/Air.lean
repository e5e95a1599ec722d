import Smartchip.Rx.Process
import Smartchip.Tx.Layout

/-!
# What the sender puts on the air

An MSDU in one piece leaves as a header, the IV and the body behind the LLC
header, encrypted when the frame has a cipher that the driver knows.
-/

namespace Smartchip.Link

open Smartchip.Foundation Smartchip.Frame Smartchip.Sec Smartchip.Tx

/-- The MPDUs of an MSDU as they are written to the bus. -/
def transmit (nic : TxNic) (frame : XmitFrame) (msdu : List UInt8)
    (mem : Mem) : Option (List (List UInt8)) :=
  (wfTxMsduToMpdu nic frame msdu mem).map fun result =>
    (mpduInsertSendingQueue result.nic result.frame (fun _ => true)
      result.mem).map fun write => write.bytes.drop result.nic.txdescSize

def transmitterAddr (nic : TxNic) (msdu : List UInt8) : List UInt8 :=
  match nic.workMode with
  | .master => nic.curBssid.toList
  | _ => (msdu.drop 6).take 6

def temporalKey (nic : TxNic) (frame : XmitFrame) : Keytype :=
  if frame.bmcast then
    nic.secInfo.dot118021XGrpKey nic.secInfo.dot118021XGrpKeyid
  else frame.dot118021xUncstKey

def frameKey (nic : TxNic) (frame : XmitFrame) (msdu : List UInt8) :
    List UInt8 :=
  match frame.encryptAlgo with
  | .tkip =>
      tkipPacketKey (temporalKey nic frame).toList (transmitterAddr nic msdu)
        (frame.iv.take 8)
  | _ => wepKeyOf nic.secInfo (frame.iv.take 4)

def airBody (algo : EncryptAlgo) (key body : List UInt8) : List UInt8 :=
  match algo with
  | .wep40 | .wep104 | .tkip => sealBody key body
  | _ => body

/-- The ciphers whose frames the driver encrypts and decrypts. -/
def Supported (algo : EncryptAlgo) : Prop :=
  algo = .noPrivacy ∨ algo = .wep40 ∨ algo = .wep104 ∨ algo = .tkip

structure Headed (nic : TxNic) (frame : XmitFrame) (msdu : List UInt8)
    (seqnum : UInt16) (hdr : Nat) (mem : Mem) : Prop where
  header : Header nic frame msdu seqnum hdr mem
  iv : mem.read (hdr + frame.hdrlen) frame.ivLen = frame.iv.take frame.ivLen

/-- The MPDU of a frame; `rest` is what stands behind the LLC header. -/
structure MpduOf (nic : TxNic) (frame : XmitFrame) (msdu rest : List UInt8)
    (mpdu : List UInt8) : Prop where
  head : ∃ seqnum hdr mem, Headed nic frame msdu seqnum hdr mem ∧
    mpdu.take (frame.hdrlen + frame.ivLen) =
      mem.read hdr (frame.hdrlen + frame.ivLen)
  body : mpdu.drop (frame.hdrlen + frame.ivLen) =
    airBody frame.encryptAlgo (frameKey nic frame msdu)
      (snapHeader frame.etherType ++ rest)

/-! ## Encryption -/

theorem encryptBody_eq {frame : XmitFrame} (icv : frame.icvLen = 4)
    (key : List UInt8) (pframe frameLen : Nat) (mem : Mem) :
    encryptBody frame key pframe frameLen mem =
      mem.write (pframe + frame.hdrlen + frame.ivLen) (sealBody key
        (mem.read (pframe + frame.hdrlen + frame.ivLen)
          (frameLen - (frame.hdrlen + frame.ivLen + frame.icvLen)))) := by
  rw [sealBody, ← Mem.write_append]
  simp only [encryptBody, arc4Encrypt, length_keystreamXor, Mem.length_read, icv]
  rfl

theorem getAddrs_of_read {mem : Mem} {hdr : Nat}
    {addr1 addr2 addr3 : List UInt8} (h1 : addr1.length = 6)
    (h2 : addr2.length = 6)
    (h : mem.read (hdr + 4) 18 = addr1 ++ (addr2 ++ addr3)) :
    getAddr1 mem hdr = addr1 ∧ getAddr2 mem hdr = addr2 ∧
      getAddr3 mem hdr = addr3 := by
  rw [show (18 : Nat) = 6 + (6 + 6) from rfl, Mem.read_add, Mem.read_add] at h
  obtain ⟨first, rest⟩ := List.append_inj h (by rw [Mem.length_read, h1])
  obtain ⟨second, third⟩ := List.append_inj rest (by rw [Mem.length_read, h2])
  exact ⟨first, second, third⟩

theorem getAddrs_header {nic : TxNic} {frame : XmitFrame} {msdu : List UInt8}
    {seqnum : UInt16} {hdr : Nat} {mem : Mem} (long : ethHlen ≤ msdu.length)
    (header : Header nic frame msdu seqnum hdr mem) :
    getAddr1 mem hdr = receiverAddr nic msdu ∧
      getAddr2 mem hdr = transmitterAddr nic msdu ∧
      (nic.workMode = .infra → getAddr3 mem hdr = msdu.take 6) ∧
      (nic.workMode = .master → getAddr3 mem hdr = (msdu.drop 6).take 6) := by
  have addrs := header.addrs
  have hdest := length_dest long
  have hsrc := length_src long
  have hbssid : nic.curBssid.toList.length = 6 := Vector.length_toList
  unfold headerAddrs at addrs
  unfold receiverAddr transmitterAddr
  cases mode : nic.workMode with
  | infra =>
      simp only [mode] at addrs
      obtain ⟨first, second, third⟩ := getAddrs_of_read hbssid hsrc addrs
      exact ⟨first, second, fun _ => third, by simp⟩
  | master =>
      simp only [mode] at addrs
      obtain ⟨first, second, third⟩ := getAddrs_of_read hdest hbssid addrs
      exact ⟨first, second, by simp, fun _ => third⟩
  | adhoc =>
      simp only [mode] at addrs
      obtain ⟨first, second, -⟩ := getAddrs_of_read hdest hsrc addrs
      exact ⟨first, second, by simp, by simp⟩
  | other =>
      simp only [mode] at addrs
      obtain ⟨first, second, -⟩ := getAddrs_of_read hdest hsrc addrs
      exact ⟨first, second, by simp, by simp⟩

theorem wepEncrypt_eq {nic : TxNic} {frame : XmitFrame} {mem : Mem}
    (ivLen : frame.ivLen = 4) (icvLen : frame.icvLen = 4)
    (iv : mem.read (frame.bufAddr + nic.txdescSize + frame.hdrlen) frame.ivLen =
      frame.iv.take frame.ivLen) (sz : Nat) :
    wepEncrypt nic frame frame.bufAddr (sz + nic.txdescSize) mem =
      mem.write (frame.bufAddr + nic.txdescSize + frame.hdrlen + frame.ivLen)
        (sealBody (wepKeyOf nic.secInfo (frame.iv.take 4)) (mem.read
          (frame.bufAddr + nic.txdescSize + frame.hdrlen + frame.ivLen)
          (sz - (frame.hdrlen + frame.ivLen + frame.icvLen)))) := by
  simp only [wepEncrypt]
  rw [encryptBody_eq icvLen, Nat.add_sub_cancel, ← ivLen, iv]

theorem tkipEncrypt_eq {nic : TxNic} {frame : XmitFrame} {msdu : List UInt8}
    {seqnum : UInt16} {mem : Mem} (long : ethHlen ≤ msdu.length)
    (ivLen : frame.ivLen = 8) (icvLen : frame.icvLen = 4)
    (headed : Headed nic frame msdu seqnum (frame.bufAddr + nic.txdescSize) mem)
    (sz : Nat) :
    tkipEncrypt nic frame frame.bufAddr (sz + nic.txdescSize) mem =
      mem.write (frame.bufAddr + nic.txdescSize + frame.hdrlen + frame.ivLen)
        (sealBody (tkipPacketKey (temporalKey nic frame).toList
          (transmitterAddr nic msdu) (frame.iv.take 8)) (mem.read
            (frame.bufAddr + nic.txdescSize + frame.hdrlen + frame.ivLen)
            (sz - (frame.hdrlen + frame.ivLen + frame.icvLen)))) := by
  simp only [tkipEncrypt, temporalKey]
  rw [encryptBody_eq icvLen, Nat.add_sub_cancel,
    (getAddrs_header long headed.header).2.1, ← ivLen, headed.iv]

theorem wfSecEncrypt_eq {nic : TxNic} {frame : XmitFrame} {msdu : List UInt8}
    {seqnum : UInt16} {mem : Mem} (prepared : Prepared nic frame msdu)
    (supported : Supported frame.encryptAlgo)
    (headed : Headed nic frame msdu seqnum (frame.bufAddr + nic.txdescSize) mem)
    (sz : Nat) :
    wfSecEncrypt nic frame frame.bufAddr (sz + nic.txdescSize) mem =
      mem.write
        (frame.bufAddr + nic.txdescSize + frame.hdrlen + frame.ivLen)
        (airBody frame.encryptAlgo (frameKey nic frame msdu) (mem.read
          (frame.bufAddr + nic.txdescSize + frame.hdrlen + frame.ivLen)
          (sz - (frame.hdrlen + frame.ivLen + frame.icvLen)))) := by
  have ivLen := prepared.ivLen
  have icvLen := prepared.icvLen
  rcases supported with algo | algo | algo | algo
  · simp only [wfSecEncrypt, airBody, algo]
    rw [Mem.write_read]
  · rw [algo] at ivLen icvLen
    simp only [wfSecEncrypt, airBody, frameKey, algo]
    exact wepEncrypt_eq ivLen icvLen headed.iv sz
  · rw [algo] at ivLen icvLen
    simp only [wfSecEncrypt, airBody, frameKey, algo]
    exact wepEncrypt_eq ivLen icvLen headed.iv sz
  · rw [algo] at ivLen icvLen
    simp only [wfSecEncrypt, airBody, frameKey, algo]
    exact tkipEncrypt_eq prepared.long ivLen icvLen headed sz

/-! ## One MPDU -/

theorem Supported.swIcvLen {nic : TxNic} {frame : XmitFrame}
    {msdu : List UInt8} (supported : Supported frame.encryptAlgo)
    (prepared : Prepared nic frame msdu) : frame.swIcvLen = frame.icvLen := by
  have soft : frame.bswenc = true := by
    rw [prepared.bswenc, decide_eq_true_eq]
    rintro aes
    rw [aes] at supported
    simp [Supported] at supported
  rw [swIcvLen_eq, soft, if_pos rfl]

theorem length_airBody {nic : TxNic} {frame : XmitFrame} {msdu : List UInt8}
    (prepared : Prepared nic frame msdu)
    (supported : Supported frame.encryptAlgo) (key body : List UInt8) :
    (airBody frame.encryptAlgo key body).length = body.length + frame.icvLen := by
  rw [prepared.icvLen]
  rcases supported with algo | algo | algo | algo
  · simp [airBody, txIcvLen, algo]
  · simp [airBody, txIcvLen, algo]
  · simp [airBody, txIcvLen, algo]
  · simp [airBody, txIcvLen, algo]

theorem mpduInsertSendingQueue_one {nic : TxNic} {frame : XmitFrame}
    (one : frame.nrFrags = 1) (mem : Mem) :
    (mpduInsertSendingQueue nic frame (fun _ => true) mem).map
        (fun write => write.bytes.drop nic.txdescSize) =
      [(wfSecEncrypt nic frame frame.bufAddr
        (frame.lastTxcmdsz + nic.txdescSize) mem).read
          (frame.bufAddr + nic.txdescSize) frame.lastTxcmdsz] := by
  rw [mpduInsertSendingQueue, one, show (1 : UInt8).toNat = 0 + 1 from rfl]
  simp only [sendLoop, ne_eq, not_true_eq_false, if_false, if_true,
    List.map_cons, List.map_nil, Mem.drop_read, Nat.add_sub_cancel]

section Sent

variable {nic : TxNic} {frame : XmitFrame} {msdu : List UInt8}
  {result : MpduResult}

theorem wholeMpdu_parts (whole : WholeMpdu nic frame msdu result)
    (prepared : Prepared nic frame msdu) :
    Headed nic frame msdu result.frame.seqnum (frame.bufAddr + nic.txdescSize)
        result.mem ∧
      result.mem.read
          (frame.bufAddr + nic.txdescSize + frame.hdrlen + frame.ivLen)
          (8 + (msdu.length - ethHlen)) =
        snapHeader frame.etherType ++ msdu.drop ethHlen := by
  have body := whole.body
  rw [Mem.read_add] at body
  obtain ⟨iv, plain⟩ := List.append_inj body (by
    rw [Mem.length_read, List.length_take]
    exact (Nat.min_eq_left prepared.iv).symm)
  exact ⟨⟨whole.header, iv⟩, plain⟩

theorem wfSecEncrypt_same {nic' : TxNic} {split : XmitFrame}
    (same : SameNic nic nic') (kept : SameFrame frame split)
    (pdata len : Nat) (mem : Mem) :
    wfSecEncrypt nic' split pdata len mem = wfSecEncrypt nic frame pdata len mem := by
  obtain ⟨⟨wdn, rfl⟩, -⟩ := same
  obtain ⟨seqnum, ampduEn, nrFrags, lastTxcmdsz, rfl⟩ := kept
  rfl

theorem mpduOf_read {seqnum : UInt16} {hdr n : Nat} {mem : Mem}
    {rest air : List UInt8} (headed : Headed nic frame msdu seqnum hdr mem)
    (body : air = airBody frame.encryptAlgo (frameKey nic frame msdu)
      (snapHeader frame.etherType ++ rest))
    (length : n = frame.hdrlen + frame.ivLen + air.length) :
    MpduOf nic frame msdu rest
      ((mem.write (hdr + frame.hdrlen + frame.ivLen) air).read hdr n) := by
  subst n
  constructor
  · refine ⟨seqnum, hdr, mem, headed, ?_⟩
    rw [Mem.take_read _ _ (by omega), Mem.read_write_apart _ (by omega)]
  · rw [Mem.drop_read, Nat.add_sub_cancel_left, ← Nat.add_assoc,
      Mem.read_write_self, body]

/-- What is sent of an MSDU in one piece; `trailer` is the room of the MIC. -/
theorem wholeMpdu_sent (whole : WholeMpdu nic frame msdu result)
    (prepared : Prepared nic frame msdu)
    (supported : Supported frame.encryptAlgo) :
    ∃ mpdu trailer,
      (mpduInsertSendingQueue result.nic result.frame (fun _ => true)
          result.mem).map (fun write => write.bytes.drop result.nic.txdescSize) =
        [mpdu] ∧
        trailer.length = frame.micLen ∧
        MpduOf nic frame msdu (msdu.drop ethHlen ++ trailer) mpdu := by
  obtain ⟨headed, plain⟩ := wholeMpdu_parts whole prepared
  have soft := supported.swIcvLen prepared
  have txdesc := whole.same.fixed.2.2
  obtain ⟨seqnum, ampduEn, hframe⟩ := whole.outcome
  have kept : SameFrame frame result.frame := ⟨seqnum, ampduEn, _, _, hframe⟩
  have one : result.frame.nrFrags = 1 := by rw [hframe]
  have size : result.frame.lastTxcmdsz = frame.wholeLen msdu + frame.micLen := by
    rw [hframe]
  have buf : result.frame.bufAddr = frame.bufAddr := by rw [hframe]
  have count : frame.wholeLen msdu + frame.micLen =
      frame.hdrlen + frame.ivLen + frame.icvLen +
        (8 + (msdu.length - ethHlen) + frame.micLen) := by
    unfold XmitFrame.wholeLen XmitFrame.overhead
    omega
  refine ⟨_, result.mem.read (frame.bufAddr + nic.txdescSize + frame.hdrlen +
    frame.ivLen + (8 + (msdu.length - ethHlen))) frame.micLen,
    mpduInsertSendingQueue_one one result.mem, Mem.length_read _ _ _, ?_⟩
  rw [wfSecEncrypt_same whole.same kept, size, buf, txdesc,
    wfSecEncrypt_eq prepared supported headed, count, Nat.add_sub_cancel_left]
  apply mpduOf_read headed
  · rw [Mem.read_add, plain, List.append_assoc]
  · rw [length_airBody prepared supported, Mem.length_read]
    omega

theorem transmit_whole {mem : Mem} {mpdus : List (List UInt8)}
    (prepared : Prepared nic frame msdu)
    (supported : Supported frame.encryptAlgo)
    (fits : frame.bmcast = true ∨ frame.wholeLen msdu ≤ nic.fragThresh.toNat)
    (h : transmit nic frame msdu mem = some mpdus) :
    ∃ mpdu trailer, mpdus = [mpdu] ∧ trailer.length = frame.micLen ∧
      MpduOf nic frame msdu (msdu.drop ethHlen ++ trailer) mpdu := by
  rw [transmit, Option.map_eq_some_iff] at h
  obtain ⟨result, hresult, rfl⟩ := h
  obtain ⟨addressed, keyed⟩ := wfTxMsduToMpdu_needs prepared hresult
  obtain ⟨result', hwhole, whole⟩ :=
    wfTxMsduToMpdu_whole prepared addressed keyed fits mem
  rw [hresult, Option.some.injEq] at hwhole
  subst result'
  exact wholeMpdu_sent whole prepared supported

theorem transmit_single {mem : Mem} {mpdu : List UInt8}
    (prepared : Prepared nic frame msdu)
    (supported : Supported frame.encryptAlgo)
    (fits : frame.bmcast = true ∨ frame.wholeLen msdu ≤ nic.fragThresh.toNat)
    (h : transmit nic frame msdu mem = some [mpdu]) :
    ∃ trailer : List UInt8, trailer.length = frame.micLen ∧
      MpduOf nic frame msdu (msdu.drop ethHlen ++ trailer) mpdu := by
  obtain ⟨other, trailer, single, length, mpduOf⟩ :=
    transmit_whole prepared supported fits h
  rw [List.cons.injEq] at single
  rw [← single.1] at mpduOf
  exact ⟨trailer, length, mpduOf⟩

theorem transmit_returns (prepared : Prepared nic frame msdu)
    (fits : frame.bmcast = true ∨ frame.wholeLen msdu ≤ nic.fragThresh.toNat)
    (addressed : Tx.Addressed nic frame msdu) (keyed : MicKeyed nic frame)
    (mem : Mem) : ∃ mpdus, transmit nic frame msdu mem = some mpdus := by
  obtain ⟨result, hresult, -⟩ :=
    wfTxMsduToMpdu_whole prepared addressed keyed fits mem
  exact ⟨_, by rw [transmit, hresult, Option.map_some]⟩

end Sent

end Smartchip.Link
