import Smartchip.Ap.SharedKey
import Smartchip.Foundation.Crc
import Smartchip.Link.RoundTrip
import Smartchip.Sec.KeyMixing
import Smartchip.Tx.Prepare

/-!
# Frames under WEP and TKIP

What `wep_encrypt`, `tkip_encrypt` and `wf_wep_encrypt_auth` write is read back
by their counterparts, and a frame is accepted by its checksum alone.
-/

namespace Smartchip.Link

open Smartchip.Foundation Smartchip.Frame Smartchip.Sec Smartchip.Tx Smartchip.Rx

/-! ## The checksum -/

/-- The polynomial of CRC-32, lowest power first. -/
def crcPoly : BitVec 32 := 0xEDB88320#32

theorem crc32Table_eq : ∀ byte : BitVec 8,
    (crc32Table ⟨byte⟩).toBitVec = crcShifts crcPoly 8 (byte.setWidth 32) := by
  decide +kernel

/-- The CRC-32 of a message as its four bytes. -/
def icvOf (body : List UInt8) : List UInt8 :=
  le32 ⟨crc32 crcPoly (body.map UInt8.toBitVec)⟩

theorem getCrc32_eq (buf : List UInt8) :
    getCrc32 buf = ⟨crc32 crcPoly (buf.map UInt8.toBitVec)⟩ := by
  have step (crc : UInt32) (byte : UInt8) :
      (crc32Table ⟨(crc.toBitVec ^^^ byte.toBitVec.setWidth 32).setWidth 8⟩).toBitVec ^^^
          (crc.toBitVec >>> 8) =
        (crc32Table (crc ^^^ byte.toUInt32).toUInt8 ^^^ (crc >>> 8)).toBitVec := rfl
  apply UInt32.toBitVec_inj.mp
  rw [← crc32_table crcPoly (fun byte => (crc32Table ⟨byte⟩).toBitVec) crc32Table_eq,
    getCrc32, UInt32.toBitVec_not, List.foldl_map]
  exact congrArg (fun crc => ~~~crc) (List.foldl_hom UInt32.toBitVec step).symm

theorem le32_getCrc32 (buf : List UInt8) : le32 (getCrc32 buf) = icvOf buf := by
  rw [getCrc32_eq, icvOf]

@[simp] theorem length_icvOf (body : List UInt8) : (icvOf body).length = 4 := rfl

/-! ## From the sender's buffer to the receiver's -/

/-- A frame in the clear behind the transmit descriptor, with room for the ICV. -/
structure Plain (tx : TxNic) (frame : XmitFrame) (pdata len : Nat) (mem : Mem)
    (header iv payload : List UInt8) : Prop where
  hdrlen : frame.hdrlen = header.length
  ivLen : frame.ivLen = iv.length
  icvLen : frame.icvLen = 4
  len : len = header.length + iv.length + payload.length + 4 + tx.txdescSize
  bytes : mem.read (pdata + tx.txdescSize)
    (header.length + iv.length + payload.length) = header ++ iv ++ payload

/-- The packet holds these bytes, and the lengths of its parts are the sender's. -/
structure Arrived (frame : XmitFrame) (bytes : List UInt8) (pkt : RxPkt) : Prop where
  skb : pkt.skb = bytes
  wlanHdrLen : pkt.info.wlanHdrLen = frame.hdrlen
  ivLen : pkt.info.ivLen = frame.ivLen
  icvLen : pkt.info.icvLen = frame.icvLen

section Frames

variable {tx : TxNic} {frame : XmitFrame} {pdata len : Nat} {mem : Mem}
  {header iv payload : List UInt8}

/-- The bytes behind the transmit descriptor. -/
def sentBytes (tx : TxNic) (pdata len : Nat) (mem : Mem) : List UInt8 :=
  mem.read (pdata + tx.txdescSize) (len - tx.txdescSize)

theorem Plain.parts (plain : Plain tx frame pdata len mem header iv payload) :
    mem.read (pdata + tx.txdescSize) header.length = header ∧
      mem.read (pdata + tx.txdescSize + header.length) iv.length = iv ∧
      mem.read (pdata + tx.txdescSize + header.length + iv.length) payload.length =
        payload := by
  have bytes := plain.bytes
  rw [Mem.read_add, Mem.read_add] at bytes
  obtain ⟨front, rest⟩ := List.append_inj bytes (by simp)
  obtain ⟨first, second⟩ := List.append_inj front (by simp)
  exact ⟨first, second, by rw [Nat.add_assoc, rest]⟩

theorem Plain.encrypted (plain : Plain tx frame pdata len mem header iv payload)
    (key : List UInt8) :
    sentBytes tx pdata len
        (encryptBody frame key (pdata + tx.txdescSize) (len - tx.txdescSize) mem) =
      header ++ iv ++ sealBody key payload := by
  obtain ⟨first, second, third⟩ := plain.parts
  have room : len - tx.txdescSize =
      header.length + iv.length + (sealBody key payload).length := by
    rw [plain.len, length_sealBody]
    omega
  have body : len - tx.txdescSize - (header.length + iv.length + 4) =
      payload.length := by
    rw [plain.len]
    omega
  rw [sentBytes, encryptBody_eq plain.icvLen, plain.hdrlen, plain.ivLen, plain.icvLen,
    body, third, room, Mem.read_add, Mem.read_add, ← Nat.add_assoc,
    Mem.read_write_self, Mem.read_write_apart _ (by omega),
    Mem.read_write_apart _ (by omega), first, second]

theorem Arrived.ivField {rest : List UInt8} {pkt : RxPkt}
    (arrived : Arrived frame (header ++ iv ++ rest) pkt) :
    pkt.mem.read (pkt.pdata + header.length) iv.length = iv := by
  have skb := arrived.skb
  have long := congrArg List.length skb
  simp only [RxPkt.skb, Mem.length_read, List.length_append] at long
  rw [RxPkt.skb, long, Mem.read_add] at skb
  obtain ⟨front, -⟩ := List.append_inj skb (by simp)
  rw [Mem.read_add] at front
  exact (List.append_inj front (by simp)).2

/-- A sealed body is opened in place and the rest of the packet is kept. -/
theorem decryptBody_arrived {key : List UInt8} {pkt : RxPkt}
    (arrived : Arrived frame (header ++ iv ++ sealBody key payload) pkt)
    (hdrlen : frame.hdrlen = header.length) (ivLen : frame.ivLen = iv.length)
    (icvLen : frame.icvLen = 4) :
    ∃ pkt', decryptBody key pkt = some pkt' ∧ pkt'.info = pkt.info ∧
      pkt'.skb = header ++ iv ++ (payload ++ icvOf payload) := by
  have wlanHdrLen := arrived.wlanHdrLen.trans hdrlen
  have infoIv := arrived.ivLen.trans ivLen
  have infoIcv := arrived.icvLen.trans icvLen
  have skb := arrived.skb
  have long := congrArg List.length skb
  simp only [RxPkt.skb, Mem.length_read, List.length_append, length_sealBody] at long
  rw [RxPkt.skb, long, Mem.read_add] at skb
  obtain ⟨front, body⟩ := List.append_inj skb (by simp)
  rw [← Nat.add_assoc] at body
  have count : pkt.len - (header.length + iv.length + 4) = payload.length := by
    omega
  have whole : (payload ++ icvOf payload).length = payload.length + 4 := by simp
  unfold decryptBody
  simp only [wlanHdrLen, infoIv, infoIcv, count, body, arc4Encrypt_sealBody,
    le32_getCrc32, List.take_left, List.drop_left]
  rw [if_neg (by rw [List.take_of_length_le (by simp)]; simp)]
  refine ⟨_, rfl, rfl, ?_⟩
  have kept : (pkt.mem.write (pkt.pdata + header.length + iv.length)
      (payload ++ icvOf payload)).read pkt.pdata (header.length + iv.length) =
      header ++ iv := by
    rw [Mem.read_write_apart _ (by omega), front]
  simp only [RxPkt.skb, long]
  rw [Mem.read_add, kept, ← whole, ← Nat.add_assoc, Mem.read_write_self]

end Frames

/-! ## WEP -/

/-- The default key that an IV field selects. -/
def wepKeyIndex (iv : List UInt8) : UInt8 := (iv.getD 3 0 >>> 6) &&& 0x3

/-- `wf_wep_encrypt_auth`.  The length of the payload of a frame below 32 bytes wraps
around, and its checksum would run over the whole memory. -/
def wfWepEncryptAuth (keys : SecInfo) (mgmt : Mem) (mgmtLen : UInt16) : Option Mem :=
  let payloadLen := mgmtLen.toNat - Ap.payloadOfs - 4
  if mgmtLen.toNat < Ap.payloadOfs + 4 then none
  else
    let mgmt := mgmt.write (Ap.payloadOfs + payloadLen)
      (le32 (getCrc32 (mgmt.read Ap.payloadOfs payloadLen)))
    some (mgmt.write Ap.payloadOfs
      (arc4Encrypt (arc4Init (wepKeyOf keys (mgmt.read 24 4)))
        (mgmt.read Ap.payloadOfs (payloadLen + 4))).1)

theorem wepKeyOf_congr {keys keys' : SecInfo} {iv : List UInt8}
    (same : keys.dot11DefKey (wepKeyIndex iv) = keys'.dot11DefKey (wepKeyIndex iv)) :
    wepKeyOf keys iv = wepKeyOf keys' iv := by
  unfold wepKeyIndex at same
  rw [wepKeyOf, wepKeyOf, same]

/-- A decrypted body ends with the CRC-32 of what is in front of it. -/
def EndsWithIcv (plain : List UInt8) : Prop :=
  plain.drop (plain.length - 4) = icvOf (plain.take (plain.length - 4))

theorem decryptBody_isSome {key : List UInt8} {pkt : RxPkt}
    (icvLen : pkt.info.icvLen = 4)
    (long : pkt.info.wlanHdrLen + pkt.info.ivLen + 4 ≤ pkt.len) :
    (decryptBody key pkt).isSome = true ↔
      EndsWithIcv (arc4Encrypt (arc4Init key)
        (pkt.mem.read (pkt.pdata + pkt.info.wlanHdrLen + pkt.info.ivLen)
          (pkt.len - (pkt.info.wlanHdrLen + pkt.info.ivLen)))).1 := by
  obtain ⟨n, len⟩ := Nat.exists_eq_add_of_le long
  have body : pkt.len - (pkt.info.wlanHdrLen + pkt.info.ivLen + 4) = n := by omega
  have whole : pkt.len - (pkt.info.wlanHdrLen + pkt.info.ivLen) = n + 4 := by omega
  unfold decryptBody EndsWithIcv
  simp only [icvLen, body, whole, le32_getCrc32, arc4Encrypt, length_keystreamXor,
    Mem.length_read, Nat.add_sub_cancel]
  rw [List.take_of_length_le (by simp)]
  split_ifs with differ
  · simp [Ne.symm differ]
  · simp [(not_not.mp differ).symm]

theorem wepDecrypt_isSome {rx : RxNic} {pkt : RxPkt} (icvLen : pkt.info.icvLen = 4)
    (long : pkt.info.wlanHdrLen + pkt.info.ivLen + 4 ≤ pkt.len) :
    (Rx.wepDecrypt rx pkt).isSome = true ↔
      EndsWithIcv (arc4Encrypt (arc4Init (wepKeyOf rx.secInfo
        (pkt.mem.read (pkt.pdata + pkt.info.wlanHdrLen) 4)))
        (pkt.mem.read (pkt.pdata + pkt.info.wlanHdrLen + pkt.info.ivLen)
          (pkt.len - (pkt.info.wlanHdrLen + pkt.info.ivLen)))).1 :=
  decryptBody_isSome icvLen long

/-! ## The third frame of the shared key -/

section Third

variable {keys : SecInfo} {mgmt stale : Mem} {mgmtLen : UInt16} {tag : Ap.ApMsgTag}

theorem decryptAuth_ok {frame : List UInt8} (long : 32 ≤ frame.length)
    (short : frame.length < 65536) :
    (∃ opened, Ap.wfWepDecryptAuth keys (Ap.fillMsg stale tag frame) = .ok opened) ↔
      EndsWithIcv (Ap.plainOf keys frame) := by
  have less : frame.length - 28 - 4 = frame.length - 32 := by omega
  rw [Ap.decrypt_fillMsg long short, EndsWithIcv, Ap.length_plainOf, less, Ap.wepBody]
  simp only [le32_getCrc32]
  by_cases same : icvOf ((Ap.plainOf keys frame).take (frame.length - 32)) =
      (Ap.plainOf keys frame).drop (frame.length - 32)
  · simp [same]
  · simp [same, Ne.symm same]

theorem plainOf_sent (long : 32 ≤ mgmtLen.toNat) {sent : Mem}
    (encrypted : wfWepEncryptAuth keys mgmt mgmtLen = some sent) :
    sent.read 0 28 = mgmt.read 0 28 ∧
      Ap.plainOf keys (sent.read 0 mgmtLen.toNat) =
        mgmt.read 28 (mgmtLen.toNat - 32) ++ icvOf (mgmt.read 28 (mgmtLen.toNat - 32)) := by
  obtain ⟨n, len⟩ := Nat.exists_eq_add_of_le long
  have body : mgmtLen.toNat - 32 = n := by omega
  have less : mgmtLen.toNat - 28 - 4 = n := by omega
  have enough : ¬ mgmtLen.toNat < 28 + 4 := by omega
  have icv : (mgmt.write (28 + n) (icvOf (mgmt.read 28 n))).read 28 (n + 4) =
      mgmt.read 28 n ++ icvOf (mgmt.read 28 n) := by
    rw [Mem.read_add, Mem.read_write_apart _ (by omega)]
    exact congrArg _ (Mem.read_write_self _ _ (icvOf (mgmt.read 28 n)))
  have iv : (mgmt.write (28 + n) (icvOf (mgmt.read 28 n))).read 24 4 = mgmt.read 24 4 :=
    Mem.read_write_apart _ (by omega)
  simp only [wfWepEncryptAuth, Ap.payloadOfs, enough, if_false, less, le32_getCrc32, icv,
    iv, Option.some.injEq] at encrypted
  subst encrypted
  generalize sealed : (arc4Encrypt (arc4Init (wepKeyOf keys (mgmt.read 24 4)))
    (mgmt.read 28 n ++ icvOf (mgmt.read 28 n))).1 = cipher
  have count : cipher.length = n + 4 := by
    rw [← sealed]
    simp [arc4Encrypt]
  have front : ((mgmt.write (28 + n) (icvOf (mgmt.read 28 n))).write 28 cipher).read 0 28 =
      mgmt.read 0 28 := by
    rw [Mem.read_write_apart _ (by omega), Mem.read_write_apart _ (by omega)]
  have sentIv : ((mgmt.write (28 + n) (icvOf (mgmt.read 28 n))).write 28 cipher).read 24 4 =
      mgmt.read 24 4 := by
    rw [Mem.read_write_apart _ (by omega), iv]
  have sentBody :
      ((mgmt.write (28 + n) (icvOf (mgmt.read 28 n))).write 28 cipher).read 28 (n + 4) =
        cipher := by
    rw [← count]
    exact Mem.read_write_self _ _ cipher
  constructor
  · exact front
  · rw [body, len, Ap.plainOf, Mem.drop_read, Mem.drop_read, Mem.take_read _ _ (by omega),
      Nat.zero_add, Nat.zero_add, show 32 + n - 28 = n + 4 by omega, sentIv, sentBody,
      ← sealed]
    exact keystreamXor_involutive arc4Byte (arc4Init (wepKeyOf keys (mgmt.read 24 4))) _

theorem decryptAuth_sent (long : 32 ≤ mgmtLen.toNat) (stale : Mem) (tag : Ap.ApMsgTag)
    {sent : Mem} (encrypted : wfWepEncryptAuth keys mgmt mgmtLen = some sent) :
    ∃ opened, Ap.wfWepDecryptAuth keys
        (Ap.fillMsg stale tag (sent.read 0 mgmtLen.toNat)) = .ok opened ∧
      opened.read 0 (mgmtLen.toNat - 4) = mgmt.read 0 (mgmtLen.toNat - 4) := by
  obtain ⟨front, plain⟩ := plainOf_sent long encrypted
  obtain ⟨n, len⟩ := Nat.exists_eq_add_of_le long
  have short := mgmtLen.toNat_lt
  have body : mgmtLen.toNat - 32 = n := by omega
  have size : (sent.read 0 mgmtLen.toNat).length = mgmtLen.toNat := Mem.length_read _ _ _
  have accepted : (Ap.wepBody keys (sent.read 0 mgmtLen.toNat)).isSome = true := by
    unfold Ap.wepBody
    rw [size, plain, List.take_left' (by simp), List.drop_left' (by simp)]
    simp [le32_getCrc32]
  rw [Ap.decrypt_fillMsg (by rw [size]; exact long) (by rw [size]; exact short),
    if_pos accepted]
  refine ⟨_, rfl, ?_⟩
  have header : (stale.write 0 (sent.read 0 mgmtLen.toNat)).read 0 28 =
      mgmt.read 0 28 := by
    rw [← front]
    exact @Mem.read_write_copy stale sent 0 0 mgmtLen.toNat 0 28 _
      (Mem.take_read sent 0 (Nat.le_refl _)) (by omega)
  have payload (mem : Mem) :
      (mem.write 28 (mgmt.read 28 n ++ icvOf (mgmt.read 28 n))).read 28 n =
        mgmt.read 28 n := by
    have inside := @Mem.read_write_inside mem 28 0 n
      (mgmt.read 28 n ++ icvOf (mgmt.read 28 n)) (by simp)
    simpa using inside
  rw [plain, body, show mgmtLen.toNat - 4 = 28 + n by omega, Mem.read_add, Mem.read_add,
    Mem.read_write_apart _ (by omega), header, payload]

end Third

section WepFrames

variable {tx : TxNic} {rx : RxNic} {frame : XmitFrame} {pdata len : Nat} {mem : Mem}
  {header iv payload : List UInt8} {pkt : RxPkt}

theorem wepDecrypt_sent (plain : Plain tx frame pdata len mem header iv payload)
    (four : iv.length = 4)
    (arrived : Arrived frame
      (sentBytes tx pdata len (wepEncrypt tx frame pdata len mem)) pkt)
    (same : tx.secInfo.dot11DefKey (wepKeyIndex iv) =
      rx.secInfo.dot11DefKey (wepKeyIndex iv)) :
    ∃ pkt', Rx.wepDecrypt rx pkt = some pkt' ∧ pkt'.info = pkt.info ∧
      pkt'.skb = header ++ iv ++ (payload ++ icvOf payload) := by
  have sentIv : mem.read (pdata + tx.txdescSize + header.length) 4 = iv := by
    rw [← four]
    exact plain.parts.2.1
  simp only [wepEncrypt, plain.hdrlen, sentIv, plain.encrypted] at arrived
  have received := arrived.ivField
  rw [four] at received
  unfold Rx.wepDecrypt
  simp only [arrived.wlanHdrLen, plain.hdrlen, received, wepKeyOf_congr same.symm]
  exact decryptBody_arrived arrived plain.hdrlen plain.ivLen plain.icvLen

end WepFrames

/-- A frame under WEP comes back from the receive side, as does the third frame of the
shared key, and both are accepted exactly when they end with the CRC-32. -/
theorem wep_round_trip :
    (∀ (tx : TxNic) (rx : RxNic) (frame : XmitFrame) (pdata len : Nat) (mem : Mem)
      (header iv payload : List UInt8) (pkt : RxPkt),
      Plain tx frame pdata len mem header iv payload → iv.length = 4 →
      tx.secInfo.dot11DefKey (wepKeyIndex iv) =
        rx.secInfo.dot11DefKey (wepKeyIndex iv) →
      Arrived frame (sentBytes tx pdata len (wepEncrypt tx frame pdata len mem)) pkt →
      ∃ pkt', Rx.wepDecrypt rx pkt = some pkt' ∧
        pkt'.skb = header ++ iv ++ (payload ++ icvOf payload)) ∧
    (∀ (keys : SecInfo) (mgmt stale : Mem) (mgmtLen : UInt16) (tag : Ap.ApMsgTag),
      32 ≤ mgmtLen.toNat →
      ∃ sent opened, wfWepEncryptAuth keys mgmt mgmtLen = some sent ∧
        Ap.wfWepDecryptAuth keys (Ap.fillMsg stale tag (sent.read 0 mgmtLen.toNat)) =
          .ok opened ∧
        opened.read 0 (mgmtLen.toNat - 4) = mgmt.read 0 (mgmtLen.toNat - 4)) ∧
    (∀ (rx : RxNic) (pkt : RxPkt), pkt.info.ivLen = 4 → pkt.info.icvLen = 4 →
      pkt.info.wlanHdrLen + 8 ≤ pkt.len →
      ((Rx.wepDecrypt rx pkt).isSome = true ↔
        EndsWithIcv (arc4Encrypt (arc4Init (wepKeyOf rx.secInfo
          ((pkt.skb.drop pkt.info.wlanHdrLen).take 4)))
          (pkt.skb.drop (pkt.info.wlanHdrLen + 4))).1)) ∧
    ∀ (keys : SecInfo) (stale : Mem) (tag : Ap.ApMsgTag) (frame : List UInt8),
      32 ≤ frame.length → frame.length < 65536 →
      ((∃ opened, Ap.wfWepDecryptAuth keys (Ap.fillMsg stale tag frame) = .ok opened) ↔
        EndsWithIcv (arc4Encrypt (arc4Init (wepKeyOf keys ((frame.drop 24).take 4)))
          (frame.drop 28)).1) := by
  constructor
  · intro tx rx frame pdata len mem header iv payload pkt plain four same arrived
    obtain ⟨pkt', opened, -, skb⟩ := wepDecrypt_sent plain four arrived same
    exact ⟨pkt', opened, skb⟩
  constructor
  · intro keys mgmt stale mgmtLen tag long
    have enough : ¬ mgmtLen.toNat < 28 + 4 := by omega
    obtain ⟨sent, encrypted⟩ : ∃ sent, wfWepEncryptAuth keys mgmt mgmtLen = some sent := by
      simp only [wfWepEncryptAuth, Ap.payloadOfs, enough, if_false]
      exact ⟨_, rfl⟩
    obtain ⟨opened, accepted, kept⟩ := decryptAuth_sent long stale tag encrypted
    exact ⟨sent, opened, encrypted, accepted, kept⟩
  constructor
  · intro rx pkt ivLen icvLen long
    have accepted := @wepDecrypt_isSome rx pkt icvLen (by omega)
    rw [ivLen] at accepted
    rw [accepted, RxPkt.skb, Mem.drop_read, Mem.drop_read, Mem.take_read _ _ (by omega),
      ← Nat.add_assoc]
  · intro keys stale tag frame long short
    exact decryptAuth_ok long short

/-! ## TKIP -/

theorem getTkipPn_tkipIv (txpn dot11txpn : UInt64) (keyidx : UInt8) :
    (getTkipPn (tkipIv txpn keyidx) dot11txpn).toNat % 2 ^ 48 = txpn.toNat % 2 ^ 48 := by
  have whole := dot11txpn.toNat_lt
  simp only [getTkipPn, tkipIv, List.getD_cons_zero, List.getD_cons_succ, tsc,
    UInt8.toNat_ofNat', UInt64.toNat_ofNat']
  omega

/-- Both ends hold the temporal key: that of the station, or the group key under the
index in the IV. -/
structure SharedTk (tx : TxNic) (rx : RxNic) (frame : XmitFrame) (info : RxPktInfo)
    (keyidx : UInt8) (tk : Keytype) : Prop where
  sender : temporalKey tx frame = tk
  group : isMcast info.rxAddr = true →
    rx.binstallGrpkey = true ∧ rx.secInfo.dot118021XGrpKey (keyidx &&& 0x3) = tk
  station : isMcast info.rxAddr = false →
    ∃ id, rx.wdnFindInfo info.txAddr = some id ∧ (rx.wdn id).dot118021xUncstKey = tk

theorem tkipIv_index : ∀ keyidx : BitVec 8,
    ((0x20 ||| ivKeyidx ⟨keyidx⟩) >>> 6) &&& 0x3 = (⟨keyidx⟩ : UInt8) &&& 0x3 := by
  decide +kernel

section TkipFrames

variable {tx : TxNic} {rx : RxNic} {frame : XmitFrame} {pdata len : Nat} {mem : Mem}
  {header payload : List UInt8} {pkt : RxPkt} {txpn : UInt64} {keyidx : UInt8}
  {tk : Keytype}

theorem tkipKey_shared (shared : SharedTk tx rx frame pkt.info keyidx tk) :
    tkipKey rx pkt.info (tkipIv txpn keyidx) = some tk := by
  have index : ((tkipIv txpn keyidx).getD 3 0 >>> 6) &&& 0x3 = keyidx &&& 0x3 :=
    tkipIv_index keyidx.toBitVec
  rw [tkipKey, index]
  cases cast : isMcast pkt.info.rxAddr with
  | true =>
      obtain ⟨installed, key⟩ := shared.group cast
      simp [installed, key]
  | false =>
      obtain ⟨id, found, key⟩ := shared.station cast
      simp [found, key]

theorem tkipDecrypt_sent
    (plain : Plain tx frame pdata len mem header (tkipIv txpn keyidx) payload)
    (ta : getAddr2 mem (frame.bufAddr + tx.txdescSize) = pkt.info.txAddr)
    (shared : SharedTk tx rx frame pkt.info keyidx tk)
    (arrived : Arrived frame
      (sentBytes tx pdata len (tkipEncrypt tx frame pdata len mem)) pkt) :
    ∃ pkt', tkipDecrypt rx pkt = some pkt' ∧ pkt'.info = pkt.info ∧
      pkt'.skb = header ++ tkipIv txpn keyidx ++ (payload ++ icvOf payload) := by
  have sentIv : mem.read (pdata + tx.txdescSize + header.length) 8 =
      tkipIv txpn keyidx := plain.parts.2.1
  have key : (if frame.bmcast then
      tx.secInfo.dot118021XGrpKey tx.secInfo.dot118021XGrpKeyid
    else frame.dot118021xUncstKey) = tk := shared.sender
  simp only [tkipEncrypt, plain.hdrlen, sentIv, key, ta, plain.encrypted] at arrived
  have received : pkt.mem.read (pkt.pdata + header.length) 8 = tkipIv txpn keyidx :=
    arrived.ivField
  unfold tkipDecrypt
  simp only [arrived.wlanHdrLen, plain.hdrlen, received, tkipKey_shared shared,
    Option.bind_eq_bind, Option.bind_some]
  exact decryptBody_arrived arrived plain.hdrlen plain.ivLen plain.icvLen

end TkipFrames

/-- The IV field gives back the packet number, and a frame under TKIP comes back from
the receive side. -/
theorem tkip_encapsulation_round_trip (tk : Keytype) (txpn : UInt64) (keyidx : UInt8) :
    (∀ dot11txpn : UInt64,
      (getTkipPn (tkipIv txpn keyidx) dot11txpn).toNat % 2 ^ 48 =
        txpn.toNat % 2 ^ 48) ∧
    ∀ (tx : TxNic) (rx : RxNic) (frame : XmitFrame) (pdata len : Nat) (mem : Mem)
      (header payload : List UInt8) (pkt : RxPkt),
      Plain tx frame pdata len mem header (tkipIv txpn keyidx) payload →
      getAddr2 mem (frame.bufAddr + tx.txdescSize) = pkt.info.txAddr →
      SharedTk tx rx frame pkt.info keyidx tk →
      Arrived frame (sentBytes tx pdata len (tkipEncrypt tx frame pdata len mem)) pkt →
      ∃ pkt', tkipDecrypt rx pkt = some pkt' ∧
        pkt'.skb = header ++ tkipIv txpn keyidx ++ (payload ++ icvOf payload) := by
  constructor
  · intro dot11txpn
    exact getTkipPn_tkipIv txpn dot11txpn keyidx
  · intro tx rx frame pdata len mem header payload pkt plain ta shared arrived
    obtain ⟨pkt', opened, -, skb⟩ := tkipDecrypt_sent plain ta shared arrived
    exact ⟨pkt', opened, skb⟩

/-! A QoS frame of the station for its access point. -/

def qosHeader : List UInt8 :=
  [0x88, 0x41, 0x00, 0x00] ++ apAddr.toList ++ staAddr.toList ++ apAddr.toList ++
    [0x00, 0x00, 0x00, 0x00]

def plainBuffer (iv payload : List UInt8) : Mem :=
  Mem.write (fun _ => 0) 4136 (qosHeader ++ iv ++ payload)

theorem plainBuffer_plain (frame : XmitFrame) (iv payload : List UInt8)
    (hdrlen : frame.hdrlen = 26) (ivLen : frame.ivLen = iv.length)
    (icvLen : frame.icvLen = 4) :
    Plain stationTx frame 4096 (26 + iv.length + payload.length + 4 + 40)
      (plainBuffer iv payload) qosHeader iv payload where
  hdrlen := hdrlen
  ivLen := ivLen
  icvLen := icvLen
  len := rfl
  bytes := by
    have whole := Mem.read_write_self (fun _ => 0) 4136 (qosHeader ++ iv ++ payload)
    rw [List.length_append, List.length_append] at whole
    exact whole

/-- The packet as the receiver has parsed it. -/
def arrivedPkt (tx : TxNic) (frame : XmitFrame) (pdata len : Nat) (mem : Mem) : RxPkt where
  mem
  pdata := pdata + tx.txdescSize
  len := len - tx.txdescSize
  info := { wfRxRxdPrase firstDesc with
    wlanHdrLen := frame.hdrlen
    ivLen := frame.ivLen
    icvLen := frame.icvLen
    rxAddr := apAddr.toList
    txAddr := staAddr.toList }

theorem arrivedPkt_arrived (tx : TxNic) (frame : XmitFrame) (pdata len : Nat) (mem : Mem) :
    Arrived frame (sentBytes tx pdata len mem) (arrivedPkt tx frame pdata len mem) :=
  ⟨rfl, rfl, rfl, rfl⟩

theorem wep_round_trip_station :
    ∃ pkt', Rx.wepDecrypt (accessPointRx .wep40)
        (arrivedPkt stationTx wepFrame 4096 77
          (wepEncrypt stationTx wepFrame 4096 77
            (plainBuffer [0x01, 0x00, 0x00, 0x40] [1, 2, 3]))) = some pkt' ∧
      pkt'.skb = qosHeader ++ [0x01, 0x00, 0x00, 0x40] ++ ([1, 2, 3] ++ icvOf [1, 2, 3]) :=
  wep_round_trip.1 stationTx (accessPointRx .wep40) wepFrame 4096 77
    (plainBuffer [0x01, 0x00, 0x00, 0x40] [1, 2, 3]) qosHeader [0x01, 0x00, 0x00, 0x40]
    [1, 2, 3] _ (plainBuffer_plain wepFrame [0x01, 0x00, 0x00, 0x40] [1, 2, 3] rfl rfl rfl)
    rfl rfl
    (arrivedPkt_arrived stationTx wepFrame 4096 77 _)

theorem tkip_encapsulation_round_trip_station :
    ∃ pkt', tkipDecrypt (accessPointRx .tkip)
        (arrivedPkt stationTx tkipFrame 4096 81
          (tkipEncrypt stationTx tkipFrame 4096 81
            (plainBuffer (tkipIv 0x10000 0) [1, 2, 3]))) = some pkt' ∧
      pkt'.skb = qosHeader ++ tkipIv 0x10000 0 ++ ([1, 2, 3] ++ icvOf [1, 2, 3]) := by
  have shared : SharedTk stationTx (accessPointRx .tkip) tkipFrame
      (arrivedPkt stationTx tkipFrame 4096 81 (tkipEncrypt stationTx tkipFrame 4096 81
        (plainBuffer (tkipIv 0x10000 0) [1, 2, 3]))).info 0 (Vector.replicate 16 0x44) :=
    ⟨rfl, fun mcast => absurd mcast (by decide), fun _ => ⟨0, by decide, rfl⟩⟩
  have ta : getAddr2 (plainBuffer (tkipIv 0x10000 0) [1, 2, 3])
      (tkipFrame.bufAddr + stationTx.txdescSize) = staAddr.toList := by
    decide +kernel
  exact (tkip_encapsulation_round_trip (Vector.replicate 16 0x44) 0x10000 0).2 stationTx
    (accessPointRx .tkip) tkipFrame 4096 81 (plainBuffer (tkipIv 0x10000 0) [1, 2, 3])
    qosHeader [1, 2, 3] _ (plainBuffer_plain tkipFrame (tkipIv 0x10000 0) [1, 2, 3] rfl rfl rfl)
    ta shared
    (arrivedPkt_arrived stationTx tkipFrame 4096 81 _)

end Smartchip.Link
